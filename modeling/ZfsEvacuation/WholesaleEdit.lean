import Mathlib.Tactic.Common
import Mathlib.Data.List.Basic

/-!
# Replacing a list that somebody else edits

One client edits a list by reading it and writing the whole list back; another one adds and
removes single entries, at any moment. An entry counts as the writer's own or as somebody
else's. In a frozen list entries can only disappear: a write that would add one is refused.
-/
namespace ZfsEvacuation.WholesaleEdit

variable {α : Type}

inductive Edit (α : Type) where
  | add (entry : α)
  | remove (entry : α)
  deriving DecidableEq, Repr

def Edit.entry : Edit α → α
  | .add a => a
  | .remove a => a

inductive Turn (α : Type) where
  | mine
  | other (e : Edit α)
  deriving DecidableEq, Repr

/-- The edits of the other client, in their order. -/
def edits (turns : List (Turn α)) : List (Edit α) :=
  turns.filterMap fun t =>
    match t with
    | .mine => none
    | .other e => some e

/-- The other client edits this entry in one of these turns. -/
def Touched (turns : List (Turn α)) (a : α) : Prop := ∃ e ∈ edits turns, e.entry = a

variable {turns : List (Turn α)} {a : α}

theorem touched_other {e : Edit α} :
    Touched (.other e :: turns) a ↔ e.entry = a ∨ Touched turns a := by
  simp [Touched, edits]

/-- The turns before the writer's next one. -/
theorem mine_cases (turns : List (Turn α)) :
    (∃ es : List (Edit α), turns = es.map Turn.other) ∨
      ∃ (es : List (Edit α)) (rest : List (Turn α)), turns = es.map Turn.other ++ .mine :: rest := by
  induction turns with
  | nil => exact .inl ⟨[], rfl⟩
  | cons t turns ih =>
    cases t with
    | mine => exact .inr ⟨[], turns, rfl⟩
    | other e =>
      rcases ih with ⟨es, rfl⟩ | ⟨es, rest, rfl⟩
      · exact .inl ⟨e :: es, rfl⟩
      · exact .inr ⟨e :: es, rest, rfl⟩

theorem others_inj {es es' : List (Edit α)} {rest rest' : List (Turn α)}
    (h : es.map Turn.other ++ .mine :: rest = es'.map Turn.other ++ .mine :: rest') :
    es = es' ∧ rest = rest' := by
  induction es generalizing es' with
  | nil =>
    cases es' with
    | nil => exact ⟨rfl, (List.cons.inj h).2⟩
    | cons e' es' => simp at h
  | cons e es ih =>
    cases es' with
    | nil => simp at h
    | cons e' es' =>
      simp only [List.map_cons, List.cons_append, List.cons.injEq, Turn.other.injEq] at h
      obtain ⟨rfl, hrest⟩ := h
      obtain ⟨rfl, rfl⟩ := ih hrest
      exact ⟨rfl, rfl⟩

theorem others_ne {es es' : List (Edit α)} {rest : List (Turn α)} :
    es.map Turn.other ≠ es'.map Turn.other ++ .mine :: rest := by
  intro h
  have hmem : Turn.mine ∈ es.map Turn.other := by rw [h]; simp
  simp at hmem

/-! ## Editing and writing -/

variable [DecidableEq α]

def Edit.apply (frozen : Bool) : Edit α → List α → List α
  | .add a, l => if frozen ∨ a ∈ l then l else l ++ [a]
  | .remove a, l => l.filter (· ≠ a)

/-- The list as the other client alone would leave it. -/
def left (frozen : Bool) (turns : List (Turn α)) (l : List α) : List α :=
  (edits turns).foldl (fun l e => e.apply frozen l) l

/-- Write the whole list back, unless that would add an entry to a frozen one. -/
def overwrite (frozen : Bool) (new l : List α) : List α :=
  if frozen ∧ ∃ a ∈ new, a ∉ l then l else new

/-- Where the writer is: before its read, before its write, or through. -/
inductive Stage (α : Type) where
  | reading
  | writing (new : List α)
  | done

structure Cell (α : Type) where
  stage : Stage α
  entries : List α

/-- What the writer does next about the list it has read. -/
def decideOn (change : List α → Option (List α)) (read : List α) : Stage α :=
  match change read with
  | none => .done
  | some new => .writing new

def turn (change : List α → Option (List α)) (frozen : Bool) (c : Cell α) : Turn α → Cell α
  | .mine =>
    match c.stage with
    | .reading => ⟨decideOn change c.entries, c.entries⟩
    | .writing new => ⟨.done, overwrite frozen new c.entries⟩
    | .done => c
  | .other e => ⟨c.stage, e.apply frozen c.entries⟩

def run (change : List α → Option (List α)) (frozen : Bool) (c : Cell α)
    (turns : List (Turn α)) : Cell α := turns.foldl (turn change frozen) c

variable {frozen : Bool} {change : List α → Option (List α)} {own : α → Bool}
  {l l' rd new : List α}

/-! ## What the other client leaves -/

@[simp] theorem left_nil (l : List α) : left frozen [] l = l := rfl

@[simp] theorem left_mine (turns : List (Turn α)) (l : List α) :
    left frozen (.mine :: turns) l = left frozen turns l := rfl

@[simp] theorem left_other (e : Edit α) (turns : List (Turn α)) (l : List α) :
    left frozen (.other e :: turns) l = left frozen turns (e.apply frozen l) := rfl

theorem left_append (turns turns' : List (Turn α)) (l : List α) :
    left frozen (turns ++ turns') l = left frozen turns' (left frozen turns l) := by
  simp [left, edits, List.filterMap_append, List.foldl_append]

theorem mem_apply_other {e : Edit α} (h : e.entry ≠ a) : a ∈ e.apply frozen l ↔ a ∈ l := by
  cases e with
  | add b =>
    have hne : a ≠ b := Ne.symm h
    simp only [Edit.apply]
    split_ifs
    · rfl
    · simp [hne]
  | remove b =>
    have hne : a ≠ b := Ne.symm h
    simp [Edit.apply, hne]

/-- Whether an entry is there after an edit depends on whether it was there before. -/
theorem mem_apply_congr {e : Edit α} (h : a ∈ l ↔ a ∈ l') :
    a ∈ e.apply frozen l ↔ a ∈ e.apply frozen l' := by
  by_cases he : e.entry = a
  · cases e with
    | add b =>
      obtain rfl : b = a := he
      simp only [Edit.apply]
      cases frozen with
      | true => simpa using h
      | false => by_cases hb : b ∈ l <;> by_cases hb' : b ∈ l' <;> simp_all
    | remove b =>
      obtain rfl : b = a := he
      simp [Edit.apply]
  · rw [mem_apply_other he, mem_apply_other he]
    exact h

theorem mem_left_congr (h : a ∈ l ↔ a ∈ l') : a ∈ left frozen turns l ↔ a ∈ left frozen turns l' := by
  induction turns generalizing l l' with
  | nil => exact h
  | cons t turns ih =>
    cases t with
    | mine => exact ih h
    | other e => exact ih (mem_apply_congr h)

/-- In a list that is not frozen, an edit alone decides about its entry. -/
theorem mem_apply_self {e : Edit α} : e.entry ∈ e.apply false l ↔ e.entry ∈ e.apply false l' := by
  cases e with
  | add b =>
    have hadd : ∀ l : List α, b ∈ Edit.apply false (.add b) l := by
      intro l
      by_cases hb : b ∈ l <;> simp [Edit.apply, hb]
    exact iff_of_true (hadd l) (hadd l')
  | remove b => simp [Edit.apply, Edit.entry]

/-- Later edits of an entry make up for what happened to it before, and nothing else does. -/
theorem mem_left_iff :
    (a ∈ left false turns l ↔ a ∈ left false turns l') ↔ (Touched turns a ∨ (a ∈ l ↔ a ∈ l')) := by
  induction turns generalizing l l' with
  | nil => simp [Touched, edits]
  | cons t turns ih =>
    cases t with
    | mine => exact ih
    | other e =>
      rw [left_other, left_other, ih, touched_other]
      by_cases he : e.entry = a
      · have hself : a ∈ e.apply false l ↔ a ∈ e.apply false l' := he ▸ mem_apply_self
        simp [he, hself]
      · rw [mem_apply_other he, mem_apply_other he]
        simp [he]

theorem apply_subset {e : Edit α} : e.apply true l ⊆ l := by
  cases e with
  | add b => simp [Edit.apply]
  | remove b => simp [Edit.apply]

theorem left_subset : left true turns l ⊆ l := by
  induction turns generalizing l with
  | nil => exact List.Subset.refl l
  | cons t turns ih =>
    cases t with
    | mine => exact ih
    | other e => exact List.Subset.trans ih apply_subset

/-! ## What becomes of the list -/

theorem run_append (c : Cell α) (turns turns' : List (Turn α)) :
    run change frozen c (turns ++ turns') = run change frozen (run change frozen c turns) turns' :=
  List.foldl_append ..

theorem run_others (es : List (Edit α)) (s : Stage α) (l : List α) :
    run change frozen ⟨s, l⟩ (es.map .other) = ⟨s, left frozen (es.map .other) l⟩ := by
  induction es generalizing l with
  | nil => rfl
  | cons e es ih => exact ih (e.apply frozen l)

theorem run_done (turns : List (Turn α)) (l : List α) :
    run change frozen ⟨.done, l⟩ turns = ⟨.done, left frozen turns l⟩ := by
  induction turns generalizing l with
  | nil => rfl
  | cons t turns ih =>
    cases t with
    | mine => exact ih l
    | other e => exact ih (e.apply frozen l)

/-! ## Lost edits -/

/-- Of the entries that are not the writer's own, the list has those that the other client
alone would have left. -/
def Kept (own : α → Bool) (frozen : Bool) (turns : List (Turn α)) (l final : List α) : Prop :=
  ∀ a, own a = false → (a ∈ final ↔ a ∈ left frozen turns l)

/-- Between a read that found `rd` and the write, the other client has changed whether some
entry is there, and it does not come back to that entry. -/
def Lost (own : α → Bool) (frozen : Bool) (rd : List α) (turns : List (Turn α)) : Prop :=
  frozen = false ∧ ∃ (es : List (Edit α)) (rest : List (Turn α)),
    turns = es.map Turn.other ++ .mine :: rest ∧
      ∃ a, own a = false ∧ ¬ Touched rest a ∧ ¬ (a ∈ rd ↔ a ∈ left frozen (es.map .other) rd)

/-- The writer's read is its first turn, and what it then writes loses an edit. -/
def LostLater (change : List α → Option (List α)) (own : α → Bool) (frozen : Bool) (l : List α)
    (turns : List (Turn α)) : Prop :=
  ∃ (es : List (Edit α)) (rest : List (Turn α)), turns = es.map Turn.other ++ .mine :: rest ∧
    (change (left frozen (es.map .other) l)).isSome ∧
      Lost own frozen (left frozen (es.map .other) l) rest

/-- A write changes the writer's own entries only. -/
def OwnOnly (own : α → Bool) (change : List α → Option (List α)) : Prop :=
  ∀ rd new, change rd = some new → ∀ a, own a = false → (a ∈ new ↔ a ∈ rd)

/-- A frozen list has lost entries since it was read, so a write that keeps the others of
what was read adds nothing new only where nothing was lost. -/
theorem mem_overwrite_frozen (hnew : ∀ a, own a = false → (a ∈ new ↔ a ∈ rd)) (hsub : l ⊆ rd)
    (ha : own a = false) : a ∈ overwrite true new l ↔ a ∈ l := by
  by_cases hadds : ∃ b ∈ new, b ∉ l
  · simp [overwrite, hadds]
  · have hnone : overwrite true new l = new := by simp [overwrite, hadds]
    rw [hnone]
    constructor
    · intro hmem
      by_contra hl
      exact hadds ⟨a, hmem, hl⟩
    · intro hmem
      exact (hnew a ha).mpr (hsub hmem)

theorem writing_kept_iff (hnew : ∀ a, own a = false → (a ∈ new ↔ a ∈ rd)) :
    Kept own frozen turns rd (run change frozen ⟨.writing new, rd⟩ turns).entries ↔
      ¬ Lost own frozen rd turns := by
  rcases mine_cases turns with ⟨es, rfl⟩ | ⟨es, rest, rfl⟩
  · rw [run_others]
    refine iff_of_true (fun a _ => Iff.rfl) ?_
    rintro ⟨-, es', rest, h, -⟩
    exact others_ne h
  · have hfinal : (run change frozen ⟨.writing new, rd⟩ (es.map .other ++ .mine :: rest)).entries =
        left frozen rest (overwrite frozen new (left frozen (es.map .other) rd)) := by
      rw [run_append, run_others]
      exact congrArg Cell.entries (run_done ..)
    rw [Kept, hfinal]
    simp only [left_append, left_mine]
    cases frozen with
    | true =>
      refine iff_of_true (fun a ha => ?_) (fun hlost => Bool.noConfusion hlost.1)
      exact mem_left_congr (mem_overwrite_frozen hnew left_subset ha)
    | false =>
      have hover : ∀ l, overwrite false new l = new := fun l => by simp [overwrite]
      rw [hover]
      constructor
      · rintro hkept ⟨-, es', rest', heq, a, ha, huntouched, hchanged⟩
        obtain ⟨rfl, rfl⟩ := others_inj heq
        rcases mem_left_iff.mp (hkept a ha) with htouched | hsame
        · exact huntouched htouched
        · exact hchanged ((hnew a ha).symm.trans hsame)
      · intro hnot a ha
        refine mem_left_iff.mpr ?_
        by_contra hneither
        obtain ⟨huntouched, hchanged⟩ := not_or.mp hneither
        exact hnot ⟨rfl, es, rest, rfl, a, ha, huntouched,
          fun h => hchanged ((hnew a ha).trans h)⟩

/-- A writer that is done with its read, which found the list as it is. -/
theorem decided_kept_iff (hown : OwnOnly own change) :
    Kept own frozen turns rd (run change frozen ⟨decideOn change rd, rd⟩ turns).entries ↔
      ¬ ((change rd).isSome ∧ Lost own frozen rd turns) := by
  cases hc : change rd with
  | none =>
    rw [decideOn, hc, run_done]
    exact iff_of_true (fun a _ => Iff.rfl) (by simp)
  | some new =>
    rw [decideOn, hc]
    have hiff : Kept own frozen turns rd (run change frozen ⟨.writing new, rd⟩ turns).entries ↔
        ¬ Lost own frozen rd turns := writing_kept_iff (hown rd new hc)
    simpa using hiff

theorem reading_kept_iff (hown : OwnOnly own change) :
    Kept own frozen turns l (run change frozen ⟨.reading, l⟩ turns).entries ↔
      ¬ LostLater change own frozen l turns := by
  rcases mine_cases turns with ⟨es, rfl⟩ | ⟨es, rest, rfl⟩
  · rw [run_others]
    refine iff_of_true (fun a _ => Iff.rfl) ?_
    rintro ⟨es', rest, h, -⟩
    exact others_ne h
  · have hrun : run change frozen ⟨.reading, l⟩ (es.map .other ++ .mine :: rest) =
        run change frozen ⟨decideOn change (left frozen (es.map .other) l),
          left frozen (es.map .other) l⟩ rest := by
      rw [run_append, run_others]
      rfl
    have hleft : Kept own frozen (es.map .other ++ .mine :: rest) l =
        Kept own frozen rest (left frozen (es.map .other) l) := by
      funext final
      simp only [Kept, left_append, left_mine]
    rw [hrun, hleft, decided_kept_iff hown]
    constructor
    · rintro hnot ⟨es', rest', heq, hsome, hlost⟩
      obtain ⟨rfl, rfl⟩ := others_inj heq
      exact hnot ⟨hsome, hlost⟩
    · rintro hnot ⟨hsome, hlost⟩
      exact hnot ⟨es, rest, rfl, hsome, hlost⟩

end ZfsEvacuation.WholesaleEdit
