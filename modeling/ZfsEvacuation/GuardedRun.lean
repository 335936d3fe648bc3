import Mathlib.Tactic.Common

/-!
# Runs of a guarded transition system

A system is a partial step function on states and actions. `Run` is a finite run whose
steps all meet a guard, a condition on the state before the step and on the action.
-/
namespace ZfsEvacuation.GuardedRun

variable {σ α : Type}

/-- Runs from `init`, with the actions in the order they were taken. -/
inductive Run (step : σ → α → Option σ) (guard : σ → α → Prop) (init : σ) : List α → σ → Prop
  | start : Run step guard init [] init
  | snoc {as : List α} {a : α} {s s' : σ} (prior : Run step guard init as s)
      (admitted : guard s a) (next : step s a = some s') : Run step guard init (as ++ [a]) s'

variable {step : σ → α → Option σ} {guard guard' : σ → α → Prop} {init : σ}

/-- What holds at the start and is preserved by every admitted step holds along every run. -/
theorem Run.invariant {inv : σ → Prop} (hinit : inv init)
    (hstep : ∀ s a s', inv s → guard s a → step s a = some s' → inv s')
    {as : List α} {s : σ} (h : Run step guard init as s) : inv s := by
  induction h with
  | start => exact hinit
  | snoc _ hg hs ih => exact hstep _ _ _ ih hg hs

theorem Run.mono (hguard : ∀ s a, guard s a → guard' s a) {as : List α} {s : σ}
    (h : Run step guard init as s) : Run step guard' init as s := by
  induction h with
  | start => exact .start
  | snoc _ hg hs ih => exact ih.snoc (hguard _ _ hg) hs

/-- An invariant whose steps need another one. -/
theorem Run.invariant_over {base inv : σ → Prop}
    (hbase : ∀ {as : List α} {s : σ}, Run step guard init as s → base s) (hinit : inv init)
    (hstep : ∀ s a s', base s → inv s → guard s a → step s a = some s' → inv s')
    {as : List α} {s : σ} (h : Run step guard init as s) : inv s := by
  induction h with
  | start => exact hinit
  | snoc prior hg hs ih => exact hstep _ _ _ (hbase prior) ih hg hs

/-- The same as `Run.invariant`, with the run so far at hand for facts about the past. -/
theorem Run.invariant_past {inv : List α → σ → Prop} (hinit : inv [] init)
    (hstep : ∀ as s a s', Run step guard init as s → inv as s → guard s a →
      step s a = some s' → inv (as ++ [a]) s')
    {as : List α} {s : σ} (h : Run step guard init as s) : inv as s := by
  induction h with
  | start => exact hinit
  | snoc prior hg hs ih => exact hstep _ _ _ _ prior ih hg hs

/-- Two runs in sequence. -/
theorem Run.append {as bs : List α} {s t : σ} (h : Run step guard init as s)
    (h' : Run step guard s bs t) : Run step guard init (as ++ bs) t := by
  induction h' with
  | start => simpa using h
  | snoc _ hg hs ih => rw [← List.append_assoc]; exact ih.snoc hg hs

/-- A run passes through a state after each part of its actions. -/
theorem Run.split {as bs : List α} {s : σ} (h : Run step guard init (as ++ bs) s) :
    ∃ t, Run step guard init as t ∧ Run step guard t bs s := by
  generalize hcs : as ++ bs = cs at h
  induction h generalizing bs with
  | start =>
    obtain ⟨rfl, rfl⟩ := List.append_eq_nil_iff.mp hcs
    exact ⟨init, .start, .start⟩
  | @snoc cs c s s' prior hg hs ih =>
    rcases List.eq_nil_or_concat bs with rfl | ⟨bs', b, rfl⟩
    · obtain rfl : as = cs ++ [c] := by simpa using hcs
      exact ⟨s', prior.snoc hg hs, .start⟩
    · have hlast : (as ++ bs') ++ [b] = cs ++ [c] := by simpa using hcs
      obtain ⟨hinit, hb⟩ := List.append_inj' hlast rfl
      obtain rfl : b = c := (List.cons.inj hb).1
      obtain ⟨t, hbefore, hafter⟩ := ih hinit
      rw [List.concat_eq_append]
      exact ⟨t, hbefore, hafter.snoc hg hs⟩

/-- The state a sequence of actions leads to, if every step is possible. -/
def runList (step : σ → α → Option σ) : σ → List α → Option σ
  | s, [] => some s
  | s, a :: as => (step s a).bind fun s' => runList step s' as

theorem runList_append (as bs : List α) (s : σ) :
    runList step s (as ++ bs) = (runList step s as).bind fun t => runList step t bs := by
  induction as generalizing s with
  | nil => rfl
  | cons a as ih =>
    simp only [List.cons_append, runList]
    cases step s a with
    | none => rfl
    | some s' => exact ih s'

/-- A run ends where its actions lead. -/
theorem Run.runList_eq {as : List α} {s : σ} (h : Run step guard init as s) :
    runList step init as = some s := by
  induction h with
  | start => rfl
  | snoc prior hg hs ih =>
    rw [runList_append, ih]
    simp [runList, hs]

/-- At some point of the run, the state and the next action were such. -/
def Happened (step : σ → α → Option σ) (init : σ) (p : σ → α → Prop) (as : List α) : Prop :=
  ∃ bs a cs s, as = bs ++ a :: cs ∧ runList step init bs = some s ∧ p s a

theorem Happened.last {p : σ → α → Prop} {as : List α} {a : α} {s : σ}
    (hs : runList step init as = some s) (h : Happened step init p (as ++ [a])) :
    Happened step init p as ∨ p s a := by
  obtain ⟨bs, b, cs, t, heq, ht, hp⟩ := h
  rcases List.eq_nil_or_concat cs with rfl | ⟨cs', c, rfl⟩
  · obtain ⟨rfl, hlast⟩ := List.append_inj' heq rfl
    obtain rfl : a = b := (List.cons.inj hlast).1
    obtain rfl : s = t := Option.some.inj (hs.symm.trans ht)
    exact .inr hp
  · have hsplit : as ++ [a] = (bs ++ b :: cs') ++ [c] := by simpa using heq
    exact .inl ⟨bs, b, cs', t, (List.append_inj' hsplit rfl).1, ht, hp⟩

theorem Happened.append {p : σ → α → Prop} {as : List α} (h : Happened step init p as)
    (bs : List α) : Happened step init p (as ++ bs) := by
  obtain ⟨cs, a, ds, s, rfl, hs, hp⟩ := h
  exact ⟨cs, a, ds ++ bs, s, by simp, hs, hp⟩

theorem Happened.mono {p q : σ → α → Prop} (hpq : ∀ s a, p s a → q s a) {as : List α}
    (h : Happened step init p as) : Happened step init q as := by
  obtain ⟨bs, a, cs, s, heq, hs, hp⟩ := h
  exact ⟨bs, a, cs, s, heq, hs, hpq s a hp⟩

theorem Happened.now {p : σ → α → Prop} {as : List α} {a : α} {s : σ}
    (hs : runList step init as = some s) (hp : p s a) : Happened step init p (as ++ [a]) :=
  ⟨as, a, [], s, rfl, hs, hp⟩

/-- After these actions, in this state, the state and the next action were such. -/
structure HappenedAt (step : σ → α → Option σ) (init : σ) (p : σ → α → Prop) (as bs : List α)
    (s : σ) : Prop where
  state : runList step init bs = some s
  next : ∃ a cs, as = bs ++ a :: cs ∧ p s a

theorem Happened.exists_at {p : σ → α → Prop} {as : List α} (h : Happened step init p as) :
    ∃ bs s, HappenedAt step init p as bs s := by
  obtain ⟨bs, a, cs, s, heq, hs, hp⟩ := h
  exact ⟨bs, s, hs, a, cs, heq, hp⟩

theorem HappenedAt.append {p : σ → α → Prop} {as bs : List α} {s : σ}
    (h : HappenedAt step init p as bs s) (cs : List α) :
    HappenedAt step init p (as ++ cs) bs s := by
  obtain ⟨hs, a, ds, rfl, hp⟩ := h
  exact ⟨hs, a, ds ++ cs, by simp, hp⟩

theorem HappenedAt.mono {p q : σ → α → Prop} {as bs : List α} {s : σ}
    (hpq : ∀ s a, p s a → q s a) (h : HappenedAt step init p as bs s) :
    HappenedAt step init q as bs s := by
  obtain ⟨hs, a, cs, heq, hp⟩ := h
  exact ⟨hs, a, cs, heq, hpq s a hp⟩

/-- Between a state with a property and one without it there is a step that loses it. -/
theorem runList_loses {p : σ → Prop} {as : List α} {s t : σ} (h : runList step s as = some t)
    (hp : p s) (hn : ¬ p t) :
    Happened step s (fun u a => p u ∧ ∃ u', step u a = some u' ∧ ¬ p u') as := by
  induction as generalizing s with
  | nil =>
    obtain rfl := Option.some.inj h
    exact absurd hp hn
  | cons a as ih =>
    obtain ⟨s', hs, hrest⟩ := Option.bind_eq_some_iff.mp h
    by_cases hp' : p s'
    · obtain ⟨bs, b, cs, u, rfl, hu, hloses⟩ := ih hrest hp'
      exact ⟨a :: bs, b, cs, u, rfl, by simp [runList, hs, hu], hloses⟩
    · exact ⟨[], a, as, s, rfl, rfl, hp, s', hs, hp'⟩

/-! ## Moments of a run -/

/-- A run that leads from `init` to `s` is in the state `t` after these of its actions. -/
structure Passes (step : σ → α → Option σ) (guard : σ → α → Prop) (init : σ) (as : List α) (s : σ)
    (bs : List α) (t : σ) : Prop where
  prior : Run step guard init bs t
  later : ∃ cs, as = bs ++ cs ∧ Run step guard t cs s

theorem Run.passes {as bs cs : List α} {s t : σ} (h : Run step guard init as s)
    (heq : as = bs ++ cs) (ht : runList step init bs = some t) :
    Passes step guard init as s bs t := by
  subst heq
  obtain ⟨t', hprior, hlater⟩ := h.split
  obtain rfl : t' = t := Option.some.inj (hprior.runList_eq.symm.trans ht)
  exact ⟨hprior, cs, rfl, hlater⟩

theorem Passes.trans {as bs cs : List α} {s t u : σ} (h : Passes step guard init as s bs t)
    (h' : Passes step guard init bs t cs u) : Passes step guard init as s cs u := by
  obtain ⟨ds, rfl, hlater⟩ := h.later
  obtain ⟨es, rfl, hmiddle⟩ := h'.later
  exact ⟨h'.prior, es ++ ds, List.append_assoc .., hmiddle.append hlater⟩

/-- Of two moments of a run, one comes before the other. -/
theorem Passes.ordered {as bs cs : List α} {s t u : σ} (h : Passes step guard init as s bs t)
    (h' : Passes step guard init as s cs u) :
    (∃ ds, cs = bs ++ ds ∧ Run step guard t ds u) ∨ ∃ ds, bs = cs ++ ds ∧ Run step guard u ds t := by
  have hbetween : ∀ {bs ds : List α} {t u : σ}, Run step guard init bs t →
      Run step guard init (bs ++ ds) u → Run step guard t ds u := by
    intro bs ds t u hb hd
    obtain ⟨t', hprior, hlater⟩ := hd.split
    obtain rfl : t' = t := Option.some.inj (hprior.runList_eq.symm.trans hb.runList_eq)
    exact hlater
  obtain ⟨es, rfl, -⟩ := h.later
  obtain ⟨fs, heq, -⟩ := h'.later
  rcases List.append_eq_append_iff.mp heq with ⟨ds, rfl, -⟩ | ⟨ds, rfl, -⟩
  · exact .inl ⟨ds, rfl, hbetween h.prior h'.prior⟩
  · exact .inr ⟨ds, rfl, hbetween h'.prior h.prior⟩

theorem Run.passes_at {p : σ → α → Prop} {as bs : List α} {s t : σ}
    (h : Run step guard init as s) (hp : HappenedAt step init p as bs t) :
    Passes step guard init as s bs t := by
  obtain ⟨ht, a, cs, heq, -⟩ := hp
  exact h.passes heq ht

theorem Run.eq_of_nil {as : List α} {s t : σ} (h : Run step guard s as t) (has : as = []) :
    s = t := by
  cases h with
  | start => rfl
  | snoc _ _ _ => exact absurd has (by simp)

/-- The first step of a run. -/
theorem Run.first {as : List α} {a : α} {s t : σ} (h : Run step guard s (a :: as) t) :
    guard s a := by
  generalize hbs : a :: as = bs at h
  induction h generalizing as with
  | start => cases hbs
  | @snoc bs b t u prior hg _ ih =>
    cases bs with
    | nil =>
      obtain rfl : a = b := (List.cons.inj hbs).1
      exact (prior.eq_of_nil rfl).symm ▸ hg
    | cons c bs =>
      obtain ⟨rfl, -⟩ := List.cons.inj hbs
      exact ih rfl

/-- What happened in a run, with the step in which it did. -/
theorem Run.happened {p : σ → α → Prop} {as : List α} {s : σ} (h : Run step guard init as s)
    (hp : Happened step init p as) :
    ∃ bs a t, Passes step guard init as s bs t ∧ guard t a ∧ p t a := by
  obtain ⟨bs, a, cs, t, heq, ht, hpa⟩ := hp
  have hpasses := h.passes heq ht
  obtain ⟨ds, hds, hlater⟩ := hpasses.later
  obtain rfl : ds = a :: cs := List.append_cancel_left (hds.symm.trans heq)
  exact ⟨bs, a, t, hpasses, hlater.first, hpa⟩

/-- The states that the actions lead through, up to the first step that is not possible. -/
def visited (step : σ → α → Option σ) : σ → List α → List σ
  | s, [] => [s]
  | s, a :: as => s :: match step s a with
    | none => []
    | some s' => visited step s' as

theorem mem_visited {as bs : List α} {s t : σ} (h : runList step s as = some t) :
    t ∈ visited step s (as ++ bs) := by
  induction as generalizing s with
  | nil =>
    obtain rfl := Option.some.inj h
    cases bs <;> simp [visited]
  | cons a as ih =>
    simp only [runList, Option.bind_eq_some_iff] at h
    obtain ⟨s', hs, ht⟩ := h
    simp only [List.cons_append, visited, hs]
    exact List.mem_cons_of_mem _ (ih ht)

theorem Happened.visited {p : σ → α → Prop} {as : List α} (h : Happened step init p as) :
    ∃ s ∈ visited step init as, ∃ a, p s a := by
  obtain ⟨bs, a, cs, s, rfl, hs, hp⟩ := h
  exact ⟨s, mem_visited hs, a, hp⟩

/-- What a step of this kind establishes, and every later step preserves, holds ever after. -/
theorem Run.since {base inv : σ → Prop} {p : σ → α → Prop}
    (hbase : ∀ {as : List α} {s : σ}, Run step guard init as s → base s)
    (hstart : ∀ s a s', base s → guard s a → p s a → step s a = some s' → inv s')
    (hstep : ∀ s a s', base s → inv s → guard s a → step s a = some s' → inv s')
    {as : List α} {s : σ} (h : Run step guard init as s) (hp : Happened step init p as) :
    inv s := by
  induction h with
  | start =>
    obtain ⟨bs, a, cs, t, heq, -⟩ := hp
    simp at heq
  | snoc prior hg hs ih =>
    rcases hp.last prior.runList_eq with hbefore | hnow
    · exact hstep _ _ _ (hbase prior) (ih hbefore) hg hs
    · exact hstart _ _ _ (hbase prior) hg hnow hs

/-- The steps that meet a decidable guard. -/
def guarded (step : σ → α → Option σ) (guard : σ → α → Prop) [∀ s a, Decidable (guard s a)] :
    σ → α → Option σ :=
  fun s a => if guard s a then step s a else none

/-- A computed run is a run. -/
theorem Run.of_runList [∀ s a, Decidable (guard s a)] {as : List α} {s t : σ}
    (h : runList (guarded step guard) s as = some t) : Run step guard s as t := by
  induction as generalizing s with
  | nil =>
    cases h
    exact .start
  | cons a as ih =>
    simp only [runList, Option.bind_eq_some_iff, guarded] at h
    obtain ⟨s', hs, ht⟩ := h
    split_ifs at hs with hg
    have hone : Run step guard s [a] s' := Run.start.snoc hg hs
    exact hone.append (ih ht)

/-- A computed run that ends in a state with a given property. -/
theorem Run.exists_of_runList [∀ s a, Decidable (guard s a)] {as : List α} {s : σ} {p : σ → Bool}
    (h : (runList (guarded step guard) s as).any p = true) :
    ∃ t, Run step guard s as t ∧ p t = true := by
  cases hrun : runList (guarded step guard) s as with
  | none =>
    rw [hrun] at h
    cases h
  | some t =>
    rw [hrun] at h
    exact ⟨t, .of_runList hrun, h⟩

/-! ## History variables -/

section History
variable {η : Type} {note : η → σ → η}

/-- The system together with notes on the states it has been in. -/
def withNotes (step : σ → α → Option σ) (note : η → σ → η) : σ × η → α → Option (σ × η) :=
  fun x a => (step x.1 a).map fun s => (s, note x.2 s)

/-- Notes do not change what the system does. -/
theorem Run.forget {guard : σ × η → α → Prop} {x y : σ × η} {as : List α}
    (hguard : ∀ x a, guard x a → guard' x.1 a) (h : Run (withNotes step note) guard x as y) :
    Run step guard' x.1 as y.1 := by
  induction h with
  | start => exact .start
  | snoc _ hg hs ih =>
    obtain ⟨s', hstep, rfl⟩ := Option.map_eq_some_iff.mp hs
    exact ih.snoc (hguard _ _ hg) hstep

end History

end ZfsEvacuation.GuardedRun
