import ZfsEvacuation.LockUpdates
import Mathlib.Data.Fintype.Card

/-!
# Updates under contention

An update of the attach-lock parameters is tried eight times. Each try that ends in a
conflict has been overtaken by a write of another caller, and each caller writes once, so
no caller gives up before eight others are through.
-/
namespace ZfsEvacuation.Updates
open ClientProgram Program GuardedRun

/-- The parameter object that is stored has this resource version. -/
def Current (w : World) (version : Nat) : Prop :=
  ∃ cur, w.get .params paramsKey = some cur ∧ cur.metadata.resourceVersion = version

/-- A caller after `calls` calls of its own and `writes` writes of all callers. A try was
overtaken if it has read something else than what is stored. -/
inductive Spent (mutate : EvacuationParamsSpec → EvacuationParamsSpec × Bool) (w : World)
    (calls writes : Nat) : M Unit → Prop
  | reading (tries : Nat) (made : calls + 2 * tries ≤ 16) (lost : 8 ≤ tries + writes) :
      Spent mutate w calls writes (updateParams mutate tries)
  | creating (tries : Nat) (made : calls + 2 * tries + 1 ≤ 16) (lost : 8 ≤ tries + 1 + writes)
      (overtaken : (w.get .params paramsKey).isSome → 8 ≤ tries + writes) :
      Spent mutate w calls writes
        (.call (.create .params ⟨{ name := paramsName }, (mutate {}).1⟩) (afterWrite mutate tries))
  | replacing (tries : Nat) (view : Obj .params) (key : view.key = paramsKey)
      (made : calls + 2 * tries + 1 ≤ 16) (lost : 8 ≤ tries + 1 + writes)
      (overtaken : ¬ Current w view.metadata.resourceVersion → 8 ≤ tries + writes) :
      Spent mutate w calls writes
        (.call (.replace .params ⟨view.metadata, (mutate view.data).1⟩) (afterWrite mutate tries))
  | returned (made : calls ≤ 16) : Spent mutate w calls writes (.ret ())
  | failed (e : Error) (made : calls ≤ 16) (lost : e = persistentConflict → 8 ≤ writes) :
      Spent mutate w calls writes (.fail e)

section Stages
variable {mutate : EvacuationParamsSpec → EvacuationParamsSpec × Bool} {w w' : World}
  {calls writes tries : Nat} {p : M Unit}

theorem Spent.calls_le (h : Spent mutate w calls writes p) : calls ≤ 16 := by
  cases h <;> omega

theorem Spent.lost_of_gaveUp (h : Spent mutate w calls writes (.fail persistentConflict)) :
    8 ≤ writes := by
  generalize hp : (.fail persistentConflict : M Unit) = p at h
  cases h with
  | reading tries _ lost =>
    cases tries with
    | zero => omega
    | succ tries =>
      rw [updateParams_succ] at hp
      cases hp
  | creating => cases hp
  | replacing => cases hp
  | returned => cases hp
  | failed e _ lost =>
    cases hp
    exact lost rfl

/-- One more write of another caller pays for the try it overtakes. -/
theorem Spent.wrote (h : Spent mutate w calls writes p) : Spent mutate w' calls (writes + 1) p := by
  cases h with
  | reading tries made lost => exact .reading tries made (by omega)
  | creating tries made lost _ => exact .creating tries made (by omega) fun _ => by omega
  | replacing tries view key made lost _ =>
    exact .replacing tries view key made (by omega) fun _ => by omega
  | returned made => exact .returned made
  | failed e made lost => exact .failed e made fun he => Nat.le_succ_of_le (lost he)

theorem spent_afterWrite {r : Except ApiError Unit} (made : calls + 2 * tries ≤ 16)
    (lost : r = .error .conflict → 8 ≤ tries + writes) :
    Spent mutate w calls writes (afterWrite mutate tries r) := by
  rcases r with (_ | _ | text) | _
  · exact .failed _ (by omega) (fun h => nomatch h)
  · exact .reading tries made (lost rfl)
  · exact .failed _ (by omega) (fun h => nomatch h)
  · exact .returned (by omega)

/-- What is read is what is stored. -/
theorem spent_afterRead (made : calls + 2 * tries + 1 ≤ 16) (lost : 8 ≤ tries + 1 + writes) :
    Spent mutate w calls writes
      (afterRead mutate tries (w.answer {} (.get .params paramsKey))) := by
  show Spent mutate w calls writes (afterRead mutate tries (.ok (w.get .params paramsKey)))
  cases hget : w.get .params paramsKey with
  | none =>
    simp only [afterRead]
    split_ifs
    · exact .returned (by omega)
    · exact .creating tries made lost fun h => by simp [hget] at h
  | some view =>
    simp only [afterRead]
    split_ifs
    · exact .returned (by omega)
    · exact .replacing tries view (World.get_key hget) made lost
        fun h => absurd ⟨view, hget, rfl⟩ h

/-- A create or a replace is refused with a conflict only when it was overtaken. -/
theorem spent_call {c : Call} {next : c.Resp → M Unit} (h : Spent mutate w calls writes p)
    (hp : p = .call c next) : Spent mutate w (calls + 1) writes (next (w.answer {} c)) := by
  cases h with
  | reading tries made lost =>
    cases tries with
    | zero => cases hp
    | succ tries =>
      rw [updateParams_succ] at hp
      cases hp
      exact spent_afterRead (by omega) lost
  | creating tries made lost overtaken =>
    cases hp
    refine spent_afterWrite (by omega) fun hconflict => overtaken ?_
    cases hget : w.get .params paramsKey with
    | none =>
      have hkey : Obj.key (k := .params) ⟨{ name := paramsName }, (mutate {}).1⟩ = paramsKey := rfl
      simp [World.answer, Outcome.write, World.create, hkey, hget] at hconflict
    | some cur => rfl
  | replacing tries view key made lost overtaken =>
    cases hp
    refine spent_afterWrite (by omega) fun hconflict => overtaken ?_
    rintro ⟨cur, hget, hversion⟩
    have hkey : Obj.key (k := .params) ⟨view.metadata, (mutate view.data).1⟩ = paramsKey := key
    simp [World.answer, Outcome.write, World.replace, hkey, hget, hversion] at hconflict
  | returned => cases hp
  | failed => cases hp

end Stages

/-! ## Runs of many callers -/

section Runs
variable {ι : Type} [DecidableEq ι] {ops : ι → KeyOp} {s s' : Updates ι} {i : ι} {w : World}
  {is : List ι} {n : Nat}

/-- The callers that have written so far, each of them once. -/
structure Contended (w : World) (ops : ι → KeyOp) (is : List ι) (s : Updates ι)
    (writers : List ι) : Prop where
  once : writers.Nodup
  through : ∀ j ∈ writers, s.prog j = .ret () ∧ Changed w ops j is
  spent : ∀ i, Spent (ops i).mutate s.world (is.count i) writers.length (s.prog i)

theorem contended_start : Contended w ops [] (start w ops) [] where
  once := List.nodup_nil
  through := by simp
  spent := by
    intro i
    rw [prog_start]
    exact .reading 8 (by simp) (by simp)

theorem spent_step (h : Spent (ops i).mutate s.world (is.count i) n (s.prog i))
    (hs : step s i = some s') :
    Spent (ops i).mutate s.world ((is ++ [i]).count i) n (s'.prog i) := by
  unfold step at hs
  cases hprog : s.prog i with
  | ret u => simp [hprog] at hs
  | fail e => simp [hprog] at hs
  | call c next =>
    simp only [hprog] at hs
    obtain rfl := Option.some.inj hs
    have hspent := spent_call h hprog
    simpa using hspent

theorem contended_step {writers : List ι} (hw : w.ParamsInOrder) (hrun : Runs w ops is s)
    (h : Contended w ops is s writers) (hs : step s i = some s') :
    ∃ writers', Contended w ops (is ++ [i]) s' writers' := by
  obtain ⟨heffect, hbusy, hothers⟩ := step_effect (consistent_run hw hrun) hs
  have hown := spent_step (h.spent i) hs
  have hcount : ∀ j, j ≠ i → (is ++ [i]).count j = is.count j := by
    intro j hj
    simp [List.count_append, Ne.symm hj]
  have hnew : i ∉ writers := fun hmem => hbusy (h.through i hmem).1
  have hold : ∀ j ∈ writers, s'.prog j = .ret () ∧ Changed w ops j (is ++ [i]) := by
    intro j hj
    have hne : j ≠ i := ne_of_mem_of_not_mem hj hnew
    exact ⟨(hothers j hne).trans (h.through j hj).1, (h.through j hj).2.append [i]⟩
  by_cases hsame : s'.world = s.world
  · refine ⟨writers, h.once, hold, fun j => ?_⟩
    rw [hsame]
    by_cases hj : j = i
    · subst hj
      exact hown
    · rw [hcount j hj, hothers j hj]
      exact h.spent j
  · have hreturned : s'.prog i = .ret () := by
      rcases heffect.lockLists with ⟨hworld, -⟩ | ⟨hreturned, -⟩
      · exact absurd hworld hsame
      · exact hreturned
    refine ⟨i :: writers, List.nodup_cons.mpr ⟨hnew, h.once⟩, ?_, fun j => ?_⟩
    · intro j hj
      rcases List.mem_cons.mp hj with rfl | hj
      · exact ⟨hreturned, .now hrun.runList_eq ⟨rfl, s', hs, hsame⟩⟩
      · exact hold j hj
    · by_cases hj : j = i
      · subst hj
        exact hown.wrote
      · rw [hcount j hj, hothers j hj]
        exact (h.spent j).wrote

theorem exists_contended (hw : w.ParamsInOrder) (h : Runs w ops is s) :
    ∃ writers, Contended w ops is s writers := by
  induction h with
  | start => exact ⟨[], contended_start⟩
  | snoc prior _ hs ih =>
    obtain ⟨writers, hcontended⟩ := ih
    exact contended_step hw prior hcontended hs

/-- No caller makes more than sixteen calls, and one that gives up has been overtaken by
eight others that are through. -/
theorem overtaken_by_eight (hw : w.ParamsInOrder) (h : Runs w ops is s) (i : ι) :
    is.count i ≤ 16 ∧ (s.prog i = .fail persistentConflict →
      ∃ others : List ι, 8 ≤ others.length ∧ others.Nodup ∧ i ∉ others ∧
        ∀ j ∈ others, s.prog j = .ret () ∧ Changed w ops j is) := by
  obtain ⟨writers, hcontended⟩ := exists_contended hw h
  have hspent := hcontended.spent i
  refine ⟨hspent.calls_le, fun hi => ?_⟩
  rw [hi] at hspent
  refine ⟨writers, hspent.lost_of_gaveUp, hcontended.once, fun hmem => ?_, hcontended.through⟩
  have hthrough := (hcontended.through i hmem).1
  rw [hi] at hthrough
  cases hthrough

/-- Eight callers at once all get through. -/
theorem eight_get_through [Fintype ι] (hcard : Fintype.card ι ≤ 8) (hw : w.ParamsInOrder)
    (h : Runs w ops is s) (i : ι) : s.prog i ≠ .fail persistentConflict := by
  intro hi
  obtain ⟨others, hlength, honce, hnot, -⟩ := (overtaken_by_eight hw h i).2 hi
  have hle : (i :: others).length ≤ Fintype.card ι :=
    (List.nodup_cons.mpr ⟨hnot, honce⟩).length_le_card
  simp only [List.length_cons] at hle
  omega

def gaveUp : M Unit → Bool
  | .fail e => e = persistentConflict
  | _ => false

theorem gaveUp_iff {p : M Unit} : gaveUp p = true ↔ p = .fail persistentConflict := by
  cases p <;> simp [gaveUp]

/-- Nine callers at once are one too many: each try of the first one is overtaken by another
caller. -/
theorem overtaken_by_eight_of_nine : ∃ is, ∃ s : Updates (Fin 9),
    Runs {} (fun i => .lock (toString i) .whenIdle) is s ∧ s.prog 0 = .fail persistentConflict ∧
      ∃ others : List (Fin 9), 8 ≤ others.length ∧ ∀ j ∈ others, s.prog j = .ret () := by
  obtain ⟨s, hrun, hs⟩ := Run.exists_of_runList (p := fun s : Updates (Fin 9) => gaveUp (s.prog 0))
    (show (runList (guarded step fun _ _ => True)
      (start {} fun i : Fin 9 => .lock (toString i) .whenIdle)
      ((List.finRange 8).flatMap fun k => [0, k.succ, k.succ, 0])).any _ = true by decide +kernel)
  have hinOrder : World.ParamsInOrder {} := by
    intro o ho
    cases ho
  have hgave := gaveUp_iff.mp hs
  obtain ⟨others, hlength, -, -, hthrough⟩ := (overtaken_by_eight hinOrder hrun 0).2 hgave
  exact ⟨_, s, hrun, hgave, others, hlength, fun j hj => (hthrough j hj).1⟩

end Runs

end ZfsEvacuation.Updates
