import ZfsEvacuation.GuardedRun
import Mathlib.Data.List.Basic

/-!
# Linearization points

Many calls work on one cell at the same time. The concurrent run is explained by a list of
points, one step of the run for each call that counts, when the cell has at every moment the
value that the operations of the points so far give it, one after the other.
-/
namespace ZfsEvacuation.Linearization
open GuardedRun

variable {σ α ι κ : Type}

/-- The step of a run at which the operation of a call takes effect. -/
structure Point (ι : Type) where
  time : Nat
  call : ι
  deriving DecidableEq, Repr

/-- The points among the first `t` steps. -/
def before (points : List (Point ι)) (t : Nat) : List (Point ι) :=
  points.filter fun p => p.time < t

/-- The operations of the points, one after the other. -/
def replay (apply : ι → κ → κ) (points : List (Point ι)) (v : κ) : κ :=
  points.foldl (fun v p => apply p.call v) v

structure Linearizes (step : σ → α → Option σ) (init : σ) (read : σ → κ) (apply : ι → κ → κ)
    (as : List α) (points : List (Point ι)) : Prop where
  increasing : points.Pairwise fun p q => p.time < q.time
  past : ∀ p ∈ points, p.time < as.length
  value : ∀ bs cs s, as = bs ++ cs → runList step init bs = some s →
    read s = replay apply (before points bs.length) (read init)

variable {step : σ → α → Option σ} {init s s' : σ} {read : σ → κ} {apply : ι → κ → κ}
  {as bs cs : List α} {a : α} {points : List (Point ι)}

theorem before_of_past {t : Nat} (h : ∀ p ∈ points, p.time < t) : before points t = points := by
  rw [before, List.filter_eq_self]
  intro p hp
  simpa using h p hp

theorem before_append (points : List (Point ι)) (p : Point ι) (t : Nat) :
    before (points ++ [p]) t = before points t ++ if p.time < t then [p] else [] := by
  by_cases h : p.time < t <;> simp [before, h]

theorem replay_keeps {good : κ → Prop} {v : κ}
    (h : ∀ p ∈ points, ∀ v, good v → good (apply p.call v)) (hv : good v) :
    good (replay apply points v) := by
  induction points generalizing v with
  | nil => exact hv
  | cons p points ih =>
    exact ih (fun q hq => h q (List.mem_cons_of_mem _ hq)) (h p List.mem_cons_self v hv)

namespace Linearizes

theorem nil : Linearizes step init read apply [] [] where
  increasing := List.Pairwise.nil
  past := by simp
  value := by
    intro bs cs s has hs
    obtain ⟨rfl, rfl⟩ := List.append_eq_nil_iff.mp has.symm
    obtain rfl := Option.some.inj hs
    rfl

/-- The prefixes of a longer run. -/
theorem prefix_cases (h : as ++ [a] = bs ++ cs) :
    (∃ ds, as = bs ++ ds) ∨ bs = as ++ [a] := by
  rcases List.eq_nil_or_concat cs with rfl | ⟨ds, c, rfl⟩
  · simp only [List.append_nil] at h
    exact .inr h.symm
  · have hsplit : as ++ [a] = (bs ++ ds) ++ [c] := by simpa using h
    exact .inl ⟨ds, (List.append_inj' hsplit rfl).1⟩

/-- The value at the end of the run. -/
theorem value_end (h : Linearizes step init read apply as points)
    (hs : runList step init as = some s) : read s = replay apply points (read init) := by
  have hvalue := h.value as [] s (List.append_nil as).symm hs
  rwa [before_of_past h.past] at hvalue

theorem past_snoc (h : Linearizes step init read apply as points) :
    ∀ p ∈ points, p.time < (as ++ [a]).length := by
  intro p hp
  have hlt := h.past p hp
  simp only [List.length_append, List.length_singleton]
  omega

theorem before_snoc (h : Linearizes step init read apply as points) :
    before points (as ++ [a]).length = points :=
  before_of_past h.past_snoc

/-- A step that leaves the cell as it is. -/
theorem idle (h : Linearizes step init read apply as points)
    (hs : runList step init as = some s) (hnext : step s a = some s') (hread : read s' = read s) :
    Linearizes step init read apply (as ++ [a]) points where
  increasing := h.increasing
  past := h.past_snoc
  value := by
    intro bs cs t has ht
    rcases prefix_cases has with ⟨ds, rfl⟩ | rfl
    · exact h.value bs ds t rfl ht
    · rw [runList_append, hs] at ht
      obtain rfl : s' = t := by simpa [runList, hnext] using ht
      rw [hread, h.before_snoc]
      exact h.value_end hs

/-- A step at which the operation of a call takes effect. -/
theorem effect {i : ι} (h : Linearizes step init read apply as points)
    (hs : runList step init as = some s) (hnext : step s a = some s')
    (hread : read s' = apply i (read s)) :
    Linearizes step init read apply (as ++ [a]) (points ++ [⟨as.length, i⟩]) where
  increasing := by
    rw [List.pairwise_append]
    refine ⟨h.increasing, List.pairwise_singleton _ _, ?_⟩
    intro p hp q hq
    obtain rfl := List.mem_singleton.mp hq
    exact h.past p hp
  past := by
    intro p hp
    rcases List.mem_append.mp hp with hold | hnew
    · exact h.past_snoc p hold
    · obtain rfl := List.mem_singleton.mp hnew
      simp
  value := by
    intro bs cs t has ht
    rw [before_append]
    rcases prefix_cases has with ⟨ds, rfl⟩ | rfl
    · have hlater : ¬ (⟨(bs ++ ds).length, i⟩ : Point ι).time < bs.length := by
        simp only [List.length_append]
        omega
      rw [if_neg hlater, List.append_nil]
      exact h.value bs ds t rfl ht
    · rw [runList_append, hs] at ht
      obtain rfl : s' = t := by simpa [runList, hnext] using ht
      rw [hread, h.before_snoc, h.value_end hs]
      simp [replay]

/-- What every operation preserves holds of the cell at every moment. -/
theorem invariant {good : κ → Prop} (h : Linearizes step init read apply as points)
    (hinit : good (read init)) (happly : ∀ i v, good v → good (apply i v))
    (has : as = bs ++ cs) (hs : runList step init bs = some s) : good (read s) := by
  rw [h.value bs cs s has hs]
  exact replay_keeps (fun p _ => happly p.call) hinit

/-- What one operation establishes stays until an operation that does not preserve it. -/
theorem since {good : κ → Prop} {p : Point ι} (h : Linearizes step init read apply as points)
    (hp : p ∈ points) (hset : ∀ v, good (apply p.call v)) (has : as = bs ++ cs)
    (hlt : p.time < bs.length)
    (hkeep : ∀ q ∈ points, p.time < q.time → q.time < bs.length → ∀ v, good v →
      good (apply q.call v))
    (hs : runList step init bs = some s) : good (read s) := by
  rw [h.value bs cs s has hs]
  obtain ⟨l, l', rfl⟩ := List.append_of_mem hp
  have hafter : ∀ q ∈ l', p.time < q.time :=
    (List.pairwise_cons.mp (List.pairwise_append.mp h.increasing).2.1).1
  have hsplit : before (l ++ p :: l') bs.length = before l bs.length ++ p :: before l' bs.length := by
    simp [before, hlt]
  rw [hsplit, replay, List.foldl_append, List.foldl_cons]
  apply replay_keeps _ (hset _)
  intro q hq
  obtain ⟨hmem, htime⟩ := List.mem_filter.mp hq
  exact hkeep q (by simp [hmem]) (hafter q hmem) (by simpa using htime)

end Linearizes

end ZfsEvacuation.Linearization
