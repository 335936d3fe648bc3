import Mathlib.Algebra.Order.Ring.Nat
import Mathlib.Algebra.Order.BigOperators.Group.List
import ZfsEvacuation.GuardedRun

/-!
# Amortised runs

A potential pays for the steps of a run. Where every step costs something, no run is longer than
the potential and what the run brings in allow, and what is not at its end comes to it.
-/
namespace ZfsEvacuation.GuardedRun

variable {σ α : Type} {step : σ → α → Option σ} {guard : σ → α → Prop} {init s : σ}
  {potential : σ → Nat} {cost income : α → Nat}

/-- All steps together cost no more than was there and came in. -/
theorem Run.amortized (hpays : ∀ s a s', guard s a → step s a = some s' →
      cost a + potential s' ≤ potential s + income a) {as : List α}
    (h : Run step guard init as s) :
    (as.map cost).sum + potential s ≤ potential init + (as.map income).sum := by
  induction h with
  | start => simp
  | snoc _ hg hs ih =>
    have hstep := hpays _ _ _ hg hs
    simp only [List.map_append, List.map_cons, List.map_nil, List.sum_append, List.sum_cons,
      List.sum_nil]
    omega

/-- Where something can be done that lowers the potential, the end is reached. -/
theorem Run.reaches {inv final : σ → Prop}
    (hinv : ∀ s a s', inv s → guard s a → step s a = some s' → inv s')
    (hgo : ∀ s, inv s → final s ∨
      ∃ a s', guard s a ∧ step s a = some s' ∧ potential s' < potential s)
    (hs : inv s) : ∃ as t, Run step guard s as t ∧ inv t ∧ final t := by
  have hbound : ∀ n s, potential s ≤ n → inv s →
      ∃ as t, Run step guard s as t ∧ inv t ∧ final t := by
    intro n
    induction n with
    | zero =>
      intro s hle hs
      rcases hgo s hs with hfinal | ⟨a, s', -, -, hlt⟩
      · exact ⟨[], s, .start, hs, hfinal⟩
      · omega
    | succ n ih =>
      intro s hle hs
      rcases hgo s hs with hfinal | ⟨a, s', hg, hstep, hlt⟩
      · exact ⟨[], s, .start, hs, hfinal⟩
      · obtain ⟨as, t, hrun, ht, hfinal⟩ := ih s' (by omega) (hinv s a s' hs hg hstep)
        have hfirst : Run step guard s [a] s' := Run.start.snoc hg hstep
        exact ⟨[a] ++ as, t, hfirst.append hrun, ht, hfinal⟩
  exact hbound _ s (Nat.le_refl _) hs

end ZfsEvacuation.GuardedRun
