import ZfsEvacuation.TransferPhase

/-!
# The two clocks of an attempt

An attempt that no agent and no restart has ended is bounded by time alone: the attempt
timeout while nothing reaches the target, the stall limit once something does. The verdict
looks at the stall limit only after it has asked for the ZFSRestore.
-/
namespace ZfsEvacuation

def TransferVerdict.fails : TransferVerdict → Bool
  | .failAttempt _ => true
  | _ => false

/-- The relay belongs to the recorded attempt, and nothing but time can end it. -/
structure TransferObs.LeftToClocks (o : TransferObs) (m : RelayObs) : Prop where
  relay : o.mem = some m
  sameAttempt : m.attempt = o.attempt
  noReason : o.failureReason = none
  backupAlive : agentFailed o.bkpStatus = false
  restoreAlive : agentFailed o.rstStatus = false
  notBothDone : ¬ (o.bkpStatus = bkpStatusDone ∧ o.rstStatus = bkpStatusDone)

def TransferObs.timedOut (o : TransferObs) : Bool := o.timeoutSecs < o.elapsedSecs

/-- The relay has not moved for longer than the stall limit. -/
def TransferObs.stalled (o : TransferObs) (m : RelayObs) : Bool :=
  o.stallSecs < o.nowSecs - m.lastActivity

/-- The clock that bounds the attempt in its present state has run out. -/
def TransferObs.Overdue (o : TransferObs) (m : RelayObs) : Prop :=
  (m.flowing = false ∧ o.timedOut) ∨ (m.flowing = true ∧ o.stalled m)

variable {o : TransferObs} {m : RelayObs}

/-- What is left of the verdict when only time can end the attempt. -/
theorem TransferObs.LeftToClocks.verdict (h : o.LeftToClocks m) :
    transferVerdict o =
      if !m.flowing && o.timedOut then .failAttempt "transfer timed out"
      else if !o.rstExists then if m.sourceConnected then .createRestore else .waitingForSource
      else if m.flowing && o.stalled m then .failAttempt "transfer stalled (no bytes)"
      else .continue m.bytes := by
  have hnew : ¬ o.attempt < m.attempt := by
    have := h.sameAttempt
    omega
  have hold : ¬ m.attempt < o.attempt := by
    have := h.sameAttempt
    omega
  rw [transferVerdict, if_neg h.notBothDone, h.noReason]
  simp only [h.backupAlive, h.restoreAlive, Bool.false_eq_true, if_false, h.relay, hnew, hold]
  rfl

/-- Nothing reaches the target: the attempt timeout alone decides, restore or not. -/
theorem TransferObs.LeftToClocks.idle (h : o.LeftToClocks m) (hflow : m.flowing = false) :
    (transferVerdict o).fails = o.timedOut := by
  rw [h.verdict, hflow]
  cases o.timedOut <;> cases o.rstExists <;> cases m.sourceConnected <;> rfl

/-- Bytes reach the target of an existing restore: the stall limit alone decides. -/
theorem TransferObs.LeftToClocks.moving (h : o.LeftToClocks m) (hflow : m.flowing = true)
    (hrst : o.rstExists = true) : (transferVerdict o).fails = o.stalled m := by
  rw [h.verdict, hflow, hrst]
  cases o.stalled m <;> rfl

/-- Bytes have reached the target, but the ZFSRestore is gone: no clock is looked at. -/
theorem TransferObs.LeftToClocks.restoreMissing (h : o.LeftToClocks m)
    (hflow : m.flowing = true) (hrst : o.rstExists = false) :
    transferVerdict o = if m.sourceConnected then .createRestore else .waitingForSource := by
  rw [h.verdict, hflow, hrst]
  rfl

/-- A stream that still delivers bytes is never ended by a clock. -/
theorem TransferObs.LeftToClocks.spared (h : o.LeftToClocks m) (hflow : m.flowing = true)
    (hmoves : o.stalled m = false) : (transferVerdict o).fails = false := by
  cases hrst : o.rstExists with
  | true => rw [h.moving hflow hrst, hmoves]
  | false =>
    rw [h.restoreMissing hflow hrst]
    cases m.sourceConnected <;> rfl

/-- The verdict and the clocks agree exactly on the attempts other than a stalled stream
whose ZFSRestore has been deleted. -/
theorem clocks_decide_iff (h : o.LeftToClocks m) :
    ((transferVerdict o).fails = true ↔ o.Overdue m) ↔
      (m.flowing = false ∨ o.rstExists = true ∨ o.stalled m = false) := by
  cases hflow : m.flowing with
  | false =>
    have hidle := h.idle hflow
    simp [TransferObs.Overdue, hflow, hidle]
  | true =>
    have hover : o.Overdue m ↔ o.stalled m = true := by simp [TransferObs.Overdue, hflow]
    cases hrst : o.rstExists with
    | true =>
      have hmoving := h.moving hflow hrst
      simp [hover, hmoving]
    | false =>
      have hmissing : (transferVerdict o).fails = false := by
        rw [h.restoreMissing hflow hrst]
        cases m.sourceConnected <;> rfl
      rw [hover, hmissing]
      cases o.stalled m <;> decide

/-- A mebibyte has reached the target, the last byte of it 121 seconds ago; an hour and
ten minutes have passed, and the ZFSRestore has been deleted. -/
def deletedRestore : TransferObs where
  attempt := 1
  failureReason := none
  bkpStatus := ""
  rstStatus := ""
  rstExists := false
  mem := some
    { attempt := 1, bytes := 2 ^ 20, lastActivity := 990, taskFinished := false
      sourceConnected := true }
  elapsedSecs := 4200
  nowSecs := 1111
  timeoutSecs := 3600
  stallSecs := 120

theorem not_clocks_decide :
    ∃ m, deletedRestore.LeftToClocks m ∧ deletedRestore.Overdue m ∧ deletedRestore.timedOut ∧
      transferVerdict deletedRestore = .createRestore := by
  refine ⟨_, ⟨rfl, rfl, rfl, ?_, ?_, ?_⟩, ?_, ?_, ?_⟩
  · decide
  · decide
  · decide
  · exact Or.inr ⟨by decide, by decide⟩
  · decide
  · decide

/-- With its ZFSRestore in place the same stream is failed. -/
theorem clocks_decide_restored :
    (transferVerdict { deletedRestore with rstExists := true }).fails = true ∧
      { deletedRestore with rstExists := true }.Overdue
        { attempt := 1, bytes := 2 ^ 20, lastActivity := 990, taskFinished := false
          sourceConnected := true } := by
  have hiff := (clocks_decide_iff (o := { deletedRestore with rstExists := true })
    ⟨rfl, rfl, rfl, by decide, by decide, by decide⟩).mpr (.inr (.inl rfl))
  have hfails : (transferVerdict { deletedRestore with rstExists := true }).fails = true := by
    decide
  exact ⟨hfails, hiff.mp hfails⟩

end ZfsEvacuation
