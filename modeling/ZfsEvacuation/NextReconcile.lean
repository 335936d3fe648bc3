import ZfsEvacuation.CallTrace
import ZfsEvacuation.IssuedCalls

/-!
# The next reconcile

What a reconcile leaves to the runtime: when it is to be run again. An error counts as an answer
too, which the error policy gives.
-/
namespace ZfsEvacuation
open ClientProgram Program

/-- When a reconcile that failed is run again. -/
def errorPolicy : Error → Action := fun _ => requeueSecs 15

/-- A reconcile as the runtime runs it. -/
def reconcileOnce (cfg : Config) (evac : Obj .evacuation) : M Action :=
  tryCatch (reconcile cfg evac) fun e => pure (errorPolicy e)

def settleSecs (evac : Obj .evacuation) : Nat :=
  (specOf evac).settleSeconds.getD defaultSettleSeconds

/-- Why there is nothing to do until the evacuation changes. -/
inductive Resting (view : Obj .evacuation) (tr : Trace) : Prop
  | ended (h : (viewStatus view).phase = .completed ∨ (viewStatus view).phase = .failed)
  | failed (st : ZFSEvacuationStatus) (h : st.phase = .failed)
      (written : patchedEvent .evacuation ⟨"", view.name⟩ (.status st) ∈ tr)
  | gone (deleting : view.deleting = true)
      (seen : sawEvent .evacuation ⟨"", view.name⟩ none ∈ tr)
  | released (deleting : view.deleting = true) (o : Obj .evacuation)
      (done : patchedEvent .evacuation ⟨"", view.name⟩
        (.finalizers (o.metadata.finalizers.filter (· ≠ evacuationFinalizer))) ∈ tr)

/-- The next reconcile comes neither at once nor late, unless there is nothing to do. -/
inductive Recurs (view : Obj .evacuation) (tr : Trace) : Action → Prop
  | again (millis : Nat) (pause : 500 ≤ millis ∨ settleSecs view = 0)
      (soon : millis ≤ 1000 * max 60 (settleSecs view)) : Recurs view tr (.requeue millis)
  | rest (h : Resting view tr) : Recurs view tr .awaitChange

section Ends
variable {view : Obj .evacuation} {tr tr' : Trace} {cfg : Config} {st : ZFSEvacuationStatus}
  {name msg : String} {secs : Nat}

theorem Resting.mono (h : Resting view tr) (hs : tr <:+ tr') : Resting view tr' := by
  cases h with
  | ended h => exact .ended h
  | failed st h written => exact .failed st h (hs.subset written)
  | gone deleting seen => exact .gone deleting (hs.subset seen)
  | released deleting o done => exact .released deleting o (hs.subset done)

theorem Recurs.mono {a : Action} (h : Recurs view tr a) (hs : tr <:+ tr') :
    Recurs view tr' a := by
  cases h with
  | again millis pause soon => exact .again millis pause soon
  | rest h => exact .rest (h.mono hs)

theorem recurs_secs (hmin : 1 ≤ secs) (hmax : secs ≤ max 60 (settleSecs view)) :
    Recurs view tr (requeueSecs secs) := by
  refine .again _ (.inl ?_) (Nat.mul_le_mul_left 1000 hmax)
  omega

/-- A fixed number of seconds. -/
theorem recurs_fixed (hmin : 1 ≤ secs) (hmax : secs ≤ 60) : Recurs view tr (requeueSecs secs) :=
  recurs_secs hmin (Nat.le_trans hmax (Nat.le_max_left _ _))

theorem concludes_requeue (hmin : 1 ≤ secs) (hmax : secs ≤ 60) :
    Concludes (Recurs view) (.ret (requeueSecs secs) : M Action) :=
  concludes_ret fun _ => recurs_fixed hmin hmax

theorem concludes_wait (hmin : 1 ≤ secs) (hmax : secs ≤ 60) :
    Concludes (Recurs view) (wait name st msg secs) := by
  unfold wait
  split_ifs
  · exact concludes_bind_of fun _ => concludes_requeue hmin hmax
  · exact concludes_requeue hmin hmax

theorem concludes_requeueMsg : Concludes (Recurs view) (requeueMsg name st msg) := by
  unfold requeueMsg
  split_ifs
  · exact concludes_bind_of fun _ => concludes_requeue (by decide) (by decide)
  · exact concludes_requeue (by decide) (by decide)

theorem concludes_beginAbort : Concludes (Recurs view) (beginAbort name st msg) :=
  concludes_bind_of fun _ => concludes_requeue (by decide) (by decide)

theorem concludes_advance {phase : Phase} : Concludes (Recurs view) (advance name st phase) := by
  refine concludes_bind_of fun _ => concludes_ret fun _ => .again 500 (.inl (Nat.le_refl 500)) ?_
  have hmax : 60 ≤ max 60 (settleSecs view) := Nat.le_max_left _ _
  omega

theorem concludes_failed (h : st.phase = .failed) :
    Concludes (Recurs view) (do writeStatus view.name st; pure .awaitChange) := by
  intro tr
  refine (follows_bind _ _).mpr (follows_writeStatus.mpr ⟨trivial, ?_⟩)
  exact .rest (.failed st h (List.mem_cons_self ..))

theorem concludes_fail : Concludes (Recurs view) (fail view.name st msg) := concludes_failed rfl

theorem concludes_released (h : view.deleting = true) :
    Concludes (Recurs view) (do removeEvacFinalizer view.name; pure .awaitChange) := by
  intro tr
  simp only [removeEvacFinalizer, bind_eq, follows_bind, follows_getOpt]
  refine ⟨trivial, fun o => ?_⟩
  cases o with
  | none => exact .rest (.gone h (List.mem_cons_self ..))
  | some o =>
    exact follows_patchObj.mpr ⟨trivial, .rest (.released h o (List.mem_cons_self ..))⟩

end Ends

/-! ## The phases -/

section Handlers
variable {view : Obj .evacuation} {cfg : Config} {st : ZFSEvacuationStatus}

theorem pending_recurs : Concludes (Recurs view) (pending cfg view st) := by
  unfold pending
  refine concludes_bind_of fun pv => ?_
  cases pv with
  | none => exact concludes_fail
  | some pv =>
    simp only
    cases evacuableHandle ((pvSpec pv).getD {}) with
    | error msg => exact concludes_fail
    | ok handle =>
      simp only
      cases boundClaim ((pvSpec pv).getD {}) with
      | error msg => exact concludes_fail
      | ok claim =>
        refine concludes_bind_of fun pvc => ?_
        rcases pvc with _ | ⟨pvcMeta, pvc⟩
        · exact concludes_fail
        simp only
        split_ifs
        · exact concludes_fail
        · exact concludes_fail
        refine concludes_bind_of fun zv => ?_
        cases zv with
        | none => exact concludes_fail
        | some zv =>
          simp only
          cases volumeRefusal zv with
          | some msg => exact concludes_fail
          | none =>
            refine concludes_bind_of fun snaps => ?_
            split
            · exact concludes_fail
            refine concludes_bind_of fun node => ?_
            cases node with
            | none => exact concludes_fail
            | some node =>
              simp only
              split_ifs
              · exact concludes_fail
              · exact concludes_advance

theorem guarding_recurs : Concludes (Recurs view) (guarding cfg view st) :=
  concludes_bind_of fun _ => concludes_bind_of fun _ => concludes_advance

theorem retaining_recurs : Concludes (Recurs view) (retaining view st) :=
  concludes_bind_of fun _ => concludes_advance

theorem locking_recurs : Concludes (Recurs view) (locking view st) :=
  concludes_bind_of fun _ => concludes_bind_of fun _ => concludes_bind_of fun _ =>
    concludes_bind_of fun _ => concludes_advance

theorem propagationLeft_le (now : Nat) (lockedAt : Option Nat) : propagationLeft now lockedAt ≤ 5 := by
  unfold propagationLeft lockPropagationSeconds
  split <;> omega

theorem quiescing_recurs : Concludes (Recurs view) (quiescing cfg view st) := by
  refine concludes_bind_of fun r => concludes_bind_of fun now => ?_
  split
  · rename_i hleft
    have hle := propagationLeft_le now st.lockedAt
    exact concludes_requeue hleft (by omega)
  refine concludes_bind_of fun pods => concludes_bind_of fun reason => ?_
  cases reason with
  | some msg => exact concludes_wait (by decide) (by decide)
  | none =>
    refine concludes_bind_of fun now' => ?_
    split
    · -- a settle period of zero is over at once
      refine concludes_bind_of fun t => concludes_bind_of fun _ => concludes_ret fun tr => ?_
      by_cases hzero : settleSecs view = 0
      · exact .again _ (.inr hzero) (Nat.mul_le_mul_left 1000 (Nat.le_max_right _ _))
      · exact recurs_secs (Nat.pos_of_ne_zero hzero) (Nat.le_max_right _ _)
    · rename_i elapsed _
      split_ifs with hlt
      · refine concludes_ret fun tr => recurs_secs (Nat.sub_pos_of_lt hlt) ?_
        exact Nat.le_trans (Nat.sub_le _ _) (Nat.le_max_right _ _)
      · exact concludes_advance

theorem recordChoice_recurs (source : SourceInfo) (pv : Obj .pv) (group : Option Group) :
    Concludes (Recurs view) (do
      let chosen : Except Error TargetInfo ← tryCatch
        (do pure (.ok (← selectTarget cfg
          (selectionInput view.name (specOf view) source pv group))))
        (fun e => pure (.error e))
      match chosen with
      | .ok t => do
        let r : Nat ← send (.random (2 ^ 128))
        advance view.name { st with
          colocation := group.map (colocationStatus (specOf view))
          target := some { t with newVolumeHandle := newDestinationHandle r } } .transferring
      | .error e => wait view.name st ("no target yet: " ++ e.text) 60 : M Action) := by
  refine concludes_bind_of fun chosen => ?_
  cases chosen with
  | error e => exact concludes_wait (by decide) (by decide)
  | ok t => exact concludes_bind_of fun _ => concludes_advance

theorem selectAndRecord_recurs (source : SourceInfo) (r : PvcRef) :
    Concludes (Recurs view) (selectAndRecord cfg view st source r) := by
  refine concludes_bind_of fun evacs => ?_
  split_ifs
  · exact concludes_wait (by decide) (by decide)
  refine concludes_bind_of fun pv => ?_
  cases pv with
  | none => exact concludes_fail
  | some pv =>
    cases (specOf view).mode with
    | whenIdle => exact recordChoice_recurs source pv none
    | whenClaimed =>
      exact concludes_bind_of fun pods => concludes_bind_of fun group =>
        recordChoice_recurs source pv group

theorem targetSelecting_recurs : Concludes (Recurs view) (targetSelecting cfg view st) :=
  concludes_bind_of fun _ => concludes_bind_of fun _ => concludes_bind_of fun _ =>
    concludes_andFinally (selectAndRecord_recurs _ _) fun _ _ _ hs h => h.mono hs

/-! ### The copy -/

theorem startAttempt_recurs (attempt : Nat) :
    Concludes (Recurs view) (startAttempt cfg view st attempt) := by
  refine concludes_bind_of fun source => concludes_bind_of fun target => ?_
  refine concludes_bind_of fun existing => ?_
  split
  · exact concludes_requeue (by decide) (by decide)
  refine concludes_bind_of fun src => concludes_bind_of fun srcNode => ?_
  refine concludes_bind_of fun dst => concludes_bind_of fun dstNode => ?_
  refine concludes_bind_of fun backupPeers => concludes_bind_of fun restorePeers => ?_
  refine concludes_bind_of fun spawned => ?_
  cases spawned with
  | error text => exact fun _ => trivial
  | ok relay =>
    refine concludes_bind_of fun _ => concludes_bind_of fun r => concludes_bind_of fun t => ?_
    refine concludes_bind_of fun _ => concludes_bind_of fun _ => ?_
    exact concludes_requeue (by decide) (by decide)

theorem retryOrFail_recurs (t : TransferStatus) (maxAttempts : Nat) (reason : String) :
    Concludes (Recurs view) (retryOrFail cfg view st t maxAttempts reason) := by
  refine concludes_bind_of fun _ => concludes_bind_of fun gone => ?_
  split_ifs
  · exact concludes_wait (by decide) (by decide)
  · exact concludes_beginAbort
  · exact startAttempt_recurs _

theorem transferring_recurs : Concludes (Recurs view) (transferring cfg view st) := by
  unfold transferring
  cases st.transfer with
  | none => exact startAttempt_recurs 1
  | some t =>
    refine concludes_bind_of fun bkp => concludes_bind_of fun rst => ?_
    refine concludes_bind_of fun mem => concludes_bind_of fun now => ?_
    simp only
    split
    · exact concludes_bind_of fun _ => concludes_advance
    · exact retryOrFail_recurs _ _ _
    · exact concludes_requeue (by decide) (by decide)
    · exact concludes_bind_of fun _ => concludes_requeue (by decide) (by decide)
    · exact concludes_wait (by decide) (by decide)
    · exact concludes_bind_of fun _ => concludes_requeue (by decide) (by decide)
    · split_ifs
      · exact concludes_bind_of fun _ => concludes_requeue (by decide) (by decide)
      · exact concludes_requeue (by decide) (by decide)

/-! ### After the copy -/

theorem adopting_recurs : Concludes (Recurs view) (adopting cfg view st) := by
  refine concludes_bind_of fun source => concludes_bind_of fun target => ?_
  refine concludes_bind_of fun zv => ?_
  cases zv with
  | none =>
    refine concludes_bind_of fun src => ?_
    rcases src with _ | ⟨m, src⟩
    · exact fun _ => trivial
    · exact concludes_bind_of fun _ => concludes_requeue (by decide) (by decide)
  | some zv =>
    simp only
    split_ifs
    · exact concludes_advance
    · exact concludes_beginAbort
    · exact concludes_wait (by decide) (by decide)

theorem committing_recurs : Concludes (Recurs view) (committing cfg view st) := by
  refine concludes_bind_of fun pvcRef => concludes_bind_of fun source => ?_
  refine concludes_bind_of fun target => concludes_bind_of fun o => concludes_bind_of fun pvc => ?_
  split_ifs
  · exact concludes_beginAbort
  refine concludes_bind_of fun pods => ?_
  simp only
  split
  · exact concludes_beginAbort
  refine concludes_bind_of fun reason => ?_
  cases reason with
  | some msg => exact concludes_wait (by decide) (by decide)
  | none =>
    refine concludes_bind_of fun old => concludes_bind_of fun oldPv => ?_
    split_ifs
    · exact concludes_fail
    cases renderNewPv oldPv pvcRef target with
    | error text => exact fun _ => trivial
    | ok newPv => exact concludes_advance

theorem swapping_recurs : Concludes (Recurs view) (swapping cfg view st) := by
  refine concludes_bind_of fun source => concludes_bind_of fun pvcRef => ?_
  refine concludes_bind_of fun pv => ?_
  cases pv with
  | none =>
    exact concludes_bind_of fun manifest => concludes_bind_of fun _ =>
      concludes_requeue (by decide) (by decide)
  | some pv =>
    simp only
    split_ifs
    · refine concludes_bind_of fun pods => concludes_bind_of fun reason => ?_
      cases reason with
      | some msg => exact concludes_wait (by decide) (by decide)
      | none =>
        exact concludes_bind_of fun _ => concludes_bind_of fun _ =>
          concludes_requeue (by decide) (by decide)
    · exact concludes_bind_of fun _ => concludes_requeue (by decide) (by decide)
    · cases st.originalReclaimPolicy with
      | none => exact concludes_advance
      | some orig => exact concludes_bind_of fun _ => concludes_advance
    · exact concludes_requeue (by decide) (by decide)

/-- Steps 5 and after: the finalizer goes once the completion is recorded. -/
theorem complete_recurs (key : Key) : Concludes (Recurs view) (do
    match ← getOpt .pv key with
    | some pv =>
      if pv.metadata.annotations.contains evacuateAnnotation then
        patchObj .pv key (.annotate evacuateAnnotation none)
    | none => pure ()
    let action ← advance view.name st .completed
    removeEvacFinalizer view.name
    pure action) := by
  have hend : Concludes (Recurs view) (do
      let action ← advance view.name st .completed
      removeEvacFinalizer view.name
      pure action) := by
    have hadvance : Concludes (Recurs view) (advance view.name st .completed) := concludes_advance
    refine concludes_bind hadvance fun tr a ha => ?_
    refine (follows_bind _ _).mpr (follows_mono (follows_suffix (concludes_true _ tr)) ?_)
    exact fun tr' _ hs => ha.mono hs.2
  refine concludes_bind_of fun pv => ?_
  cases pv with
  | none => exact hend
  | some pv =>
    simp only
    split
    · exact concludes_bind_of fun _ => hend
    · exact hend

theorem finishCleanup_recurs : Concludes (Recurs view) (finishCleanup view st) := by
  unfold finishCleanup
  cases st.pvcRef with
  | none => exact complete_recurs _
  | some r => exact concludes_bind_of fun _ => concludes_bind_of fun _ => complete_recurs _

theorem destroyBoth_recurs (source : SourceInfo) : Concludes (Recurs view) (do
    let (st, left) ← destroyTargetSnapshot cfg view.name st
    match left with
    | some msg => wait view.name st msg 5
    | none => do
      if ← destroySource cfg source then
        wait view.name st "waiting for source dataset destruction" 10
      else finishCleanup view st) := by
  refine concludes_bind_of fun left => ?_
  rcases left with ⟨st', _ | msg⟩
  · refine concludes_bind_of fun there => ?_
    split
    · exact concludes_wait (by decide) (by decide)
    · exact finishCleanup_recurs
  · exact concludes_wait (by decide) (by decide)

theorem cleaningUp_recurs : Concludes (Recurs view) (cleaningUp cfg view st) := by
  refine concludes_bind_of fun source => ?_
  cases st.transfer with
  | none => exact destroyBoth_recurs source
  | some t =>
    refine concludes_bind_of fun gone => ?_
    cases gone with
    | false => exact concludes_wait (by decide) (by decide)
    | true => exact destroyBoth_recurs source

/-! ### The abort -/

/-- If the target side has to come back, it says when. -/
theorem targetSide_recurs :
    Concludes (fun tr action => ∀ a, action = some a → Recurs view tr a)
      (Abort.targetSide cfg view.name st) := by
  have hmsg (msg : String) : Concludes (fun tr action => ∀ a, action = some a → Recurs view tr a)
      (some <$> requeueMsg view.name st msg) := by
    have hlater : Concludes (Recurs view) (requeueMsg view.name st msg) := concludes_requeueMsg
    refine concludes_bind hlater fun tr a ha b hb => ?_
    exact Option.some.inj hb ▸ ha
  have hnone : Concludes (fun tr action => ∀ a, action = some a → Recurs view tr a)
      (.ret none : M (Option Action)) := concludes_ret fun _ _ h => by cases h
  unfold Abort.targetSide
  cases st.target with
  | none => exact hnone
  | some target =>
    cases st.transfer with
    | none => exact hnone
    | some t =>
      have hcleanup : Concludes (fun tr action => ∀ a, action = some a → Recurs view tr a) (do
          if ← cleanupTransferCrs cfg view.name t.attempt st then pure none
          else some <$> requeueMsg view.name st "abort: cleaning up transfer CRs") := by
        refine concludes_bind_of fun gone => ?_
        split
        · exact hnone
        · exact hmsg _
      refine concludes_bind_of fun rst => concludes_bind_of fun zv => ?_
      cases zv with
      | some zv =>
        simp only
        split
        · exact concludes_bind_of fun _ => concludes_bind_of fun _ => hmsg _
        · exact concludes_bind_of fun _ => hmsg _
      | none =>
        simp only
        split
        · refine concludes_bind_of fun src => concludes_bind_of fun srcZv => ?_
          rcases srcZv with _ | ⟨m, srcZv⟩
          · exact hcleanup
          · exact concludes_bind_of fun _ => hmsg _
        · exact hcleanup

/-- Steps 4 to 7 and the end of an abort. -/
theorem unwind_recurs : Concludes (Recurs view) (do
    Abort.restorePolicy view st
    Abort.unlock st
    Abort.releaseSource cfg view st
    if view.deleting then do
      removeEvacFinalizer view.name
      pure .awaitChange
    else do
      writeStatus view.name { st with
        phase := .failed
        message := some (st.message.getD "evacuation aborted") }
      pure .awaitChange : M Action) := by
  refine concludes_bind_of fun _ => concludes_bind_of fun _ => concludes_bind_of fun _ => ?_
  split
  · rename_i hdeleting
    exact concludes_released hdeleting
  · exact concludes_failed rfl

theorem abortBody_recurs : Concludes (Recurs view) (do
    send (.transferRemove view.name)
    match ← Abort.targetSide cfg view.name st with
    | some action => pure action
    | none => do
      Abort.restorePolicy view st
      Abort.unlock st
      Abort.releaseSource cfg view st
      if view.deleting then do
        removeEvacFinalizer view.name
        pure .awaitChange
      else do
        writeStatus view.name { st with
          phase := .failed
          message := some (st.message.getD "evacuation aborted") }
        pure .awaitChange : M Action) := by
  refine concludes_bind_of fun _ => concludes_bind targetSide_recurs fun tr action ha => ?_
  cases action with
  | some action => exact ha action rfl
  | none => exact unwind_recurs tr

theorem abort_recurs : Concludes (Recurs view) (Abort.run cfg view st) := by
  unfold Abort.run
  simp only
  split
  · exact concludes_bind_of fun _ => abortBody_recurs
  · exact abortBody_recurs

/-! ## A reconcile -/

theorem handlePhase_recurs (hgoing : (viewStatus view).phase ≠ .completed)
    (hunfailed : (viewStatus view).phase ≠ .failed) (hstarted : (viewStatus view).phase ≠ .aborting) :
    Concludes (Recurs view) (handlePhase cfg view (viewStatus view)) := by
  unfold handlePhase
  generalize (viewStatus view).phase = p at hgoing hunfailed hstarted
  cases p with
  | pending => exact pending_recurs
  | guarding => exact guarding_recurs
  | retaining => exact retaining_recurs
  | locking => exact locking_recurs
  | quiescing => exact quiescing_recurs
  | targetSelecting => exact targetSelecting_recurs
  | transferring => exact transferring_recurs
  | adopting => exact adopting_recurs
  | committing => exact committing_recurs
  | swapping => exact swapping_recurs
  | cleaningUp => exact cleaningUp_recurs
  | completed => exact absurd rfl hgoing
  | failed => exact absurd rfl hunfailed
  | aborting => exact absurd rfl hstarted

theorem unlessCancelled_recurs (hgoing : (viewStatus view).phase ≠ .completed)
    (hunfailed : (viewStatus view).phase ≠ .failed) (hstarted : (viewStatus view).phase ≠ .aborting)
    (reason : Option String) : Concludes (Recurs view) (match reason with
      | some reason => do
        writeStatus view.name { viewStatus view with
          phase := .aborting, cancelled := true, message := some reason }
        pure (requeueSecs 1)
      | none => handlePhase cfg view (viewStatus view) : M Action) := by
  cases reason with
  | some reason => exact concludes_bind_of fun _ => concludes_requeue (by decide) (by decide)
  | none => exact handlePhase_recurs hgoing hunfailed hstarted

theorem dispatch_recurs (hgoing : (viewStatus view).phase ≠ .completed)
    (hunfailed : (viewStatus view).phase ≠ .failed) : Concludes (Recurs view) (do
    if (viewStatus view).phase = .aborting then Abort.run cfg view (viewStatus view)
    else do
      let cancel ← if !(viewStatus view).committed then cancelReason cfg view (viewStatus view)
        else pure none
      match cancel with
      | some reason => do
        writeStatus view.name { viewStatus view with
          phase := .aborting, cancelled := true, message := some reason }
        pure (requeueSecs 1)
      | none => handlePhase cfg view (viewStatus view) : M Action) := by
  split
  · exact abort_recurs
  · rename_i hstarted
    split
    · exact concludes_bind_of fun _ => unlessCancelled_recurs hgoing hunfailed hstarted _
    · exact unlessCancelled_recurs hgoing hunfailed hstarted none

theorem reconcile_recurs (cfg : Config) (view : Obj .evacuation) :
    Concludes (Recurs view) (reconcile cfg view) := by
  unfold reconcile
  simp only
  split
  · rename_i hended
    split
    · exact concludes_bind_of fun _ => concludes_ret fun _ => .rest (.ended hended)
    · exact concludes_ret fun _ => .rest (.ended hended)
  rename_i hgoing
  obtain ⟨hcompleted, hfailed⟩ := not_or.mp hgoing
  split
  · exact abort_recurs
  split
  · exact concludes_bind_of fun _ => dispatch_recurs hcompleted hfailed
  · exact dispatch_recurs hcompleted hfailed

end Handlers

/-- No evacuation is forgotten: whatever a reconcile sees and is answered, the runtime is left
with the time of the next one, between half a second and a minute or the settle period away,
unless the evacuation has ended or is given up to its deletion. -/
theorem never_forgotten (cfg : Config) (view : Obj .evacuation) :
    Follows (fun _ _ => True) (Recurs view) [] (reconcileOnce cfg view) ∧
      Raises (fun _ _ => False) [] (reconcileOnce cfg view) := by
  refine ⟨concludes_tryCatch (reconcile_recurs cfg view) (fun e => ?_) [], ?_⟩
  · exact concludes_requeue (by decide) (by decide)
  · exact raises_tryCatch fun _ _ => trivial

end ZfsEvacuation
