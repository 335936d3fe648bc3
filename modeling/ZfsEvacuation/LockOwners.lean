import ZfsEvacuation.FailedUnwound
import ZfsEvacuation.Footprint

/-!
# Every lock has an owner

A key in the lock parameters is there for an evacuation that is stored, has the controller's
finalizer and has not come to its end. The end is only recorded by a reconcile that has seen the
key unlocked, and after that only another evacuation puts the key back.
-/
namespace ZfsEvacuation
open ClientProgram Program GuardedRun

/-! ## What a completion comes after -/

section Completing
variable {α : Type} {cfg : Config} {view : Obj .evacuation} {st : ZFSEvacuationStatus} {tr : Trace}

/-- The claim of the evacuation was seen or left unlocked. -/
def ClaimUnlocked (view : Obj .evacuation) (tr : Trace) : Prop :=
  ∀ r, (viewStatus view).pvcRef = some r → UnlockSeen tr r.lockKey

/-- Only a cleanup records a completion, and it has unlocked the claim before. -/
def UnlocksFirst (view : Obj .evacuation) (tr : Trace) (c : Call) : Prop :=
  ∀ w, statusWrite c = some w → w.phase = .completed →
    (viewStatus view).phase = .cleaningUp ∧ ClaimUnlocked view tr

theorem ClaimUnlocked.cons (h : ClaimUnlocked view tr) (e : Event kubeInterface) :
    ClaimUnlocked view (e :: tr) :=
  fun r hr => (h r hr).mono (List.subset_cons_self e tr)

theorem unlocksFirst_of_footprint {writes : ZFSEvacuationStatus → Prop} {c : Call}
    (h : Footprint cfg writes c) (hw : ∀ w, writes w → w.phase = .completed →
      (viewStatus view).phase = .cleaningUp ∧ ClaimUnlocked view tr) : UnlocksFirst view tr c := by
  intro w hwrite hphase
  obtain ⟨key, rfl⟩ := statusWrite_some hwrite
  cases h with
  | patchStatus _ _ h => exact hw w h hphase
  | inside _ hremote => cases hremote

/-- A part of the reconcile that completes nothing. -/
theorem follows_before (cfg : Config) {ret : α → Prop} {post : Trace → α → Prop} {p : M α}
    (h : Issues (Footprint cfg fun w => w.phase ≠ .completed) p) (hret : Returns ret p)
    (hpost : ∀ tr a, ret a → post tr a) : Follows (UnlocksFirst view) post tr p :=
  h.follows (fun _ => True) hret (fun _ _ _ => trivial)
    (fun _ _ _ hc => unlocksFirst_of_footprint hc fun _ hw hphase => absurd hphase hw)
    (fun tr a _ => hpost tr a) trivial

/-- After the unlock the completion may be recorded. -/
theorem follows_after (cfg : Config) {p : M α} (hphase : (viewStatus view).phase = .cleaningUp)
    (h : Issues (Footprint cfg fun _ => True) p) (htr : ClaimUnlocked view tr) :
    Follows (UnlocksFirst view) (fun _ _ => True) tr p :=
  h.follows (ClaimUnlocked view) (returns_true p) (fun _ e h => h.cons e)
    (fun _ _ hseen hc => unlocksFirst_of_footprint hc fun _ _ _ => ⟨hphase, hseen⟩)
    (fun _ _ _ _ => trivial) htr

theorem lets_before {p : Phase} (h : p ≠ .completed) : Lets (fun w => w.phase ≠ .completed) p :=
  fun _ hw hcon => h (hw.symm.trans hcon)

theorem unlocksFirst_of_none {c : Call} (h : statusWrite c = none) : UnlocksFirst view tr c := by
  intro w hw
  rw [h] at hw
  cases hw

theorem finishCleanup_unlocks (cfg : Config) (hphase : (viewStatus view).phase = .cleaningUp)
    (hst : st.pvcRef = (viewStatus view).pvcRef) :
    Follows (UnlocksFirst view) (fun _ _ => True) tr (finishCleanup view st) := by
  have hlets : Lets (fun _ => True) .completed := fun _ _ => trivial
  unfold finishCleanup
  cases hr : st.pvcRef with
  | none =>
    refine follows_after cfg hphase (complete_footprint hlets _) fun r href => ?_
    rw [← hst, hr] at href
    cases href
  | some r =>
    have hreads : ReadsAllowed (UnlocksFirst view) :=
      ⟨fun _ _ _ => unlocksFirst_of_none rfl, fun _ _ _ => unlocksFirst_of_none rfl⟩
    refine (follows_bind (unlockKey r.lockKey) _).mpr ?_
    refine follows_updateParams hreads (fun _ _ => unlocksFirst_of_none rfl)
      (fun _ _ _ _ _ => unlocksFirst_of_none rfl) fun tr' _ hset => ?_
    refine follows_after cfg hphase (issues_bind (unlabelPvc_footprint r)
      fun _ => complete_footprint hlets _) fun r' href => ?_
    rw [← hst, hr] at href
    obtain rfl := Option.some.inj href
    exact unlockSeen_of_paramsSet hset

theorem destroyBoth_unlocks (hphase : (viewStatus view).phase = .cleaningUp)
    (source : SourceInfo) : Follows (UnlocksFirst view) (fun _ _ => True) tr (do
    let (st, left) ← destroyTargetSnapshot cfg view.name (viewStatus view)
    match left with
    | some msg => wait view.name st msg 5
    | none => do
      if ← destroySource cfg source then
        wait view.name st "waiting for source dataset destruction" 10
      else finishCleanup view st) := by
  have hst : Lets (fun w => w.phase ≠ .completed) (viewStatus view).phase :=
    lets_before (by rw [hphase]; decide)
  refine (follows_bind (destroyTargetSnapshot cfg view.name (viewStatus view)) _).mpr ?_
  refine follows_before cfg (destroyTargetSnapshot_footprint hst) destroyTargetSnapshot_returns
    fun tr' left hleft => ?_
  rcases left with ⟨st', _ | msg⟩
  · refine (follows_bind (destroySource cfg source) _).mpr ?_
    refine follows_before cfg (destroySource_footprint source) (returns_true _) fun _ there _ => ?_
    split
    · exact follows_before cfg (wait_footprint hst hleft.1 _ _) (returns_true _)
        fun _ _ _ => trivial
    · exact finishCleanup_unlocks cfg hphase hleft.2
  · exact follows_before cfg (wait_footprint hst hleft.1 _ _) (returns_true _)
      fun _ _ _ => trivial

theorem cleaningUp_unlocks (hphase : (viewStatus view).phase = .cleaningUp) :
    Follows (UnlocksFirst view) (fun _ _ => True) tr (cleaningUp cfg view (viewStatus view)) := by
  have hst : Lets (fun w => w.phase ≠ .completed) (viewStatus view).phase :=
    lets_before (by rw [hphase]; decide)
  unfold cleaningUp
  refine (follows_bind (orErr (viewStatus view).source "no source recorded") _).mpr ?_
  refine follows_before cfg issues_orErr (returns_true _) fun tr₁ source _ => ?_
  cases htransfer : (viewStatus view).transfer with
  | none => exact destroyBoth_unlocks hphase source
  | some t =>
    refine (follows_bind (cleanupTransferCrs cfg view.name t.attempt (viewStatus view)) _).mpr ?_
    refine follows_before cfg (cleanupTransferCrs_footprint _) (returns_true _) fun tr₂ gone _ => ?_
    cases gone with
    | false =>
      exact follows_before cfg (wait_footprint hst (by rfl) _ _) (returns_true _)
        fun _ _ _ => trivial
    | true => exact destroyBoth_unlocks hphase source

theorem unlessCancelled_unlocks (hphase : (viewStatus view).phase = .cleaningUp)
    (reason : Option String) : Follows (UnlocksFirst view) (fun _ _ => True) tr (match reason with
      | some reason => do
        writeStatus view.name { viewStatus view with
          phase := .aborting, cancelled := true, message := some reason }
        pure (requeueSecs 1)
      | none => handlePhase cfg view (viewStatus view) : M Action) := by
  have haborting : Phase.aborting ≠ .completed := by decide
  cases reason with
  | some reason =>
    exact follows_before cfg (shows rfl haborting) (returns_true _) fun _ _ _ => trivial
  | none =>
    simp only [handlePhase, hphase]
    exact cleaningUp_unlocks hphase

theorem dispatch_unlocks (hphase : (viewStatus view).phase = .cleaningUp) :
    Follows (UnlocksFirst view) (fun _ _ => True) tr (do
    if (viewStatus view).phase = .aborting then Abort.run cfg view (viewStatus view)
    else do
      let cancel ← if !(viewStatus view).committed then cancelReason cfg view (viewStatus view)
        else pure none
      match cancel with
      | some reason => do
        writeStatus view.name { viewStatus view with
          phase := .aborting, cancelled := true, message := some reason }
        pure (requeueSecs 1)
      | none => handlePhase cfg view (viewStatus view) : M Action) := by
  rw [if_neg (by rw [hphase]; decide)]
  split
  · refine (follows_bind (cancelReason cfg view (viewStatus view)) _).mpr ?_
    exact follows_before cfg cancelReason_footprint (returns_true _)
      fun _ _ _ => unlessCancelled_unlocks hphase _
  · exact unlessCancelled_unlocks hphase none

theorem reconcile_unlocks (cfg : Config) (view : Obj .evacuation) :
    Follows (UnlocksFirst view) (fun _ _ => True) [] (reconcile cfg view) := by
  by_cases hphase : (viewStatus view).phase = .cleaningUp
  · unfold reconcile
    simp only
    split
    · rename_i hover
      rw [hphase] at hover
      rcases hover with h | h <;> cases h
    split
    · exact follows_before cfg (abort_footprint (lets_before (by decide)) (lets_before (by decide)))
        (returns_true _) fun _ _ _ => trivial
    split
    · refine (follows_bind (ensureEvacFinalizer view) _).mpr ?_
      exact follows_before cfg ensureEvacFinalizer_footprint (returns_true _)
        fun _ _ _ => dispatch_unlocks hphase
    · exact dispatch_unlocks hphase
  · -- no other phase leads to Completed
    refine (reconcile_footprint cfg view).follows (fun _ => True) (returns_true _)
      (fun _ _ _ => trivial) (fun tr c _ hc => unlocksFirst_of_footprint hc ?_)
      (fun _ _ _ _ => trivial) trivial
    intro w hw hcompleted
    rw [StepsOn, hcompleted] at hw
    generalize (viewStatus view).phase = p at hw hphase
    cases p <;> simp_all [Phase.onward]

end Completing

/-! ## Owners -/

/-- The phases in which the claim of an evacuation may be locked. -/
def Phase.locks : Phase → Bool
  | .pending | .guarding | .retaining | .completed | .failed => false
  | _ => true

/-- The phases from the cleanup on, and those off the way. -/
def Phase.closing : Phase → Bool
  | .cleaningUp | .completed | .aborting | .failed => true
  | _ => false

section Writes
variable {cfg : Config} {view : Obj .evacuation} {tr : Trace} {st w : ZFSEvacuationStatus}

theorem Writes.closing (h : Writes cfg view tr st w) (hst : st.phase.closing = true) :
    w.phase.closing = true ∧ w.pvcRef = st.pvcRef := by
  cases h with
  | accepted _ _ _ hp | guarded hp | retained hp | locked _ _ hp | blocked _ hp | settles _ hp
  | quiesced _ _ hp | selected _ _ _ _ _ hp | attempted _ _ _ _ _ hp | attemptFailing _ _ hp
  | copied _ _ _ _ hp | progressed _ _ hp | adopted hp | committed _ _ _ _ _ hp =>
    rw [hp] at hst
    cases hst
  | shown | snapDeleteIssued => exact ⟨hst, rfl⟩
  | _ => exact ⟨rfl, rfl⟩

/-- A failure without an abort: the PV was not found, or another one in its place. -/
inductive FailsDirectly (tr : Trace) (st : ZFSEvacuationStatus) : Prop
  | lost (key : Key) (evacs : List (Obj .evacuation)) (rest : Trace)
      (phase : st.phase = .targetSelecting)
      (seen : tr = sawEvent .pv key none :: listedEvent .evacuation {} evacs :: rest)
  | replaced (key : Key) (source : SourceInfo) (pv : Obj .pv) (sel : Selector)
      (pods : List (Obj .pod)) (rest : Trace) (phase : st.phase = .committing)
      (recorded : st.source = some source) (seen : tr = sawEvent .pv key (some pv) :: rest)
      (listed : listedEvent .pod sel pods ∈ rest) (other : pv.metadata.uid ≠ source.pvUid)

/-- How an evacuation goes on whose claim may be locked. -/
theorem Writes.locks (h : Writes cfg view tr st w) (hst : st.phase.locks = true) :
    w.pvcRef = st.pvcRef ∧ (w.phase.locks = true ∨ w.phase = .completed ∨
      entersAbort view = true ∧ Unwound cfg view tr st ∨ FailsDirectly tr st) := by
  cases h with
  | refused _ hp | accepted _ _ _ hp | guarded hp | retained hp =>
    rw [hp] at hst
    cases hst
  | shown | blocked | settles | attempted | attemptFailing | progressed | snapDeleteIssued =>
    exact ⟨rfl, .inl hst⟩
  | completed => exact ⟨rfl, .inr (.inl rfl)⟩
  | unwound msg hp hv hd facts => exact ⟨rfl, .inr (.inr (.inl ⟨hv, facts⟩))⟩
  | pvLost msg hp evacs rest seen => exact ⟨rfl, .inr (.inr (.inr (.lost _ evacs rest hp seen)))⟩
  | pvReplaced msg source pv sel pods rest hp hs seen listed huid =>
    exact ⟨rfl, .inr (.inr (.inr (.replaced _ source pv sel pods rest hp hs seen listed huid)))⟩
  | _ => exact ⟨rfl, .inl rfl⟩

end Writes

namespace System
variable {cfg : Config} {s s' : System} {a : SysAction} {n k : String} {e : Obj .evacuation}

/-- The evacuation a key is locked for: it is stored with the controller's finalizer, it is on
its way, and its claim has this key. -/
structure Owner (s : System) (n k : String) (e : Obj .evacuation) : Prop where
  stored : s.world.get .evacuation ⟨"", n⟩ = some e
  signed : evacuationFinalizer ∈ e.metadata.finalizers
  phase : (viewStatus e).phase.locks = true
  claim : ∃ ref, (viewStatus e).pvcRef = some ref ∧ ref.lockKey = k

/-- The reconcile of an evacuation is about to end it and has seen the key unlocked. -/
def Relinquished (s : System) (n k : String) : Prop :=
  ∃ r, s.running.get n = some r ∧ UnlockSeen r.trace k ∧
    (entersAbort r.view = true ∨ (viewStatus r.view).phase = .cleaningUp)

/-- Reconciles keep to the order of unlock and completion. -/
def Unlocking (s : System) : Prop :=
  ∀ n r, s.running.get n = some r →
    Follows (UnlocksFirst r.view) (fun _ _ => True) r.trace r.prog

/-- A cleanup works on the claim it has started with. -/
def CleanupKept (s : System) : Prop :=
  ∀ n r, s.running.get n = some r → (viewStatus r.view).phase = .cleaningUp →
    r.status.phase.closing = true ∧ r.status.pvcRef = (viewStatus r.view).pvcRef

theorem unlocking_step (hx : Unlocking s) (h : step cfg s a = some s') : Unlocking s' := by
  intro n r' hr'
  cases running_step h hr' with
  | kept _ hr _ => exact hx n r' hr
  | started version _ _ _ heq =>
    rw [heq]
    exact reconcile_unlocks cfg _
  | called o r c next hr hprog _ heq =>
    have hfollows := hx n r hr
    rw [hprog] at hfollows
    rw [heq]
    exact hfollows.2 _

theorem cleanupKept_step (hc : Contracted cfg s) (hx : CleanupKept s)
    (h : step cfg s a = some s') : CleanupKept s' := by
  intro n r' hr' hphase
  cases running_step h hr' with
  | kept _ hr _ => exact hx n r' hr hphase
  | started version _ _ _ heq =>
    rw [heq] at hphase ⊢
    have hcleaning : (viewStatus r'.view).phase.closing = true := by
      rw [hphase]
      rfl
    exact ⟨hcleaning, rfl⟩
  | called o r c next hr hprog _ heq =>
    subst heq
    obtain ⟨hclosing, hclaim⟩ := hx n r hr hphase
    rw [status_of_called]
    cases hw : statusWrite c with
    | none => exact ⟨hclosing, hclaim⟩
    | some w =>
      obtain ⟨key, rfl⟩ := statusWrite_some hw
      obtain ⟨st, hk, -, hwrites⟩ := hc.allowed hr hprog
      obtain rfl : r.status = st := hk.eq
      obtain ⟨hnext, hsame⟩ := hwrites.closing hclosing
      exact ⟨hnext, hsame.trans hclaim⟩

/-- What every state of these runs keeps. -/
structure OwnerBase (cfg : Config) (s : System) : Prop where
  unwind : UnwindBase cfg s
  found : OldPvFound s
  unlocking : Unlocking s
  cleanup : CleanupKept s

/-- Whoever takes a lock has signed its evacuation and is not in its abort. -/
theorem UnwindBase.takes_lock (hb : UnwindBase cfg s) {r : Running} {ref : PvcRef}
    (hw : ParamsWriter s n r ref) (hphase : r.status.phase = .locking) :
    SignedBy r ∧ entersAbort r.view = false := by
  have hr := hw.running
  obtain ⟨c, next, hprog, hc⟩ := hw.next
  have ha := hb.swap.base.anchored
  have hst : r.status.phase.ended = false := by
    rw [hphase]
    rfl
  have hview : (viewStatus r.view).phase.ended = false := by
    by_contra hcon
    have hdead := ha.dead n r hr (by simpa using hcon) _ hw.knows
    rw [hst] at hdead
    cases hdead
  have haborting : (viewStatus r.view).phase ≠ .aborting := by
    intro hcon
    rw [hcon] at hview
    cases hview
  have hbusy : r.prog.finished = false := by
    rw [hprog]
    rfl
  cases hdel : r.view.deleting with
  | false =>
    refine ⟨?_, by simp [entersAbort, hdel, haborting]⟩
    rcases ha.fresh n r hr hdel hview with (⟨-, hstart⟩ | hfin) | hsigned
    · by_contra hnot
      have hf : evacuationFinalizer ∉ r.view.metadata.finalizers := fun hf => hnot (.inl hf)
      obtain ⟨rest, heq⟩ := reconcile_signs cfg hdel hview hf
      rw [hprog, heq] at hstart
      cases hstart
      cases hc
    · rw [hbusy] at hfin
      cases hfin
    · exact hsigned
  | true =>
    cases hcommitted : (viewStatus r.view).committed with
    | false =>
      rcases ha.doomed n r hr hdel hcommitted hview with (⟨-, hstart⟩ | hfin) | hended
      · obtain ⟨w, next', -, heq⟩ := reconcile_aborts cfg hdel hcommitted hview
        rw [hprog, heq] at hstart
        cases hstart
        cases hc
      · rw [hbusy] at hfin
        cases hfin
      · rw [hended _ hw.knows] at hst
        cases hst
    | true =>
      refine ⟨?_, by simp [entersAbort, hcommitted, haborting]⟩
      have hconsistent := hb.swap.consistent.versions _
        (hb.swap.base.swap.grounded.recorded.views n r hr)
      rw [CommitConsistent, hcommitted] at hconsistent
      exact .inl (ha.views n r hr (Phase.working_of_committed hconsistent.symm hview))

/-- Whoever takes a lock owns it, and does not give it up. -/
theorem OwnerBase.takes_lock (hx : OwnerBase cfg s) {r : Running} {ref : PvcRef}
    (hw : ParamsWriter s n r ref) (hphase : r.status.phase = .locking) :
    (∃ e, Owner s n ref.lockKey e) ∧ ¬ Relinquished s n ref.lockKey := by
  obtain ⟨hsigned, hfree⟩ := hx.unwind.takes_lock hw hphase
  constructor
  · have hended : r.status.phase.ended = false := by
      rw [hphase]
      rfl
    obtain ⟨e, he, hf⟩ := hx.unwind.swap.base.anchored.held n r _ hw.running hsigned hw.knows hended
    have hcore := (hx.unwind.params.informed.synced n r e hw.running he).status _ hw.knows
    refine ⟨e, he, hf, ?_, ref, (pvcRef_congr hcore).trans hw.claim, rfl⟩
    rw [phase_congr hcore, hphase]
    rfl
  · rintro ⟨r', hr', -, habort | hcleaning⟩
    · obtain rfl : r = r' := Option.some.inj (hw.running.symm.trans hr')
      rw [hfree] at habort
      cases habort
    · obtain rfl : r = r' := Option.some.inj (hw.running.symm.trans hr')
      have hclosing := (hx.cleanup n r hr' hcleaning).1
      rw [hphase] at hclosing
      cases hclosing

/-- A key that is unlocked in front of the reconcile is not locked after its call. -/
theorem relinquished_step (hb : UnwindBase cfg s) (h : step cfg s a = some s')
    (hrel : Relinquished s' n k) : Relinquished s n k ∨ ¬ s'.world.params.Locked k := by
  obtain ⟨r', hr', hseen, hends⟩ := hrel
  cases running_step h hr' with
  | kept _ hr _ => exact .inl ⟨r', hr, hseen, hends⟩
  | started version _ _ _ heq =>
    rw [heq] at hseen
    rcases hseen with hm | ⟨_, _, -, hm | hm | hm⟩ <;> cases hm
  | called o r c next hr hprog _ heq =>
    subst heq
    rcases unlocked_called hb h hr hprog hseen with hbefore | hunlocked
    · exact .inl ⟨r, hr, hbefore, hends⟩
    · exact .inr hunlocked

/-- The end of an evacuation is not written while it owns a lock that it has not given up. -/
theorem Owner.write (ho : Owner s n k e) (hx : OwnerBase cfg s) (hrel : ¬ Relinquished s n k)
    {r : Running} {st w : ZFSEvacuationStatus} {next : Except ApiError Unit → M Action}
    (hr : s.running.get n = some r)
    (hprog : r.prog = .call (.patch .evacuation (evacKey r.view) (.status w)) next)
    (hk : Knows r.view r.trace st) (hw : Writes cfg r.view r.trace st w)
    (hold : (viewStatus e).core = st.core) :
    w.phase.locks = true ∧ ∃ ref, w.pvcRef = some ref ∧ ref.lockKey = k := by
  obtain rfl : r.status = st := hk.eq
  obtain ⟨ref, href, hkey⟩ := ho.claim
  have hclaim : r.status.pvcRef = some ref := (pvcRef_congr hold).symm.trans href
  have hlocks : r.status.phase.locks = true := phase_congr hold ▸ ho.phase
  obtain ⟨hsame, hnext⟩ := hw.locks hlocks
  refine ⟨?_, ref, hsame.trans hclaim, hkey⟩
  rcases hnext with hnext | hcompleted | ⟨habort, facts⟩ | hfails
  · exact hnext
  · have hfollows := hx.unlocking n r hr
    rw [hprog] at hfollows
    obtain ⟨hcleaning, hseen⟩ := hfollows.1 w rfl hcompleted
    have hview := (hx.cleanup n r hr hcleaning).2
    exact absurd ⟨r, hr, hkey ▸ hseen ref (hview.symm.trans hclaim), .inr hcleaning⟩ hrel
  · exact absurd ⟨r, hr, hkey ▸ facts.lock ref hclaim, .inl habort⟩ hrel
  · cases hfails with
    | lost key evacs rest hphase seen =>
      exact absurd seen (hx.found.selecting n r key evacs rest hr hphase)
    | replaced key source pv sel pods rest hphase hs seen listed other =>
      exact absurd (hx.found.committing n r key pv sel pods rest source hr hphase hs seen listed)
        other

/-- An owner that has not given up its lock stays one. -/
theorem Owner.step (ho : Owner s n k e) (hx : OwnerBase cfg s) (hrel : ¬ Relinquished s n k)
    (hl : KeepsEvacs s a) (h : step cfg s a = some s') : ∃ e', Owner s' n k e' := by
  have hi := hx.unwind.params.informed
  rcases anchor_kept hi.contracted hl h ⟨e, ho.stored, ho.signed⟩ with
    ⟨e', he', hf⟩ | ⟨r, o, st, rfl, hr, hk, hleave⟩
  · rcases status_step hi hl h he' with ⟨e₀, he₀, hstep⟩ | ⟨hnone, -⟩
    · obtain rfl : e = e₀ := Option.some.inj (ho.stored.symm.trans he₀)
      cases hstep with
      | kept _ status _ _ =>
        have hview := viewStatus_congr status
        exact ⟨e', he', hf, hview ▸ ho.phase, hview ▸ ho.claim⟩
      | wrote r o st w next _ running prog knows writes old new _ =>
        obtain ⟨hphase, ref, href, hkey⟩ := ho.write hx hrel running prog knows writes old
        exact ⟨e', he', hf, phase_congr new ▸ hphase, ref, (pvcRef_congr new).trans href, hkey⟩
    · rw [ho.stored] at hnone
      cases hnone
  · have hcore := (hi.synced n r e hr ho.stored).status st hk
    have hlocks : st.phase.locks = true := phase_congr hcore ▸ ho.phase
    obtain ⟨ref, href, hkey⟩ := ho.claim
    cases hleave with
    | finished hp => rcases hp with hp | hp <;> rw [hp] at hlocks <;> cases hlocks
    | unwound hp hv facts =>
      have hseen := facts.lock ref ((pvcRef_congr hcore).symm.trans href)
      exact absurd ⟨r, hr, hkey ▸ hseen, .inl hv⟩ hrel

/-! ## Whole runs -/

/-- Every lock has an owner that has not given it up. -/
def AllOwned (s : System) : Prop :=
  ∀ k, s.world.params.Locked k → ∃ n e, Owner s n k e ∧ ¬ Relinquished s n k

/-- A lock that is there after a step had an owner before it. -/
theorem owner_before (hx : OwnerBase cfg s) (hall : AllOwned s) (hkeep : KeepsParams a)
    (h : step cfg s a = some s') (hk : s'.world.params.Locked k) :
    ∃ n e, Owner s n k e ∧ ¬ Relinquished s n k := by
  have hp := hx.unwind.params
  cases params_step hp.informed.contracted hp.versioned hp.alive hkeep h with
  | kept _ heq => exact hall k (heq ▸ hk)
  | wrote n o r ref hwriter hwrite =>
    generalize s'.world.params = p at hwrite hk
    cases hwrite with
    | unlock _ => exact hall k (EvacuationParamsSpec.locked_unlock.mp hk).2
    | lock hphase =>
      rcases EvacuationParamsSpec.locked_lock.mp hk with rfl | hold
      · obtain ⟨⟨e, ho⟩, hrel⟩ := hx.takes_lock hwriter hphase
        exact ⟨n, e, ho, hrel⟩
      · exact hall k hold

theorem allOwned_step (hx : OwnerBase cfg s) (hall : AllOwned s) (hg : Undisturbed s a)
    (h : step cfg s a = some s') : AllOwned s' := by
  intro k hk
  obtain ⟨n, e, ho, hrel⟩ := owner_before hx hall hg.2 h hk
  obtain ⟨e', ho'⟩ := ho.step hx hrel hg.1.1 h
  refine ⟨n, e', ho', fun hrel' => ?_⟩
  rcases relinquished_step hx.unwind h hrel' with hbefore | hunlocked
  · exact hrel hbefore
  · exact hunlocked hk

/-- Reconciles start from what is stored, only the controller writes the lock parameters, and no
evacuation fails but through its abort. -/
def OwnsLocks (s : System) (a : SysAction) : Prop := Undisturbed s a ∧ FindsOldPv s a

instance : Decidable (OwnsLocks s a) := inferInstanceAs (Decidable (_ ∧ _))

theorem ownerBase_init : OwnerBase cfg init := by
  refine ⟨⟨swapSound_run .start, paramsSound_init, ?_⟩, ?_, ?_, ?_⟩
  · constructor <;> intro n r hr <;> cases hr
  · constructor
    · intro n r key evacs rest hr
      cases hr
    · intro n r key pv sel pods rest source hr
      cases hr
  · intro n r hr
    cases hr
  · intro n r hr
    cases hr

theorem OwnerBase.step (hx : OwnerBase cfg s) (hswap : SwapSound cfg s') (hg : OwnsLocks s a)
    (h : step cfg s a = some s') : OwnerBase cfg s' where
  unwind := ⟨hswap, hx.unwind.params.step hg.1.1 hg.1.2 h,
    abortKept_step hx.unwind.contracted hx.unwind.swap.base.anchored hx.unwind.kept h⟩
  found := oldPvFound_step hx.found hg.2 h
  unlocking := unlocking_step hx.unlocking h
  cleanup := cleanupKept_step hx.unwind.contracted hx.cleanup h

theorem ownerBase_run {as : List SysAction} (h : Run (step cfg) OwnsLocks init as s) :
    OwnerBase cfg s ∧ AllOwned s := by
  have hswap : ∀ {as s}, Run (step cfg) OwnsLocks init as s → SwapSound cfg s :=
    fun hrun => swapSound_run (hrun.mono fun _ _ hg => hg.1.1)
  induction h with
  | start =>
    refine ⟨ownerBase_init, fun k hk => ?_⟩
    rcases hk with hm | hm <;> cases hm
  | snoc prior hg hs ih =>
    exact ⟨ih.1.step (hswap (prior.snoc hg hs)) hg hs, allOwned_step ih.1 ih.2 hg.1 hs⟩

/-- No lock is left behind: in every state of these runs, each locked key is that of an evacuation
that is stored with the controller's finalizer and has still to come to its end. -/
theorem locks_owned (cfg : Config) (as : List SysAction) (s : System)
    (h : Run (step cfg) OwnsLocks init as s) (k : String) (hk : s.world.params.Locked k) :
    ∃ n e, Owner s n k e := by
  obtain ⟨n, e, ho, -⟩ := (ownerBase_run h).2 k hk
  exact ⟨n, e, ho⟩

/-- An evacuation up to its lock. -/
def takenLock : List SysAction :=
  Sample.setup ++ Sample.reconcileOf "pv1" 0 7 ++ Sample.reconcileOf "pv1" 2 5 ++
    Sample.reconcileOf "pv1" 3 4 ++ Sample.reconcileOf "pv1" 4 7

theorem locks_owned_taken : ∃ s n e, Run (step Sample.config) OwnsLocks init takenLock s ∧
    s.world.params.Locked "d/c1" ∧ Owner s n "d/c1" e := by
  obtain ⟨s, hrun, hs⟩ := Run.exists_of_runList
    (p := fun s : System => decide (s.world.params.Locked "d/c1"))
    (show (runList (guarded (step Sample.config) OwnsLocks) init takenLock).any _ = true
      by decide +kernel)
  obtain ⟨n, e, ho⟩ := locks_owned _ _ s hrun "d/c1" (of_decide_eq_true hs)
  exact ⟨s, n, e, hrun, of_decide_eq_true hs, ho⟩

end System

end ZfsEvacuation
