import ZfsEvacuation.CommitRecord
import ZfsEvacuation.AttachLockHolding

/-!
# The record of a swap

Between the deletion of the old PV and the creation of the new one the status is all that is
left of the volume. Every committed status carries the manifest of the replacement, and it is
the manifest that was rendered from the PV of the recorded identity.
-/
namespace ZfsEvacuation
open ClientProgram Program GuardedRun

/-! ## The replacement PV -/

/-- A PV of this name, for this claim and on this target, which nothing reclaims yet. -/
structure IsReplacement (n : String) (r : PvcRef) (target : TargetInfo) (pv : Obj .pv)
    (spec : PersistentVolumeSpec) : Prop where
  key : pv.key = ⟨"", n⟩
  spec_eq : pvSpec pv = some spec
  claim : ∃ ref, spec.claimRef = some ref ∧ ref.ns = some r.ns ∧ ref.name = some r.name ∧
    ref.uid = some r.uid
  handle : ∃ csi, spec.csi = some csi ∧ csi.volumeHandle = target.newVolumeHandle
  affinity : spec.nodeAffinity = some
    [{ matchExpressions := some [⟨nodeIdTopologyKey, "In", some [target.nodeId]⟩] }]
  policy : spec.persistentVolumeReclaimPolicy = some "Retain"

theorem renderNewPv_isReplacement {oldPv newPv : Obj .pv} {r : PvcRef} {target : TargetInfo}
    (h : renderNewPv oldPv r target = .ok newPv) :
    ∃ spec, IsReplacement oldPv.name r target newPv spec := by
  unfold renderNewPv at h
  split at h
  · cases h
  · rename_i spec hspec
    split at h
    · cases h
    · rename_i csi hcsi
      cases h
      exact ⟨_, rfl, rfl, ⟨_, rfl, rfl, rfl, rfl⟩, ⟨_, rfl, rfl⟩, rfl, rfl⟩

/-- The manifest in the status is that of the replacement of the recorded PV. -/
structure Replaces (n : String) (st : ZFSEvacuationStatus) (source : SourceInfo)
    (target : TargetInfo) (r : PvcRef) (oldPv newPv : Obj .pv) : Prop where
  source_eq : st.source = some source
  target_eq : st.target = some target
  claim_eq : st.pvcRef = some r
  name_eq : oldPv.name = n
  uid_eq : oldPv.metadata.uid = source.pvUid
  rendered : renderNewPv oldPv r target = .ok newPv
  manifest : st.newPvManifest = some (newPv.metadata, newPv.data)

def SwapRecorded (n : String) (st : ZFSEvacuationStatus) : Prop :=
  ∃ source target r oldPv newPv, Replaces n st source target r oldPv newPv

theorem Replaces.isReplacement {n : String} {st : ZFSEvacuationStatus} {source : SourceInfo}
    {target : TargetInfo} {r : PvcRef} {oldPv newPv : Obj .pv}
    (h : Replaces n st source target r oldPv newPv) :
    ∃ spec, IsReplacement n r target newPv spec := by
  rw [← h.name_eq]
  exact renderNewPv_isReplacement h.rendered

theorem SwapRecorded.congr {n : String} {st st' : ZFSEvacuationStatus} (h : SwapRecorded n st)
    (hs : st'.source = st.source) (ht : st'.target = st.target) (hr : st'.pvcRef = st.pvcRef)
    (hm : st'.newPvManifest = st.newPvManifest) : SwapRecorded n st' := by
  obtain ⟨source, target, r, oldPv, newPv, hrec⟩ := h
  exact ⟨source, target, r, oldPv, newPv, hs.trans hrec.source_eq, ht.trans hrec.target_eq,
    hr.trans hrec.claim_eq, hrec.name_eq, hrec.uid_eq, hrec.rendered, hm.trans hrec.manifest⟩

theorem SwapRecorded.of_core {n : String} {st st' : ZFSEvacuationStatus} (h : SwapRecorded n st)
    (hcore : st'.core = st.core) : SwapRecorded n st' := by
  have hs := congrArg ZFSEvacuationStatus.source hcore
  have ht := congrArg ZFSEvacuationStatus.target hcore
  have hr := congrArg ZFSEvacuationStatus.pvcRef hcore
  have hm := congrArg ZFSEvacuationStatus.newPvManifest hcore
  exact h.congr hs ht hr hm

section Writes
variable {cfg : Config} {view : Obj .evacuation} {tr : Trace} {st w : ZFSEvacuationStatus}

/-- A phase behind the commit is entered from one behind it, which keeps the record, or by the
commit itself. -/
theorem Writes.swapRecorded {n : String} (h : Writes cfg view tr st w)
    (hst : st.phase.committed = true → SwapRecorded n st)
    (hseen : ∀ pv, sawEvent .pv (pvKey view) (some pv) ∈ tr → pv.name = n)
    (hw : w.phase.committed = true) : SwapRecorded n w := by
  cases h with
  | committed source target r oldPv newPv _ _ hs ht hr seen huid hnew _ _ _ =>
    exact ⟨source, target, r, oldPv, newPv, hs, ht, hr, hseen oldPv seen, huid, hnew, rfl⟩
  | gaveUp _ _ => cases hw
  | shown _ _ _ =>
    have hold := hst hw
    exact hold.congr rfl rfl rfl rfl
  | swapped _ _ _ hp _ _ _ _ _ _ =>
    have hold := hst (by rw [hp]; rfl)
    exact hold.congr rfl rfl rfl rfl
  | snapDeleteIssued hp =>
    have hold := hst hw
    exact hold.congr rfl rfl rfl rfl
  | completed hp _ =>
    have hold := hst (by rw [hp]; rfl)
    exact hold.congr rfl rfl rfl rfl
  | settles _ hp | attempted _ _ _ _ _ hp _ _ _ _ | attemptFailing _ _ hp | progressed _ _ hp _
  | blocked _ hp =>
    have hphase : st.phase.committed = true := hw
    rw [hp] at hphase
    cases hphase
  | _ => cases hw

end Writes

/-! ## The record over a run -/

namespace System
variable {cfg : Config} {s s' : System} {a : SysAction} {n : String}

/-- Every evacuation is named after its PV. -/
def Named (s : System) : Prop := ∀ v ∈ s.world.versions, (specOf v).pvName = v.name

theorem named_step (hg : Grounded cfg s) (hx : Named s) (hl : KeepsEvacs s a)
    (h : step cfg s a = some s') : Named s' := by
  intro v hv
  rcases new_version hg hl h hv with hold | hstored
  · exact hx v hold
  · rcases evac_step hg.contracted hl h hstored with ⟨e, he, rfl | hstep⟩ | ⟨-, o, rfl, rfl, -⟩
    · exact hx v (hg.recorded.stored _ v he)
    · rw [hstep.same.pvName, hx e (hg.recorded.stored _ e he), (evac_key_name he).2]
    · have hnamed : (specOf o).pvName = o.name := hl.2.2
      exact hnamed

/-- Every status behind the commit that is or was stored, or is known to a reconcile, carries
the record of the swap. -/
structure AllRecorded (s : System) : Prop where
  versions : ∀ v ∈ s.world.versions, (viewStatus v).phase.committed = true →
    SwapRecorded v.name (viewStatus v)
  known : ∀ n r st, s.running.get n = some r → Knows r.view r.trace st →
    st.phase.committed = true → SwapRecorded n st

/-- What the record over a run rests on. -/
structure SwapBase (cfg : Config) (s : System) : Prop where
  grounded : Grounded cfg s
  named : Named s
  versioned : Versioned s

/-- The PV that a reconcile works on has the name of the evacuation. -/
theorem SwapBase.pvKey_eq (hb : SwapBase cfg s) {r : Running} (hr : s.running.get n = some r) :
    pvKey r.view = ⟨"", n⟩ := by
  have hview := hb.named r.view (hb.grounded.recorded.views n r hr)
  have hname := name_of_running hr
  rw [pvKey, hview, hname]

theorem SwapBase.seen_name (hb : SwapBase cfg s) {r : Running} (hr : s.running.get n = some r)
    {pv : Obj .pv} (hseen : sawEvent .pv (pvKey r.view) (some pv) ∈ r.trace) : pv.name = n := by
  have hkey := (hb.versioned.seen n r .pv _ pv hr hseen).key_eq
  rw [hb.pvKey_eq hr] at hkey
  exact congrArg Key.name hkey

theorem allRecorded_step (hb : SwapBase cfg s) (hx : AllRecorded s) (hl : KeepsEvacs s a)
    (h : step cfg s a = some s') : AllRecorded s' := by
  have hevery : EveryStatus (fun n st => st.phase.committed = true → SwapRecorded n st) s :=
    ⟨hx.versions, hx.known⟩
  have hnext := hevery.step hb.grounded hl h (fun _ _ hst => hst)
    (fun _ _ _ hcore hst hc => (hst (by rwa [← phase_congr hcore])).of_core hcore)
    (fun _ hc => by cases hc)
    fun n o r st w next _ hr _ hk hw => hw.swapRecorded (hx.known n r st hr hk)
      fun pv hseen => hb.seen_name hr hseen
  exact ⟨hnext.versions, hnext.known⟩

variable {guard : System → SysAction → Prop} {as : List SysAction}

theorem swapBase_run (hguard : ∀ s a, guard s a → KeepsEvacs s a)
    (h : Run (step cfg) guard init as s) : SwapBase cfg s := by
  have hgrounded : ∀ {as s}, Run (step cfg) guard init as s → Grounded cfg s :=
    fun hrun => grounded_run hguard hrun
  have hinit : Named init := by
    intro v hv
    cases hv
  refine ⟨hgrounded h, h.invariant_over hgrounded hinit fun s a _ hb hx hg hs =>
    named_step hb hx (hguard s a hg) hs, ?_⟩
  exact h.invariant versioned_init fun _ _ _ hx _ hs => versioned_step hx hs

theorem allRecorded_run (hguard : ∀ s a, guard s a → KeepsEvacs s a)
    (h : Run (step cfg) guard init as s) : AllRecorded s := by
  have hbase : ∀ {as s}, Run (step cfg) guard init as s → SwapBase cfg s :=
    fun hrun => swapBase_run hguard hrun
  have hevery := everyStatus_init fun n st => st.phase.committed = true → SwapRecorded n st
  have hinit : AllRecorded init := ⟨hevery.versions, hevery.known⟩
  exact h.invariant_over hbase hinit fun s a _ hb hx hg hs =>
    allRecorded_step hb hx (hguard s a hg) hs

end System

end ZfsEvacuation
