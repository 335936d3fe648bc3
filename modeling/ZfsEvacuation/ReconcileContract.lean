import ZfsEvacuation.CallTrace

/-!
# The contract of a reconcile

What a reconcile may ask of the API server, given what it has seen: every status it
writes is one of the steps of `Writes`, and every other mutation is one that the phase of
its current status allows.
-/
namespace ZfsEvacuation
open ClientProgram Program

section Facts
variable (cfg : Config) (view : Obj .evacuation) (tr : Trace) (st : ZFSEvacuationStatus)

def pvKey : Key := ⟨"", (specOf view).pvName⟩

def evacKey : Key := ⟨"", view.name⟩

def SourceInfo.volKey (source : SourceInfo) : Key := ⟨cfg.openebsNs, source.volumeHandle⟩

def TargetInfo.volKey (target : TargetInfo) : Key := ⟨cfg.openebsNs, target.newVolumeHandle⟩

def paramsKey : Key := ⟨"", paramsName⟩

/-- The parameters were seen or left with the key in the list of the mode. -/
def LockSeen (key : String) (mode : EvacuationMode) : Prop :=
  ∃ m spec, EvacuationParamsSpec.LockedAs spec key mode ∧
    (sawEvent .params paramsKey (some ⟨m, spec⟩) ∈ tr ∨
      createdEvent .params ⟨m, spec⟩ (.ok ()) ∈ tr ∨ replacedEvent .params ⟨m, spec⟩ (.ok ()) ∈ tr)

/-- The parameters were seen or left without the key. -/
def UnlockSeen (key : String) : Prop :=
  sawEvent .params paramsKey none ∈ tr ∨
    ∃ m spec, ¬ EvacuationParamsSpec.Locked spec key ∧
      (sawEvent .params paramsKey (some ⟨m, spec⟩) ∈ tr ∨
        createdEvent .params ⟨m, spec⟩ (.ok ()) ∈ tr ∨
        replacedEvent .params ⟨m, spec⟩ (.ok ()) ∈ tr)

/-- The volume was seen or left without the guard. -/
def GuardOff (key : Key) : Prop := FinalizersSet .zfsVolume key unguard tr

/-- Both transfer resources of the recorded attempt were seen to be gone, and none was
created by this reconcile. -/
structure CrsGone : Prop where
  bkp : ∀ t, st.transfer = some t → sawEvent .zfsBackup (bkpKey cfg view.name t.attempt) none ∈ tr
  rst : ∀ t, st.transfer = some t → sawEvent .zfsRestore (rstKey cfg view.name t.attempt) none ∈ tr
  quiet : Quiet tr

/-- The attempts are numbered from one on, up to the number the spec admits. -/
def NextAttempt (attempt : Nat) : Prop :=
  match st.transfer with
  | none => attempt = 1
  | some t => attempt = t.attempt + 1 ∧ t.attempt < (specOf view).maxAttempts.getD defaultMaxAttempts

/-- The relay of this attempt was seen with the source connected. -/
def SourceConnected (attempt : Nat) : Prop :=
  ∃ t, sawTransferEvent view.name (some t) ∈ tr ∧ t.attempt = attempt ∧
    t.relay.sourceConnected = true

/-- The relay of the evacuation may be registered for the next attempt: none of it was seen
to be registered already. -/
structure MayRegister (t : ActiveTransfer) : Prop where
  own : t.evac = view.name
  phase : (viewStatus view).phase = .transferring
  first : Unregistered tr
  turn : NextAttempt view (viewStatus view) t.attempt
  behind : ∃ existing, sawTransferEvent view.name existing ∈ tr ∧
    ∀ x, existing = some x → x.attempt < t.attempt
  gone : CrsGone cfg view tr (viewStatus view)

/-- Why a reconcile drops the relay: the recorded attempt is judged already, one of its
resources exists, or the relay was seen not to be newer than the attempt. -/
inductive DropReason (t : TransferStatus) : Prop
  | judged (h : t.failureReason.isSome = true)
  | backup (bkp : Obj .zfsBackup)
      (seen : sawEvent .zfsBackup (bkpKey cfg view.name t.attempt) (some bkp) ∈ tr)
  | restore (rst : Obj .zfsRestore)
      (seen : sawEvent .zfsRestore (rstKey cfg view.name t.attempt) (some rst) ∈ tr)
  | notNewer (m : Option ActiveTransfer) (seen : sawTransferEvent view.name m ∈ tr)
      (h : ∀ x, m = some x → x.attempt ≤ t.attempt)

/-- The relay may be dropped, on the abort path or while the transfer is on. -/
def MayDrop : Prop :=
  entersAbort view = true ∨ (viewStatus view).phase = .transferring ∧ Unregistered tr ∧
    ∃ t, (viewStatus view).transfer = some t ∧ DropReason cfg view tr t

/-- The abort found the restore not done, or the source volume gone, before it deletes the
restore. -/
def MayDropRestore (t : TransferStatus) : Prop :=
  entersAbort view = true ∧
    ((∃ rst, sawEvent .zfsRestore (rstKey cfg view.name t.attempt) rst ∈ tr ∧
        restoreStatus rst ≠ bkpStatusDone) ∨
      ∃ source, st.source = some source ∧ sawEvent .zfsVolume (source.volKey cfg) none ∈ tr)

/-- The source node was seen to repel pods, or to be gone. -/
def SourceRepels : Prop :=
  ∃ source node, st.source = some source ∧ sawEvent .node ⟨"", source.node⟩ node ∈ tr ∧
    node.all (nodeRepelsPods · cfg.taintKey) = true

/-- A look at the pods of the claim, and under `whenClaimed` at the source node, found nothing
in the way. -/
structure LookedIdle (r : PvcRef) (pods : List (Obj .pod)) : Prop where
  wrote : written tr = none
  claim : st.pvcRef = some r
  listed : listedEvent .pod { ns := some r.ns } pods ∈ tr
  idle : unexpectedPods (specOf view).mode (pods.filter (podReferencesPvc r.name)) = []
  repels : (specOf view).mode = .whenClaimed → SourceRepels cfg tr st

/-- The old PV was left with its original reclaim policy, or is not there any more. -/
def PolicyRestored : Prop :=
  ∀ source orig, st.source = some source → st.originalReclaimPolicy = some orig →
    sawEvent .pv (pvKey view) none ∈ tr ∨
      (∃ pv, sawEvent .pv (pvKey view) (some pv) ∈ tr ∧ pv.metadata.uid ≠ source.pvUid) ∨
      patchedEvent .pv (pvKey view) (.reclaimPolicy orig) ∈ tr

/-- Everything the abort path has to undo is undone. -/
structure Unwound : Prop where
  crs : st.target.isSome → CrsGone cfg view tr st
  quiet : Quiet tr
  policy : PolicyRestored view tr st
  lock : ∀ r, st.pvcRef = some r → UnlockSeen tr r.lockKey
  guard : ∀ source, st.source = some source → GuardOff tr (source.volKey cfg)

/-- What a claim of the consumer was found to contribute to the group. -/
inductive ClaimSeen (ns sourceNodeId claim : String) : Option Contribution → Prop
  | noClaim (h : sawEvent .pvc ⟨ns, claim⟩ none ∈ tr) : ClaimSeen ns sourceNodeId claim none
  | unbound (m : ObjectMeta) (pvc : PersistentVolumeClaim)
      (h : sawEvent .pvc ⟨ns, claim⟩ (some ⟨m, pvc⟩) ∈ tr) (hv : pvc.volumeName = none) :
      ClaimSeen ns sourceNodeId claim none
  | noPv (m : ObjectMeta) (pvc : PersistentVolumeClaim) (memberPv : String)
      (h : sawEvent .pvc ⟨ns, claim⟩ (some ⟨m, pvc⟩) ∈ tr) (hv : pvc.volumeName = some memberPv)
      (hpv : sawEvent .pv ⟨"", memberPv⟩ none ∈ tr) : ClaimSeen ns sourceNodeId claim none
  | notZfs (m : ObjectMeta) (pvc : PersistentVolumeClaim) (memberPv : String) (pv : Obj .pv)
      (h : sawEvent .pvc ⟨ns, claim⟩ (some ⟨m, pvc⟩) ∈ tr) (hv : pvc.volumeName = some memberPv)
      (hpv : sawEvent .pv ⟨"", memberPv⟩ (some pv) ∈ tr)
      (hcsi : ∀ csi, (pvSpec pv).bind (·.csi) = some csi → csi.driver ≠ zfsDriver) :
      ClaimSeen ns sourceNodeId claim none
  | noVolume (m : ObjectMeta) (pvc : PersistentVolumeClaim) (memberPv : String) (pv : Obj .pv)
      (csi : CsiSource) (h : sawEvent .pvc ⟨ns, claim⟩ (some ⟨m, pvc⟩) ∈ tr)
      (hv : pvc.volumeName = some memberPv) (hpv : sawEvent .pv ⟨"", memberPv⟩ (some pv) ∈ tr)
      (hcsi : (pvSpec pv).bind (·.csi) = some csi)
      (hvol : sawEvent .zfsVolume ⟨cfg.openebsNs, csi.volumeHandle⟩ none ∈ tr) :
      ClaimSeen ns sourceNodeId claim none
  | own (m : ObjectMeta) (pvc : PersistentVolumeClaim) (zv : ZFSVolume)
      (h : sawEvent .pvc ⟨ns, claim⟩ (some ⟨m, pvc⟩) ∈ tr)
      (hv : pvc.volumeName = some view.name) :
      ClaimSeen ns sourceNodeId claim (some (.member ⟨view.name, volumeCapacity zv.spec⟩))
  | sibling (m : ObjectMeta) (pvc : PersistentVolumeClaim) (memberPv : String) (pv : Obj .pv)
      (csi : CsiSource) (mv : ObjectMeta) (zv : ZFSVolume) (e : Option (Obj .evacuation))
      (h : sawEvent .pvc ⟨ns, claim⟩ (some ⟨m, pvc⟩) ∈ tr)
      (hv : pvc.volumeName = some memberPv) (hpv : sawEvent .pv ⟨"", memberPv⟩ (some pv) ∈ tr)
      (hcsi : (pvSpec pv).bind (·.csi) = some csi) (hdriver : csi.driver = zfsDriver)
      (hvol : sawEvent .zfsVolume ⟨cfg.openebsNs, csi.volumeHandle⟩ (some ⟨mv, zv⟩) ∈ tr)
      (hother : memberPv ≠ view.name) (he : ReadInSelection tr memberPv e) :
      ClaimSeen ns sourceNodeId claim (some (contributionOf memberPv sourceNodeId zv.spec e))

inductive ClaimsSeen (ns sourceNodeId : String) : List String → List Contribution → Prop
  | nil : ClaimsSeen ns sourceNodeId [] []
  | cons (claim : String) (claims : List String) (c : Option Contribution)
      (cs : List Contribution) (head : ClaimSeen cfg view tr ns sourceNodeId claim c)
      (tail : ClaimsSeen ns sourceNodeId claims cs) :
      ClaimsSeen ns sourceNodeId (claim :: claims) (c.toList ++ cs)

/-- The group that a target selection under `whenClaimed` was made with. -/
def GroupSeen (r : PvcRef) (sourceNodeId : String) (group : Option Group) : Prop :=
  ∃ pods, listedEvent .pod { ns := some r.ns } pods ∈ tr ∧
    match (unscheduledPods (pods.filter (podReferencesPvc r.name))).head? with
    | none => group = none
    | some pod => ∃ cs g, group = some g ∧
        ClaimsSeen cfg view tr r.ns sourceNodeId (podPvcNames pod) cs ∧
        g.anchor = pickAnchor (anchorsOf cs)

/-- The reads and the choice behind a recorded target. -/
structure Selection (source : SourceInfo) (r : PvcRef) (group : Option Group)
    (t : TargetInfo) : Prop where
  held : HoldsSelection tr
  group_seen : match (specOf view).mode with
    | .whenIdle => group = none
    | .whenClaimed => GroupSeen cfg view tr r source.nodeId group
  idle : ∃ l, ListedInSelection tr l ∧ sourceBusy view.name source.nodeId l = false
  chosen : ∃ pv sview destPool zfsNodes, listedEvent .node {} sview.nodes ∈ tr ∧
    ListedInSelection tr sview.evacs ∧
    chooseTarget cfg (selectionInput view.name (specOf view) source pv group) sview destPool
      zfsNodes = .ok t

/-- The ZFSSnapshot of a transfer. -/
def TransferStatus.snapKey (t : TransferStatus) : Key := ⟨cfg.openebsNs, t.snapName⟩

/-- The ZFSSnapshot of the transfer was deleted just now, or seen to be on its way out. -/
def SnapDeleteSeen (t : TransferStatus) : Prop :=
  tr.head? = some (deletedEvent .zfsSnapshot (t.snapKey cfg)) ∨
    ∃ cr, cr.deleting = true ∧ tr.head? = some (sawEvent .zfsSnapshot (t.snapKey cfg) (some cr))

/-- The ZFSSnapshot was seen just now with the finalizer of its agent, or the target node was
seen to be gone. -/
def MayDeleteSnap (t : TransferStatus) (target : TargetInfo) : Prop :=
  (∃ cr, zfsFinalizer ∈ cr.metadata.finalizers ∧
      tr.head? = some (sawEvent .zfsSnapshot (t.snapKey cfg) (some cr))) ∨
    NodeGoneSeen target.nodeId tr

/-- The ZFSSnapshot of the transfer was seen to be gone, with its deletion on record unless the
volume on the target was gone as well. -/
def SnapSettled : Prop :=
  ∀ t target, st.transfer = some t → st.target = some target →
    sawEvent .zfsSnapshot (t.snapKey cfg) none ∈ tr ∧
      (t.targetSnapDeleteIssued = true ∨ sawEvent .zfsVolume (target.volKey cfg) none ∈ tr)

/-- What the cleanup has seen before it turns to the source. -/
structure TornDown : Prop where
  wrote : written tr = none
  crs : CrsGone cfg view tr st
  snap : SnapSettled cfg tr st

end Facts

/-- One status write of a reconcile whose current status is `st`. -/
inductive Writes (cfg : Config) (view : Obj .evacuation) (tr : Trace)
    (st : ZFSEvacuationStatus) : ZFSEvacuationStatus → Prop
  | shown (msg : String) (h : st.phase ≠ .completed) (h' : st.phase ≠ .failed) :
      Writes cfg view tr st { st with message := some msg }
  | cancelled (reason : String) (hc : st.committed = false) (hp : st.phase ≠ .pending)
      (hw : written tr = none) (h : st.phase ≠ .completed) (h' : st.phase ≠ .failed) :
      Writes cfg view tr st
        { st with phase := .aborting, cancelled := true, message := some reason }
  | abortStarts (msg : Option String) (h : entersAbort view) (hw : written tr = none)
      (hd : view.deleting) :
      Writes cfg view tr st { st with phase := .aborting, message := msg }
  | unwound (msg : String) (h : st.phase = .aborting) (hv : entersAbort view)
      (hd : view.deleting = false) (facts : Unwound cfg view tr st) :
      Writes cfg view tr st { st with phase := .failed, message := some msg }
  | refused (msg : String) (h : st.phase = .pending) :
      Writes cfg view tr st { st with phase := .failed, message := some msg }
  | accepted (r : PvcRef) (source : SourceInfo) (pv : Obj .pv) (h : st.phase = .pending)
      (seen : sawEvent .pv (pvKey view) (some pv) ∈ tr)
      (hhandle : evacuableHandle ((pvSpec pv).getD {}) = .ok source.volumeHandle)
      (huid : source.pvUid = pv.metadata.uid) (capacity : 0 < source.capacityBytes) :
      Writes cfg view tr st { st with
        pvcRef := some r
        source := some source
        originalReclaimPolicy := ((pvSpec pv).getD {}).persistentVolumeReclaimPolicy
        phase := .guarding
        message := none }
  | guarded (h : st.phase = .guarding) :
      Writes cfg view tr st { st with phase := .retaining, message := none }
  | retained (h : st.phase = .retaining) :
      Writes cfg view tr st { st with phase := .locking, message := none }
  | locked (r : PvcRef) (lockedAt : Nat) (h : st.phase = .locking) (hr : st.pvcRef = some r)
      (hw : written tr = none) (seen : LockSeen tr r.lockKey (specOf view).mode) :
      Writes cfg view tr st
        { st with lockedAt := some lockedAt, phase := .quiescing, message := none }
  | blocked (msg : String) (h : st.phase = .quiescing) :
      Writes cfg view tr st { st with quiescedAt := none, message := some msg }
  | settles (at_ : Nat) (h : st.phase = .quiescing) (r : PvcRef) (pods : List (Obj .pod))
      (look : LookedIdle cfg view tr st r pods) :
      Writes cfg view tr st { st with quiescedAt := some at_ }
  | quiesced (r : PvcRef) (pods : List (Obj .pod)) (h : st.phase = .quiescing)
      (hw : written tr = none) (hr : st.pvcRef = some r)
      (seen : listedEvent .pod { ns := some r.ns } pods ∈ tr)
      (idle : unexpectedPods (specOf view).mode (pods.filter (podReferencesPvc r.name)) = [])
      (repels : (specOf view).mode = .whenClaimed → SourceRepels cfg tr st)
      (settled : st.quiescedAt.isSome = true) :
      Writes cfg view tr st { st with phase := .targetSelecting, message := none }
  | pvLost (msg : String) (h : st.phase = .targetSelecting)
      (evacs : List (Obj .evacuation)) (rest : Trace)
      (seen : tr = sawEvent .pv (pvKey view) none :: listedEvent .evacuation {} evacs :: rest) :
      Writes cfg view tr st { st with phase := .failed, message := some msg }
  | selected (source : SourceInfo) (r : PvcRef) (group : Option Group) (t : TargetInfo)
      (rand : Nat) (h : st.phase = .targetSelecting) (hs : st.source = some source)
      (hr : st.pvcRef = some r) (facts : Selection cfg view tr source r group t) :
      Writes cfg view tr st { st with
        colocation := group.map (colocationStatus (specOf view))
        target := some { t with newVolumeHandle := newDestinationHandle rand }
        phase := .transferring
        message := none }
  | attempted (attempt : Nat) (snapName : String) (ports : List Nat) (startedAt : Nat)
      (msg : String) (h : st.phase = .transferring) (hs : st.source.isSome)
      (ht : st.target.isSome) (gone : CrsGone cfg view tr st) (turn : NextAttempt view st attempt)
      (registered : Registered view.name tr attempt) :
      Writes cfg view tr st { st with
        transfer := some { attempt, snapName, ports, startedAt := some startedAt }
        message := some msg }
  | attemptFailing (reason msg : String) (h : st.phase = .transferring) :
      Writes cfg view tr st { st with
        transfer := st.transfer.map fun x => { x with failureReason := some reason }
        message := some msg }
  | exhausted (reason msg : String) (h : st.phase = .transferring) :
      Writes cfg view tr st { st with
        transfer := st.transfer.map fun x => { x with failureReason := some reason }
        phase := .aborting
        message := some msg }
  | copied (t : TransferStatus) (bytes : Option Nat) (bkp : Option (Obj .zfsBackup))
      (rst : Option (Obj .zfsRestore)) (h : st.phase = .transferring)
      (hw : written tr = none) (ht : st.transfer = some t)
      (hbkp : sawEvent .zfsBackup (bkpKey cfg view.name t.attempt) bkp ∈ tr)
      (hrst : sawEvent .zfsRestore (rstKey cfg view.name t.attempt) rst ∈ tr)
      (bkpDone : backupStatus bkp = bkpStatusDone)
      (rstDone : restoreStatus rst = bkpStatusDone) :
      Writes cfg view tr st { st with
        transfer := some { t with bytesRelayed := bytes.or t.bytesRelayed }
        phase := .adopting
        message := none }
  | progressed (t : TransferStatus) (bytes : Nat) (h : st.phase = .transferring)
      (ht : st.transfer = some t) :
      Writes cfg view tr st { st with transfer := some { t with bytesRelayed := some bytes } }
  | adopted (h : st.phase = .adopting) :
      Writes cfg view tr st { st with phase := .committing, message := none }
  | gaveUp (msg : String) (h : st.phase = .adopting ∨ st.phase = .committing) :
      Writes cfg view tr st { st with phase := .aborting, message := some msg }
  | pvReplaced (msg : String) (source : SourceInfo) (pv : Obj .pv) (sel : Selector)
      (pods : List (Obj .pod)) (rest : Trace) (h : st.phase = .committing)
      (hs : st.source = some source) (seen : tr = sawEvent .pv (pvKey view) (some pv) :: rest)
      (listed : listedEvent .pod sel pods ∈ rest)
      (huid : pv.metadata.uid ≠ source.pvUid) :
      Writes cfg view tr st { st with phase := .failed, message := some msg }
  | committed (source : SourceInfo) (target : TargetInfo) (r : PvcRef) (oldPv newPv : Obj .pv)
      (h : st.phase = .committing) (hw : written tr = none) (hs : st.source = some source)
      (ht : st.target = some target) (hr : st.pvcRef = some r)
      (seen : sawEvent .pv (pvKey view) (some oldPv) ∈ tr)
      (huid : oldPv.metadata.uid = source.pvUid)
      (hnew : renderNewPv oldPv r target = .ok newPv) (pods : List (Obj .pod))
      (listed : listedEvent .pod { ns := some r.ns } pods ∈ tr)
      (idle : unexpectedPods (specOf view).mode (pods.filter (podReferencesPvc r.name)) = [])
      (repels : (specOf view).mode = .whenClaimed → SourceRepels cfg tr st) :
      Writes cfg view tr st { st with
        oldPvManifest := some (oldPv.metadata, oldPv.data)
        newPvManifest := some (newPv.metadata, newPv.data)
        committed := true
        phase := .swapping
        message := none }
  | swapped (source : SourceInfo) (r : PvcRef) (pv : Obj .pv) (h : st.phase = .swapping)
      (hw : written tr = none) (hs : st.source = some source) (hr : st.pvcRef = some r)
      (seen : sawEvent .pv (pvKey view) (some pv) ∈ tr)
      (huid : pv.metadata.uid ≠ source.pvUid) (hbound : boundTo pv r.uid) :
      Writes cfg view tr st { st with phase := .cleaningUp, message := none }
  | snapDeleteIssued (h : st.phase = .cleaningUp) (hw : written tr = none)
      (seen : ∀ t, st.transfer = some t → SnapDeleteSeen cfg tr t) :
      Writes cfg view tr st { st with
        transfer := st.transfer.map fun t => { t with targetSnapDeleteIssued := true } }
  | completed (h : st.phase = .cleaningUp) (gone : CrsGone cfg view tr st) :
      Writes cfg view tr st { st with phase := .completed, message := none }

/-- The parameters as the controller may write them: one key more or one key less. -/
inductive ParamsWrite (view : Obj .evacuation) (st : ZFSEvacuationStatus) (r : PvcRef)
    (spec : EvacuationParamsSpec) : EvacuationParamsSpec → Prop
  | lock (h : st.phase = .locking) :
      ParamsWrite view st r spec (spec.lock r.lockKey (specOf view).mode).1
  | unlock (h : st.phase = .aborting ∨ st.phase = .cleaningUp) :
      ParamsWrite view st r spec (spec.unlock r.lockKey).1

/-- The evacuation needs no finalizer any more. -/
inductive MayLeave (cfg : Config) (view : Obj .evacuation) (tr : Trace)
    (st : ZFSEvacuationStatus) : Prop
  | finished (h : st.phase = .completed ∨ st.phase = .failed)
  | unwound (h : st.phase = .aborting) (hv : entersAbort view) (facts : Unwound cfg view tr st)

/-- Finalizers a patch of a volume or transfer resource may set, after the read before it. -/
inductive FinalizerEdit (k : Kind) (key : Key) (tr : Trace) (fs : List String)
    (edit : List String → List String) : Prop
  | intro (o : Obj k) (seen : tr.head? = some (sawEvent k key (some o)))
      (eq : fs = edit o.metadata.finalizers)

def stripZfs (cur : List String) : List String := cur.filter (· ≠ zfsFinalizer)

/-- The mutations that a status admits. -/
def Permitted (cfg : Config) (view : Obj .evacuation) (tr : Trace) (st : ZFSEvacuationStatus) :
    Call → Prop
  | .create .zfsBackup o =>
    ∃ source t port, st.phase = .transferring ∧ st.source = some source ∧
      st.transfer = some t ∧ o = backupCr cfg view.name t.attempt source t.snapName port ∧
      Registered view.name tr t.attempt
  | .create .zfsRestore o =>
    ∃ target t volSpec port, st.phase = .transferring ∧ st.target = some target ∧
      st.transfer = some t ∧ o = restoreCr cfg view.name t.attempt target volSpec port ∧
      SourceConnected view tr t.attempt ∧ Unregistered tr ∧ written tr = none
  | .create .zfsVolume o =>
    ∃ target info, (st.phase = .adopting ∨ st.phase = .aborting) ∧ st.target = some target ∧
      o = targetZfsvolume cfg info target
  | .create .zfsSnapshot o =>
    ∃ target t info, st.phase = .cleaningUp ∧ st.target = some target ∧ st.transfer = some t ∧
      o = targetSnapshotCr cfg target t.snapName info ∧ t.targetSnapDeleteIssued = false
  | .create .pv o =>
    ∃ manifest, st.phase = .swapping ∧ st.newPvManifest = some manifest ∧
      o = ⟨manifest.1, manifest.2⟩
  | .create .params o =>
    ∃ r, st.pvcRef = some r ∧ o.metadata = { name := paramsName } ∧ ParamsWrite view st r {} o.data
  | .replace .params o =>
    ∃ r spec, st.pvcRef = some r ∧
      sawEvent .params paramsKey (some ⟨o.metadata, spec⟩) ∈ tr ∧ ParamsWrite view st r spec o.data
  | .delete .pv key =>
    ∃ source pv, st.phase = .swapping ∧ written tr = none ∧ key = pvKey view ∧
      st.source = some source ∧ sawEvent .pv key (some pv) ∈ tr ∧
        pv.metadata.uid = source.pvUid
  | .delete .zfsVolume key =>
    (st.phase = .aborting ∧ ∃ target, st.target = some target ∧ key = target.volKey cfg) ∨
      ((st.phase = .aborting ∨ st.phase = .cleaningUp ∧ TornDown cfg view tr st) ∧
        ∃ source, st.source = some source ∧ key = source.volKey cfg)
  | .delete .zfsBackup key =>
    ∃ t, (st.phase = .transferring ∨ st.phase = .aborting ∨ st.phase = .cleaningUp) ∧
      st.transfer = some t ∧ key = bkpKey cfg view.name t.attempt
  | .delete .zfsRestore key =>
    ∃ t, (st.phase = .transferring ∨
        st.phase = .aborting ∧ MayDropRestore cfg view tr st t ∨ st.phase = .cleaningUp) ∧
      st.transfer = some t ∧ key = rstKey cfg view.name t.attempt
  | .delete .zfsSnapshot key =>
    ∃ t target, st.phase = .cleaningUp ∧ st.transfer = some t ∧ st.target = some target ∧
      key = t.snapKey cfg ∧ written tr = none ∧ MayDeleteSnap cfg tr t target
  | .patch .evacuation key (.status w) => key = evacKey view ∧ Writes cfg view tr st w
  | .patch .evacuation key (.finalizers fs) =>
    key = evacKey view ∧
      ((tr = [] ∧ view.deleting = false ∧ fs = view.metadata.finalizers ++ [evacuationFinalizer]) ∨
        ((∃ o, tr.head? = some (sawEvent .evacuation key (some o)) ∧
          fs = o.metadata.finalizers.filter (· ≠ evacuationFinalizer)) ∧
          MayLeave cfg view tr st))
  | .patch .zfsVolume key (.finalizers fs) =>
    (st.phase = .guarding ∧ (∃ source, st.source = some source ∧ key = source.volKey cfg) ∧
      FinalizerEdit .zfsVolume key tr fs addGuard) ∨
      ((st.phase = .aborting ∨ st.phase = .cleaningUp) ∧
        (FinalizerEdit .zfsVolume key tr fs stripZfs ∨
          ((∃ source, st.source = some source ∧ key = source.volKey cfg) ∧
            FinalizerEdit .zfsVolume key tr fs unguard)))
  | .patch .zfsBackup key (.finalizers fs) => FinalizerEdit .zfsBackup key tr fs stripZfs
  | .patch .zfsRestore key (.finalizers fs) => FinalizerEdit .zfsRestore key tr fs stripZfs
  | .patch .zfsSnapshot key (.finalizers fs) =>
    FinalizerEdit .zfsSnapshot key tr fs stripZfs ∧
      ∃ t target, st.phase = .cleaningUp ∧ st.transfer = some t ∧ st.target = some target ∧
        key = t.snapKey cfg ∧ written tr = none ∧ NodeGoneSeen target.nodeId tr
  | .patch .pv key (.finalizers fs) =>
    st.phase = .swapping ∧ key = pvKey view ∧ FinalizerEdit .pv key tr fs stripPvFinalizers
  | .patch .pv key (.reclaimPolicy policy) =>
    key = pvKey view ∧
      ((st.phase = .retaining ∧ policy = "Retain") ∨
        ((st.phase = .aborting ∨ st.phase = .swapping) ∧ st.originalReclaimPolicy = some policy))
  | .patch .pv key (.annotate name value) =>
    st.phase = .cleaningUp ∧ key = pvKey view ∧ name = evacuateAnnotation ∧ value = none
  | .patch .pvc key (.label name _) =>
    (∃ r, st.pvcRef = some r ∧ key = r.key) ∧ name = evacuatingLabel
  | _ => False

/-- Reading is always allowed, a mutation when the status is known and admits it. -/
def Allowed (cfg : Config) (view : Obj .evacuation) (tr : Trace) (c : Call) : Prop :=
  match c with
  | .get .. | .list .. | .now | .random _ | .spawnRelay .. => True
  | .transferGet _ | .lockSelection => True
  | .transferInsert t => MayRegister cfg view tr t
  | .transferRemove evac => evac = view.name ∧ MayDrop cfg view tr
  | .unlockSelection => HoldsSelection tr
  | c => ∃ st, Knows view tr st ∧ Permitted cfg view tr st c

end ZfsEvacuation
