import ZfsEvacuation.PvSwap

/-!
# The evacuation state machine

One reconcile of a ZFSEvacuation: terminal phases, deletion and cancellation first, then
the handler of its phase.
-/
namespace ZfsEvacuation
open ClientProgram

/-! ## Checks made before the phase handlers -/

def ensureEvacFinalizer (evac : Obj .evacuation) : M Unit :=
  if evac.metadata.finalizers.any (· == evacuationFinalizer) then pure ()
  else patchObj .evacuation ⟨"", evac.name⟩
    (.finalizers (evac.metadata.finalizers ++ [evacuationFinalizer]))

/-- Has the request behind the evacuation been withdrawn, as its trigger says? A vanished
source node is no withdrawal. -/
def triggerWithdrawn (cfg : Config) (evac : Obj .evacuation) (st : ZFSEvacuationStatus)
    (pv : Obj .pv) : M (Option String) :=
  match (specOf evac).trigger with
  | EvacuationTrigger.annotation =>
    if pv.metadata.annotations.get evacuateAnnotation ≠ some "true" then
      pure (some "evacuate annotation removed (cancelled)")
    else pure none
  | .nodeTaint =>
    match st.source with
    | none => pure none
    | some src => do
      match ← getOpt .node ⟨"", src.node⟩ with
      | none => pure none
      | some node =>
        if !nodeHasEvacuateTaint node cfg.taintKey then
          pure (some "source node's evacuate taint removed (cancelled)")
        else pure none

/-- The reason why an evacuation that is not committed must be cancelled, if any. -/
def cancelReason (cfg : Config) (evac : Obj .evacuation) (st : ZFSEvacuationStatus) :
    M (Option String) :=
  if st.phase = .pending then pure none
  else do
    match ← getOpt .pv ⟨"", (specOf evac).pvName⟩ with
    | none => pure (some "source PV disappeared before commit")
    | some pv =>
      match ← triggerWithdrawn cfg evac st pv with
      | some reason => pure (some reason)
      | none =>
        match st.pvcRef with
        | none => pure none
        | some r => do
          match ← getOpt .pvc r.key with
          | none => pure (some "PVC deleted during evacuation")
          | some pvc =>
            if pvc.metadata.uid ≠ r.uid then
              pure (some "PVC replaced (UID changed) during evacuation")
            else pure none

/-! ## Phases up to the copy -/

/-- "zevac-" and 32 hexadecimal digits. -/
def newDestinationHandle (r : Nat) : String := "zevac-" ++ hexPadded 32 r

def isAsciiAlphanumeric (c : Char) : Bool :=
  ('0' ≤ c && c ≤ '9') || ('a' ≤ c && c ≤ 'z') || ('A' ≤ c && c ≤ 'Z')

/-- The handle is used verbatim as a label value, so it must be one. -/
def sourceHandleFitsSnapshotLabel (handle : String) : Bool :=
  handle.utf8ByteSize ≤ 63 &&
    handle.toList.head?.any isAsciiAlphanumeric &&
    handle.toList.getLast?.any isAsciiAlphanumeric &&
    handle.toList.all fun c => isAsciiAlphanumeric c || c == '-' || c == '_' || c == '.'

def pvcResizing (pvc : PersistentVolumeClaim) : Bool :=
  pvc.conditions.any fun c =>
    (c.type_ == "Resizing" || c.type_ == "FileSystemResizePending") && c.status == "True"

/-- The claim a PV is bound to. -/
def boundClaim (spec : PersistentVolumeSpec) : Except String Key :=
  match spec.claimRef with
  | none => .error "PV has no claimRef (unbound PVs need no evacuation)"
  | some claim =>
    match claim.ns, claim.name with
    | some ns, some name => .ok ⟨ns, name⟩
    | _, _ => .error "PV claimRef missing namespace/name"

/-- The zfs-localpv volume behind a PV, by its handle. -/
def evacuableHandle (spec : PersistentVolumeSpec) : Except String String :=
  match spec.csi with
  | none => .error "PV is not a CSI volume"
  | some csi =>
    if csi.driver ≠ zfsDriver then
      .error ("PV driver " ++ csi.driver ++ " is not " ++ zfsDriver)
    else if !sourceHandleFitsSnapshotLabel csi.volumeHandle then
      .error ("source volume handle " ++ csi.volumeHandle ++
        " cannot be used as a Kubernetes snapshot label value")
    else .ok csi.volumeHandle

/-- Why a ZFSVolume cannot be evacuated, from the resource alone. -/
def volumeRefusal (zv : Obj .zfsVolume) : Option String :=
  let data : ZFSVolume := zv.data
  if (zv.metadata.annotations.get markedForDeletion).isSome then
    some "ZFSVolume is marked for deletion"
  else if data.spec.snapname.getD "" ≠ "" then
    some "volume is a clone; clone migration is unsupported"
  else none

def pending (cfg : Config) (evac : Obj .evacuation) (st : ZFSEvacuationStatus) :
    M Action := do
  let name := evac.name
  let pvName := (specOf evac).pvName
  match ← getOpt .pv ⟨"", pvName⟩ with
  | none => fail name st ("PV " ++ pvName ++ " not found")
  | some pv =>
    let spec := (pvSpec pv).getD {}
    match evacuableHandle spec with
    | .error msg => fail name st msg
    | .ok handle =>
      match boundClaim spec with
      | .error msg => fail name st msg
      | .ok claim => do
        match ← getOpt .pvc claim with
        | none => fail name st ("bound PVC " ++ claim.ns ++ "/" ++ claim.name ++ " not found")
        | some ⟨pvcMeta, (pvc : PersistentVolumeClaim)⟩ =>
          if pvc.volumeName ≠ some pvName then fail name st "PVC does not reference this PV"
          else if pvcResizing pvc then fail name st "PVC has a resize in progress"
          else do
            match ← getOpt .zfsVolume ⟨cfg.openebsNs, handle⟩ with
            | none => fail name st ("ZFSVolume " ++ handle ++ " not found")
            | some zv =>
              let data : ZFSVolume := zv.data
              match volumeRefusal zv with
              | some msg => fail name st msg
              | none => do
                let snaps ← listObjs .zfsSnapshot
                  { ns := some cfg.openebsNs, label := some (zfsVolLabel, handle) }
                if !snaps.isEmpty then
                  fail name st ("volume has ZFSSnapshots; delete them before evacuating " ++
                    "(snapshot migration unsupported)")
                else do
                  let nodeId := data.spec.ownerNodeId
                  match ← nodeById nodeId with
                  | none => fail name st ("source node with nodeid " ++ nodeId ++
                      " not found; data is unreachable")
                  | some srcNode =>
                    if volumeCapacity data.spec = 0 then
                      fail name st "could not determine volume capacity"
                    else
                      advance name { st with
                        pvcRef := some ⟨claim.ns, claim.name, pvcMeta.uid⟩
                        source := some
                          { node := srcNode.name
                            nodeId := nodeId
                            pool := data.spec.poolName
                            volumeHandle := handle
                            pvUid := pv.metadata.uid
                            capacityBytes := volumeCapacity data.spec }
                        originalReclaimPolicy := spec.persistentVolumeReclaimPolicy } .guarding

def addGuard (cur : List String) : List String :=
  if cur.any (· == guardFinalizer) then cur else cur ++ [guardFinalizer]

def guarding (cfg : Config) (evac : Obj .evacuation) (st : ZFSEvacuationStatus) :
    M Action := do
  let source ← orErr st.source "no source recorded"
  withContext "adding guard finalizer to source ZFSVolume"
    (setFinalizers .zfsVolume ⟨cfg.openebsNs, source.volumeHandle⟩ addGuard)
  advance evac.name st .retaining

def retaining (evac : Obj .evacuation) (st : ZFSEvacuationStatus) : M Action := do
  withContext "patching PV reclaimPolicy to Retain"
    (patchObj .pv ⟨"", (specOf evac).pvName⟩ (.reclaimPolicy "Retain"))
  advance evac.name st .locking

def locking (evac : Obj .evacuation) (st : ZFSEvacuationStatus) : M Action := do
  let pvcRef ← orErr st.pvcRef "no pvcRef recorded"
  withContext "adding PVC to VAP params" (lockKey pvcRef.lockKey (specOf evac).mode)
  withContext "labeling PVC"
    (patchObj .pvc pvcRef.key (.label evacuatingLabel (some "true")))
  let lockedAt ← nowRfc3339
  advance evac.name { st with lockedAt := some lockedAt } .quiescing

/-- Seconds still to go until the lock can be trusted. -/
def propagationLeft (now : Nat) (lockedAt : Option Nat) : Nat :=
  match lockedAt.bind (secsSince now) with
  | none => 0
  | some since => lockPropagationSeconds - since

def quiescing (cfg : Config) (evac : Obj .evacuation) (st : ZFSEvacuationStatus) :
    M Action := do
  let name := evac.name
  let pvcRef ← orErr st.pvcRef "no pvcRef recorded"
  let lockNow : Nat ← send .now
  if 0 < propagationLeft lockNow st.lockedAt then
    pure (requeueSecs (propagationLeft lockNow st.lockedAt))
  else do
    let pods ← podsReferencingPvc pvcRef.ns pvcRef.name
    match ← blockingReason cfg evac st pods with
    | some msg => wait name { st with quiescedAt := none } msg 15
    | none => do
      let settle := (specOf evac).settleSeconds.getD defaultSettleSeconds
      let now : Nat ← send .now
      match st.quiescedAt.bind (secsSince now) with
      | none => do
        let quiescedAt ← nowRfc3339
        writeStatus name { st with quiescedAt := some quiescedAt }
        pure (requeueSecs settle)
      | some elapsed =>
        if elapsed < settle then pure (requeueSecs (settle - elapsed))
        else advance name st .targetSelecting

/-! ## Target selection -/

/-- Is another evacuation copying from this node? -/
def sourceBusy (name nodeId : String) (evacs : List (Obj .evacuation)) : Bool :=
  evacs.any fun e =>
    e.name ≠ name && (statusOf e).any fun st =>
      (st.phase = .transferring ∨ st.phase = .adopting) ∧
        st.source.any fun src => src.nodeId = nodeId

def groupExtraBytes (name : String) (group : Option Group) : Nat :=
  match group with
  | none => 0
  | some g => ((g.members.filter fun m => m.pvName ≠ name).map (·.capacityBytes)).sum

def colocationStatus (spec : ZFSEvacuationSpec) (g : Group) : ColocationStatus :=
  let followed := g.anchor.filter fun _ => spec.targetNode.isNone
  { pod := g.pod
    members := g.members
    role := if followed.isSome then .follower else .leader
    followed := followed.map (·.pvName) }

def selectionInput (name : String) (spec : ZFSEvacuationSpec) (source : SourceInfo)
    (pv : Obj .pv) (group : Option Group) : SelectionInput :=
  { evacName := name
    spec := spec
    sourceNodeId := source.nodeId
    sourcePool := source.pool
    capacityBytes := source.capacityBytes
    pv := pv
    groupExtraBytes := groupExtraBytes name group
    anchor := (group.bind (·.anchor)).map (·.node)
    placement := group.map (·.placement) }

/-- The body of target selection, run under the selection lock. -/
def selectAndRecord (cfg : Config) (evac : Obj .evacuation) (st : ZFSEvacuationStatus)
    (source : SourceInfo) (pvcRef : PvcRef) : M Action := do
  let name := evac.name
  let spec := specOf evac
  if sourceBusy name source.nodeId (← listObjs .evacuation {}) then
    wait name st "another evacuation is transferring from this node" 60
  else do
    match ← getOpt .pv ⟨"", spec.pvName⟩ with
    | none => fail name st "PV disappeared during target selection"
    | some pv => do
      let group ← match spec.mode with
        | .whenClaimed => do
          let pods ← podsReferencingPvc pvcRef.ns pvcRef.name
          resolve cfg name pvcRef source.nodeId pods
        | .whenIdle => pure none
      let input := selectionInput name spec source pv group
      let chosen : Except Error TargetInfo ← tryCatch
        (do pure (.ok (← selectTarget cfg input))) (fun e => pure (.error e))
      match chosen with
      | .ok t => do
        let r : Nat ← send (.random (2 ^ 128))
        advance name { st with
          colocation := group.map (colocationStatus spec)
          target := some { t with newVolumeHandle := newDestinationHandle r } } .transferring
      | .error e => wait name st ("no target yet: " ++ e.text) 60

def targetSelecting (cfg : Config) (evac : Obj .evacuation) (st : ZFSEvacuationStatus) :
    M Action := do
  let source ← orErr st.source "no source recorded"
  let pvcRef ← orErr st.pvcRef "no pvcRef recorded"
  send .lockSelection
  Program.andFinally (send .unlockSelection) (selectAndRecord cfg evac st source pvcRef)

/-! ## Phases after the copy -/

def volumeState (zv : Obj .zfsVolume) : String :=
  let data : ZFSVolume := zv.data
  (data.status.bind (·.state)).getD ""

def adopting (cfg : Config) (evac : Obj .evacuation) (st : ZFSEvacuationStatus) :
    M Action := do
  let name := evac.name
  let source ← orErr st.source "no source recorded"
  let target ← orErr st.target "no target recorded"
  match ← getOpt .zfsVolume ⟨cfg.openebsNs, target.newVolumeHandle⟩ with
  | none => do
    match ← getOpt .zfsVolume ⟨cfg.openebsNs, source.volumeHandle⟩ with
    | none => throw (.other "source ZFSVolume disappeared")
    | some ⟨_, (src : ZFSVolume)⟩ => do
      createIfAbsent (targetZfsvolume cfg src.spec target)
      pure (requeueSecs 3)
  | some zv =>
    if volumeState zv = zfsStatusReady then advance name st .committing
    else if volumeState zv = "Failed" then
      beginAbort name st "new ZFSVolume reported Failed during adoption"
    else wait name st "waiting for target node agent to adopt dataset" 5

/-- Steps 4 and 5 of the cleanup and the end: unlock, take our trigger off the new PV, and
record the completion before the finalizer goes. -/
def finishCleanup (evac : Obj .evacuation) (st : ZFSEvacuationStatus) : M Action := do
  let name := evac.name
  let pvKey : Key := ⟨"", (specOf evac).pvName⟩
  match st.pvcRef with
  | some r => do
    unlockKey r.lockKey
    unlabelPvc r
  | none => pure ()
  match ← getOpt .pv pvKey with
  | some pv =>
    if pv.metadata.annotations.contains evacuateAnnotation then
      patchObj .pv pvKey (.annotate evacuateAnnotation none)
  | none => pure ()
  let action ← advance name { st with message := some "evacuation complete" } .completed
  removeEvacFinalizer name
  pure action

/-- Step 3: issue the delete of the old ZFSVolume, then drop the guard; false once it is
gone. -/
def destroySource (cfg : Config) (source : SourceInfo) : M Bool := do
  let srcKey : Key := ⟨cfg.openebsNs, source.volumeHandle⟩
  match ← getOpt .zfsVolume srcKey with
  | none => pure false
  | some zv => do
    if !zv.deleting then deleteObj .zfsVolume srcKey
    setFinalizers .zfsVolume srcKey unguard
    stripZfsFinalizerIfNodeGone .zfsVolume srcKey source.nodeId
    pure true

def cleaningUp (cfg : Config) (evac : Obj .evacuation) (st : ZFSEvacuationStatus) :
    M Action := do
  let name := evac.name
  let source ← orErr st.source "no source recorded"
  let crsGone ← match st.transfer with
    | some t => cleanupTransferCrs cfg name t.attempt st
    | none => pure true
  if !crsGone then wait name st "waiting for transfer CRs to clean up" 10
  else do
    let (st, left) ← destroyTargetSnapshot cfg name st
    match left with
    | some msg => wait name st msg 5
    | none => do
      if ← destroySource cfg source then
        wait name st "waiting for source dataset destruction" 10
      else finishCleanup evac st

/-! ## Reconcile -/

def handlePhase (cfg : Config) (evac : Obj .evacuation) (st : ZFSEvacuationStatus) :
    M Action :=
  match st.phase with
  | .pending => pending cfg evac st
  | .guarding => guarding cfg evac st
  | .retaining => retaining evac st
  | .locking => locking evac st
  | .quiescing => quiescing cfg evac st
  | .targetSelecting => targetSelecting cfg evac st
  | .transferring => transferring cfg evac st
  | .adopting => adopting cfg evac st
  | .committing => committing cfg evac st
  | .swapping => swapping cfg evac st
  | .cleaningUp => cleaningUp cfg evac st
  | .completed | .failed | .aborting => pure .awaitChange

/-- The status a reconcile works on. -/
def viewStatus (evac : Obj .evacuation) : ZFSEvacuationStatus := (statusOf evac).getD {}

/-- The reconcile of this view runs the abort path and nothing else. -/
def entersAbort (evac : Obj .evacuation) : Bool :=
  let st := viewStatus evac
  st.phase ≠ .completed && st.phase ≠ .failed &&
    ((evac.deleting && !st.committed) || st.phase = .aborting)

def reconcile (cfg : Config) (evac : Obj .evacuation) : M Action := do
  let name := evac.name
  let st := viewStatus evac
  let deleted := evac.deleting
  if st.phase = .completed ∨ st.phase = .failed then
    if deleted then
      removeEvacFinalizer name
      pure .awaitChange
    else pure .awaitChange
  else if deleted && !st.committed then
    Abort.run cfg evac
      { st with message := some "ZFSEvacuation deleted before commit; aborting" }
  else do
    if !deleted then ensureEvacFinalizer evac
    if st.phase = .aborting then Abort.run cfg evac st
    else do
      let cancel ← if !st.committed then cancelReason cfg evac st else pure none
      match cancel with
      | some reason => do
        writeStatus name { st with
          phase := .aborting, cancelled := true, message := some reason }
        pure (requeueSecs 1)
      | none => handlePhase cfg evac st

end ZfsEvacuation
