import ZfsEvacuation.TransferPhase

/-!
# The abort path

Unwind everything the evacuation did, in reverse. Each run derives its progress afresh
from the objects that still exist.
-/
namespace ZfsEvacuation

def requeueMsg (name : String) (st : ZFSEvacuationStatus) (msg : String) : M Action := do
  if st.message ≠ some msg then
    writeStatus name { st with message := some msg }
    pure (requeueSecs 5)
  else pure (requeueSecs 5)

def removeEvacFinalizer (name : String) : M Unit := do
  match ← getOpt .evacuation ⟨"", name⟩ with
  | none => pure ()
  | some evac =>
    patchObj .evacuation ⟨"", name⟩
      (.finalizers (evac.metadata.finalizers.filter (· ≠ evacuationFinalizer)))

def unguard (cur : List String) : List String := cur.filter (· ≠ guardFinalizer)

/-- The marker label is cosmetic: whether its removal succeeds is ignored. -/
def unlabelPvc (r : PvcRef) : M Unit := do
  let _ ← send (.patch .pvc r.key (.label evacuatingLabel none))
  pure ()

namespace Abort

/-- Target-side cleanup and transfer resources, steps 2 and 3: an answer if the abort has
to come back, nothing once they are done. -/
def targetSide (cfg : Config) (name : String) (st : ZFSEvacuationStatus) :
    M (Option Action) := do
  match st.target, st.transfer with
  | some target, some t => do
    let volKey : Key := ⟨cfg.openebsNs, target.newVolumeHandle⟩
    let rst ← getOpt .zfsRestore (rstKey cfg name t.attempt)
    let restoreDone := (rst.bind fun o => let r : ZFSRestore := o.data; r.status).any
      (· == bkpStatusDone)
    let cleanup : M (Option Action) := do
      if ← cleanupTransferCrs cfg name t.attempt st then pure none
      else some <$> requeueMsg name st "abort: cleaning up transfer CRs"
    match ← getOpt .zfsVolume volKey with
    | some zv => do
      if !zv.deleting then
        deleteObj .zfsVolume volKey
        stripZfsFinalizerIfNodeGone .zfsVolume volKey target.nodeId
        some <$> requeueMsg name st "abort: destroying target dataset"
      else
        stripZfsFinalizerIfNodeGone .zfsVolume volKey target.nodeId
        some <$> requeueMsg name st "abort: destroying target dataset"
    | none =>
      if restoreDone then do
        -- A dataset landed but has no ZFSVolume: register it so that its agent destroys it.
        let src ← orErr st.source "no source recorded"
        match ← getOpt .zfsVolume ⟨cfg.openebsNs, src.volumeHandle⟩ with
        | some ⟨_, (srcZv : ZFSVolume)⟩ => do
          createIfAbsent (targetZfsvolume cfg srcZv.spec target)
          some <$> requeueMsg name st "abort: adopting orphan dataset for destruction"
        | none => cleanup
      else cleanup
  | _, _ => pure none

/-- Step 4: the PV, if it is still the one the evacuation started with. -/
def restorePolicy (evac : Obj .evacuation) (st : ZFSEvacuationStatus) : M Unit := do
  let pvKey : Key := ⟨"", (specOf evac).pvName⟩
  match st.source, st.originalReclaimPolicy with
  | some source, some orig => do
    match ← getOpt .pv pvKey with
    | some pv =>
      if pv.metadata.uid = source.pvUid then patchObj .pv pvKey (.reclaimPolicy orig)
      else pure ()
    | none => pure ()
  | _, _ => pure ()

/-- Step 5. -/
def unlock (st : ZFSEvacuationStatus) : M Unit :=
  match st.pvcRef with
  | none => pure ()
  | some r => do
    unlockKey r.lockKey
    unlabelPvc r

/-- Steps 6 and 7: drive the reclaim that nobody is left to drive, then drop the guard. -/
def releaseSource (cfg : Config) (evac : Obj .evacuation) (st : ZFSEvacuationStatus) :
    M Unit := do
  match st.source with
  | none => pure ()
  | some source => do
    let srcKey : Key := ⟨cfg.openebsNs, source.volumeHandle⟩
    let pvcGone ← match st.pvcRef with
      | some r => do pure (← getOpt .pvc r.key).isNone
      | none => pure false
    let pv ← getOpt .pv ⟨"", (specOf evac).pvName⟩
    if pvcGone ∧ pv.isNone ∧ st.originalReclaimPolicy = some "Delete" then
      match ← getOpt .zfsVolume srcKey with
      | some zv => if !zv.deleting then deleteObj .zfsVolume srcKey else pure ()
      | none => pure ()
    setFinalizers .zfsVolume srcKey unguard
    stripZfsFinalizerIfNodeGone .zfsVolume srcKey source.nodeId

def run (cfg : Config) (evac : Obj .evacuation) (st : ZFSEvacuationStatus) : M Action := do
  let name := evac.name
  if st.phase ≠ .aborting then
    writeStatus name { st with phase := .aborting }
  let st := { st with phase := .aborting }
  send (.transferRemove name)
  match ← targetSide cfg name st with
  | some action => pure action
  | none => do
    restorePolicy evac st
    unlock st
    releaseSource cfg evac st
    if evac.deleting then do
      removeEvacFinalizer name
      pure .awaitChange
    else do
      writeStatus name { st with
        phase := .failed
        message := some (st.message.getD "evacuation aborted") }
      pure .awaitChange

end Abort

end ZfsEvacuation
