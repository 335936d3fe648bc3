import ZfsEvacuation.Colocation

/-!
# The transfer phase

Attempts and their relay, the verdict on an attempt, and the ZFSBackup, ZFSRestore and
ZFSSnapshot resources that drive the node agents.
-/
namespace ZfsEvacuation

/-! ## Ways a phase ends -/

def advance (name : String) (st : ZFSEvacuationStatus) (phase : Phase) : M Action := do
  writeStatus name { st with phase, message := none }
  pure (.requeue 500)

def fail (name : String) (st : ZFSEvacuationStatus) (msg : String) : M Action := do
  writeStatus name { st with phase := .failed, message := some msg }
  pure .awaitChange

/-- Show a message and come back later; a message already shown is not written again. -/
def wait (name : String) (st : ZFSEvacuationStatus) (msg : String) (secs : Nat) : M Action := do
  if st.message ≠ some msg then
    writeStatus name { st with message := some msg }
    pure (requeueSecs secs)
  else pure (requeueSecs secs)

/-- Leave the phase for the abort path. -/
def beginAbort (name : String) (st : ZFSEvacuationStatus) (msg : String) : M Action := do
  writeStatus name { st with phase := .aborting, message := some msg }
  pure (requeueSecs 1)

/-! ## Verdicts -/

structure RelayObs where
  attempt : Nat
  bytes : Nat
  lastActivity : Nat
  taskFinished : Bool
  sourceConnected : Bool
  deriving DecidableEq, Repr

structure TransferObs where
  attempt : Nat
  failureReason : Option String
  bkpStatus : String
  rstStatus : String
  rstExists : Bool
  mem : Option RelayObs
  elapsedSecs : Nat
  nowSecs : Nat
  timeoutSecs : Nat
  stallSecs : Nat
  deriving DecidableEq, Repr

inductive TransferVerdict where
  | complete (bytes : Option Nat)
  | failAttempt (reason : String)
  | staleStatus
  | staleRelay
  | waitingForSource
  | createRestore
  | continue (bytes : Nat)
  deriving DecidableEq, Repr

def RelayObs.flowing (m : RelayObs) : Bool := !m.taskFinished && 0 < m.bytes

def agentFailed (status : String) : Bool := status == bkpStatusFailed || status == bkpStatusInvalid

def transferVerdict (o : TransferObs) : TransferVerdict :=
  -- A teardown that loses the race against the agents' Done must salvage the data.
  if o.bkpStatus = bkpStatusDone ∧ o.rstStatus = bkpStatusDone then
    .complete (o.mem.map (·.bytes))
  else match o.failureReason with
  | some r => .failAttempt r
  | none =>
    if agentFailed o.bkpStatus then .failAttempt ("backup reported status " ++ o.bkpStatus)
    else if agentFailed o.rstStatus then .failAttempt ("restore reported status " ++ o.rstStatus)
    else match o.mem with
    | none => .failAttempt "controller restarted mid-transfer"
    | some m =>
      if o.attempt < m.attempt then .staleStatus
      else if m.attempt < o.attempt then .staleRelay
      else if !m.flowing && o.timeoutSecs < o.elapsedSecs then .failAttempt "transfer timed out"
      else if !o.rstExists then
        if m.sourceConnected then .createRestore else .waitingForSource
      else if m.flowing && o.stallSecs < o.nowSecs - m.lastActivity then
        .failAttempt "transfer stalled (no bytes)"
      else .continue m.bytes

/-! ## Transfer resources -/

def bkpName (evac : String) (attempt : Nat) : String := evac ++ "-evac-a" ++ toString attempt

def rstName (evac : String) (attempt : Nat) : String := evac ++ "-evacr-a" ++ toString attempt

def bkpKey (cfg : Config) (evac : String) (attempt : Nat) : Key :=
  ⟨cfg.openebsNs, bkpName evac attempt⟩

def rstKey (cfg : Config) (evac : String) (attempt : Nat) : Key :=
  ⟨cfg.openebsNs, rstName evac attempt⟩

/-- Delete one transfer resource, or unblock its deletion when its node is gone; true once
it does not exist any more. -/
def cleanupCr (k : Kind) (key : Key) (nodeId : Option String) : M Bool := do
  match ← getOpt k key with
  | none => pure true
  | some cr =>
    if !cr.deleting then
      deleteObj k key
      pure false
    else match nodeId with
    | none => pure false
    | some nid =>
      stripZfsFinalizerIfNodeGone k key nid
      pure false

/-- Delete an attempt's ZFSBackup and ZFSRestore; true once both are gone. -/
def cleanupTransferCrs (cfg : Config) (evac : String) (attempt : Nat)
    (st : ZFSEvacuationStatus) : M Bool := do
  let bkpGone ← cleanupCr .zfsBackup (bkpKey cfg evac attempt) (st.source.map (·.nodeId))
  let rstGone ← cleanupCr .zfsRestore (rstKey cfg evac attempt) (st.target.map (·.nodeId))
  pure (bkpGone && rstGone)

def relayPeers (node : Obj .node) : M (List IpNet) :=
  if (relayPeerNets node).isEmpty then
    throw (.other ("no relay peer addresses found for node " ++ node.name))
  else pure (relayPeerNets node)

def backupCr (cfg : Config) (name : String) (attempt : Nat) (source : SourceInfo)
    (snapName : String) (port : Nat) : Obj .zfsBackup where
  metadata := { ns := cfg.openebsNs, name := bkpName name attempt }
  data := ({ spec :=
               { volumeName := source.volumeHandle
                 ownerNodeId := source.nodeId
                 snapName := some snapName
                 prevSnapName := none
                 backupDest := cfg.podIp ++ ":" ++ toString port }
             status := some bkpStatusInit } : ZFSBackup)

def restoreCr (cfg : Config) (name : String) (attempt : Nat) (target : TargetInfo)
    (volSpec : VolumeInfo) (port : Nat) : Obj .zfsRestore where
  metadata := { ns := cfg.openebsNs, name := rstName name attempt }
  data := ({ spec :=
               { volumeName := target.newVolumeHandle
                 ownerNodeId := target.nodeId
                 restoreSrc := cfg.podIp ++ ":" ++ toString port }
             volSpec := some volSpec
             status := some bkpStatusInit } : ZFSRestore)

def startAttempt (cfg : Config) (evac : Obj .evacuation) (st : ZFSEvacuationStatus)
    (attempt : Nat) : M Action := do
  let name := evac.name
  let source ← orErr st.source "no source recorded"
  let target ← orErr st.target "no target recorded"
  let existing : Option ActiveTransfer ← send (.transferGet name)
  -- A reconcile of a stale status can land here for an attempt that is already running.
  if existing.any fun t => attempt ≤ t.attempt then pure (requeueSecs 5)
  else do
    let srcNode ← orErr (← nodeById source.nodeId) ("source node " ++ source.nodeId ++ " gone")
    let dstNode ← orErr (← nodeById target.nodeId) ("target node " ++ target.nodeId ++ " gone")
    let backupPeers ← relayPeers srcNode
    let restorePeers ← relayPeers dstNode
    match ← send (.spawnRelay backupPeers restorePeers) with
    | .error text => throw (.other text)
    | .ok relay => do
      send (.transferInsert ⟨name, attempt, relay⟩)
      let r : Nat ← send (.random (2 ^ 16))
      let startedAt ← nowRfc3339
      let snapName := "zevac-a" ++ toString attempt ++ "-" ++ hexPadded 4 r
      -- The record is durable before the resources exist, so a crash knows what to clean up.
      writeStatus name { st with
        transfer := some
          { attempt, snapName, ports := [relay.backupPort, relay.restorePort]
            startedAt := some startedAt }
        message := some ("transfer attempt " ++ toString attempt ++ " starting") }
      createIfAbsent (backupCr cfg name attempt source snapName relay.backupPort)
      pure (requeueSecs 2)

def createRestore (cfg : Config) (st : ZFSEvacuationStatus) (name : String) (attempt port : Nat) :
    M Unit := do
  let source ← orErr st.source "no source recorded"
  let target ← orErr st.target "no target recorded"
  match ← getOpt .zfsVolume ⟨cfg.openebsNs, source.volumeHandle⟩ with
  | none => throw (.other "source ZFSVolume disappeared")
  | some ⟨_, (zv : ZFSVolume)⟩ =>
    createIfAbsent (restoreCr cfg name attempt target (adaptToTarget zv.spec target) port)

def retryOrFail (cfg : Config) (evac : Obj .evacuation) (st : ZFSEvacuationStatus)
    (t : TransferStatus) (maxAttempts : Nat) (reason : String) : M Action := do
  let name := evac.name
  send (.transferRemove name)
  let st := { st with
    transfer := st.transfer.map fun x => { x with failureReason := some reason } }
  let gone ← cleanupTransferCrs cfg name t.attempt st
  if !gone then
    wait name st ("attempt " ++ toString t.attempt ++ " failed (" ++ reason ++ "); cleaning up") 10
  else if maxAttempts ≤ t.attempt then
    beginAbort name st ("transfer failed after " ++ toString t.attempt ++ " attempts (last: " ++
      reason ++ ")")
  else startAttempt cfg evac st (t.attempt + 1)

def backupStatus (o : Option (Obj .zfsBackup)) : String :=
  (o.bind fun o => let bkp : ZFSBackup := o.data; bkp.status).getD ""

def restoreStatus (o : Option (Obj .zfsRestore)) : String :=
  (o.bind fun o => let rst : ZFSRestore := o.data; rst.status).getD ""

def observeRelay (t : ActiveTransfer) : RelayObs :=
  { attempt := t.attempt
    bytes := t.relay.bytes
    lastActivity := t.relay.lastActivity
    taskFinished := t.relay.taskFinished
    sourceConnected := t.relay.sourceConnected }

def transferring (cfg : Config) (evac : Obj .evacuation) (st : ZFSEvacuationStatus) :
    M Action := do
  let name := evac.name
  let spec := specOf evac
  match st.transfer with
  | none => startAttempt cfg evac st 1
  | some t => do
    let bkp ← getOpt .zfsBackup (bkpKey cfg name t.attempt)
    let rst ← getOpt .zfsRestore (rstKey cfg name t.attempt)
    let mem : Option ActiveTransfer ← send (.transferGet name)
    let now : Nat ← send .now
    let obs : TransferObs :=
      { attempt := t.attempt
        failureReason := t.failureReason
        bkpStatus := backupStatus bkp
        rstStatus := restoreStatus rst
        rstExists := rst.isSome
        mem := mem.map observeRelay
        elapsedSecs := (t.startedAt.bind (secsSince now)).getD 0
        nowSecs := now / 10 ^ 9
        timeoutSecs := spec.transferTimeoutSeconds.getD defaultTransferTimeout
        stallSecs := cfg.stallSeconds }
    match transferVerdict obs with
    | .complete bytes => do
      send (.transferRemove name)
      let st := match bytes with
        | some b => { st with transfer := some { t with bytesRelayed := some b } }
        | none => st
      advance name st .adopting
    | .failAttempt reason =>
      retryOrFail cfg evac st t (spec.maxAttempts.getD defaultMaxAttempts) reason
    | .staleStatus => pure (requeueSecs 2)
    | .staleRelay => do
      send (.transferRemove name)
      pure (requeueSecs 1)
    | .waitingForSource =>
      wait name st ("transfer attempt " ++ toString t.attempt ++ " waiting for source") 2
    | .createRestore => do
      createRestore cfg st name t.attempt (t.ports[1]?.getD 0)
      pure (requeueSecs 2)
    | .continue bytes =>
      if t.bytesRelayed ≠ some bytes then do
        writeStatus name { st with transfer := some { t with bytesRelayed := some bytes } }
        pure (requeueSecs 10)
      else pure (requeueSecs 10)

/-! ## The target's copy of the transfer snapshot -/

/-- The ZFSSnapshot that stands in for the received copy of the transfer snapshot. -/
def targetSnapshotCr (cfg : Config) (target : TargetInfo) (snapName : String)
    (info : VolumeInfo) : Obj .zfsSnapshot where
  metadata :=
    { ns := cfg.openebsNs, name := snapName
      labels := [(nodeNameLabel, target.nodeId), (zfsVolLabel, target.newVolumeHandle)] }
  data := ({ spec := adaptToTarget info target
             status := some { state := some zfsStatusPending } } : ZFSSnapshot)

def markTargetSnapDeleteIssued (name : String) (st : ZFSEvacuationStatus) :
    M ZFSEvacuationStatus := do
  let st := { st with
    transfer := st.transfer.map fun t => { t with targetSnapDeleteIssued := true } }
  writeStatus name st
  pure st

/-- Destroy the transfer snapshot that the received stream recreated on the target, by
registering and deleting a ZFSSnapshot for it. No message once it is gone. -/
def destroyTargetSnapshot (cfg : Config) (name : String) (st : ZFSEvacuationStatus) :
    M (ZFSEvacuationStatus × Option String) := do
  let destroying := some "waiting for target transfer snapshot destruction"
  match st.transfer, st.target with
  | some t, some target => do
    let key : Key := ⟨cfg.openebsNs, t.snapName⟩
    let existing ← getOpt .zfsSnapshot key
    if t.targetSnapDeleteIssued then
      match existing with
      | none => pure (st, none)
      | some _ => do
        stripZfsFinalizerIfNodeGone .zfsSnapshot key target.nodeId
        pure (st, destroying)
    else match existing with
    | none => do
      match ← getOpt .zfsVolume ⟨cfg.openebsNs, target.newVolumeHandle⟩ with
      -- The new volume is already being torn down; its snapshots go with the dataset.
      | none => pure (st, none)
      | some ⟨_, (zv : ZFSVolume)⟩ => do
        createIfAbsent (targetSnapshotCr cfg target t.snapName zv.spec)
        pure (st, some "registering target transfer snapshot")
    | some cr =>
      if cr.deleting then do
        let st ← markTargetSnapDeleteIssued name st
        pure (st, destroying)
      -- Deleting before the agent has set its finalizer would destroy nothing.
      else if cr.metadata.finalizers.any (· == zfsFinalizer) then do
        deleteObj .zfsSnapshot key
        let st ← markTargetSnapDeleteIssued name st
        pure (st, destroying)
      else do
        let unprocessed := some "waiting for target agent to register transfer snapshot"
        match ← nodeById target.nodeId with
        | some _ => pure (st, unprocessed)
        | none => do
          deleteObj .zfsSnapshot key
          let st ← markTargetSnapDeleteIssued name st
          pure (st, unprocessed)
  | _, _ => pure (st, none)

end ZfsEvacuation
