import ZfsEvacuation.RelayPeers

/-!
# The controller's shared helpers

Errors, the calls every phase is written with, node and pod predicates, and the update
loop of the attach-lock parameters.
-/
namespace ZfsEvacuation
open ClientProgram

inductive Error where
  | api (e : ApiError)
  | other (text : String)
  | context (text : String) (cause : Error)
  deriving DecidableEq, Repr

/-- The error with its causes on one line. -/
def Error.text : Error → String
  | .api e => e.text
  | .other t => t
  | .context t cause => t ++ ": " ++ cause.text

/-- What a reconcile asks to be done next: another reconcile after some milliseconds, or
nothing until the object changes. -/
inductive Action where
  | requeue (millis : Nat)
  | awaitChange
  deriving DecidableEq, Repr

abbrev M := Program kubeInterface Error

def requeueSecs (secs : Nat) : Action := .requeue (1000 * secs)

/-- Deployment settings. -/
structure Config where
  openebsNs : String := "openebs"
  podIp : String := ""
  stallSeconds : Nat := 120
  taintKey : String := "zfsevac.alumino.us/evacuate"

def defaultSettleSeconds : Nat := 90
def defaultTransferTimeout : Nat := 3600
def defaultMaxAttempts : Nat := 3
def defaultHeadroomPercent : Nat := 10
def lockPropagationSeconds : Nat := 5

/-! ## Calls -/

def send (c : Call) : M c.Resp := Program.call (I := kubeInterface) c Program.ret

def answer {α : Type} : Except ApiError α → M α
  | .ok a => pure a
  | .error e => throw (.api e)

def withContext {α : Type} (text : String) (p : M α) : M α := p.mapError (.context text)

def getOpt (k : Kind) (key : Key) : M (Option (Obj k)) := do
  answer (← send (.get k key))

def listObjs (k : Kind) (sel : Selector) : M (List (Obj k)) := do
  answer (← send (.list k sel))

def deleteObj (k : Kind) (key : Key) : M Unit := do
  answer (← send (.delete k key))

def patchObj (k : Kind) (key : Key) (p : Patch k) : M Unit := do
  answer (← send (.patch k key p))

/-- Create an object; one of that name that already exists is as good. -/
def createIfAbsent {k : Kind} (o : Obj k) : M Unit := do
  match ← send (.create k o) with
  | .ok () => pure ()
  | .error .conflict => pure ()
  | .error e => throw (.api e)

def orErr {α : Type} (o : Option α) (text : String) : M α :=
  match o with
  | some a => pure a
  | none => throw (.other text)

def nowRfc3339 : M Nat := do
  let t : Nat ← send .now
  pure (t / 10 ^ 9)

/-- Whole seconds since a timestamp; none if it lies in the future. -/
def secsSince (now timestamp : Nat) : Option Nat :=
  if timestamp * 10 ^ 9 ≤ now then some ((now - timestamp * 10 ^ 9) / 10 ^ 9) else none

/-- Replace the whole controller-owned status of an evacuation. -/
def writeStatus (name : String) (st : ZFSEvacuationStatus) : M Unit :=
  withContext ("writing status of ZFSEvacuation " ++ name)
    (patchObj .evacuation ⟨"", name⟩ (.status st))

/-! ## Nodes and pods -/

def nodeIdOf (node : Obj .node) : String :=
  (node.metadata.labels.get nodeIdTopologyKey).getD node.name

/-- The node whose zfs-localpv identity is `nodeId`. -/
def nodeById (nodeId : String) : M (Option (Obj .node)) := do
  let named ← getOpt .node ⟨"", nodeId⟩
  -- A node named like the id but overridden by a label is not a match.
  match named.filter fun n => nodeIdOf n == nodeId with
  | some n => pure (some n)
  | none => return (← listObjs .node {}).find? fun n => nodeIdOf n == nodeId

def nodeIsReady (node : Obj .node) : Bool :=
  let data : Node := node.data
  (data.conditions.any fun c => c.type_ == "Ready" && c.status == "True") &&
    !data.unschedulable.getD false

def nodeHasEvacuateTaint (node : Obj .node) (taintKey : String) : Bool :=
  let data : Node := node.data
  data.taints.any (·.key == taintKey)

/-- Will the scheduler keep ordinary pods off this node: is it cordoned, or does it carry
the evacuate taint with a hard effect? -/
def nodeRepelsPods (node : Obj .node) (taintKey : String) : Bool :=
  let data : Node := node.data
  data.unschedulable.getD false ||
    data.taints.any fun t =>
      t.key == taintKey && (t.effect == "NoSchedule" || t.effect == "NoExecute")

/-- Claims a pod references: plain ones, and those of generic ephemeral volumes under
their derived name. -/
def podPvcNames (pod : Obj .pod) : List String :=
  let data : Pod := pod.data
  data.volumes.filterMap fun v =>
    match v.persistentVolumeClaim with
    | some claim => some claim
    | none => if v.ephemeral then some (pod.name ++ "-" ++ v.name) else none

def podReferencesPvc (pvcName : String) (pod : Obj .pod) : Bool :=
  (podPvcNames pod).any (· == pvcName)

/-- Terminating and completed pods count: the object is the only unmount signal. -/
def podsReferencingPvc (ns pvcName : String) : M (List (Obj .pod)) := do
  return (← listObjs .pod { ns := some ns }).filter (podReferencesPvc pvcName)

def podIsScheduled (pod : Obj .pod) : Bool :=
  let data : Pod := pod.data
  data.nodeName.any (· ≠ "")

/-- Never-scheduled pods in the order of their names. -/
def unscheduledPods (pods : List (Obj .pod)) : List (Obj .pod) :=
  (pods.filter fun p => !podIsScheduled p).foldr (fun p sorted =>
    sorted.takeWhile (fun q => q.name < p.name) ++
      p :: sorted.dropWhile (fun q => q.name < p.name)) []

def podNames (pods : List (Obj .pod)) : List String := pods.map Obj.name

def blockingPodsMessage (pods : List (Obj .pod)) : String :=
  let scheduled := pods.filter podIsScheduled
  let unscheduled := pods.filter fun p => !podIsScheduled p
  let names : List (Obj .pod) → String := fun v => ", ".intercalate (podNames v)
  let waiting := if scheduled.isEmpty then []
    else ["waiting for pods to release PVC: " ++ names scheduled]
  let holding := if unscheduled.isEmpty then []
    else ["never-scheduled pods predate the lock and hold it open: " ++ names unscheduled ++
      " (delete them; the attach-lock denies recreation until the volume has moved)"]
  "; ".intercalate (waiting ++ holding)

/-! ## Target-side resources -/

/-- Point a volume's spec at the target: its node and pool, and no clone origin. -/
def adaptToTarget (info : VolumeInfo) (target : TargetInfo) : VolumeInfo :=
  { info with ownerNodeId := target.nodeId, poolName := target.pool, snapname := none }

/-- The ZFSVolume of the received dataset on the target, used to adopt it and, on abort, to
have its agent destroy it. -/
def targetZfsvolume (cfg : Config) (info : VolumeInfo) (target : TargetInfo) :
    Obj .zfsVolume where
  metadata :=
    { ns := cfg.openebsNs, name := target.newVolumeHandle
      labels := [(nodeNameLabel, target.nodeId)] }
  data := ({ spec := adaptToTarget info target
             status := some { state := some zfsStatusPending } } : ZFSVolume)

/-! ## Attach-lock parameters -/

/-- Read-modify-write the parameter object, again on a conflict and at most `tries` times.
`mutate` says whether a write is needed. -/
def updateParams (mutate : EvacuationParamsSpec → EvacuationParamsSpec × Bool) : Nat → M Unit
  | 0 => throw (.other ("persistent conflict updating " ++ paramsName))
  | tries + 1 => do
    match ← getOpt .params ⟨"", paramsName⟩ with
    | none =>
      if !(mutate {}).2 then pure ()
      else match ← send (.create .params ⟨{ name := paramsName }, (mutate {}).1⟩) with
        | .ok () => pure ()
        | .error .conflict => updateParams mutate tries
        | .error e => throw (.api e)
    | some ⟨m, (spec : EvacuationParamsSpec)⟩ =>
      if !(mutate spec).2 then pure ()
      else match ← send (.replace .params ⟨m, (mutate spec).1⟩) with
        | .ok () => pure ()
        | .error .conflict => updateParams mutate tries
        | .error e => throw (.api e)

def lockKey (key : String) (mode : EvacuationMode) : M Unit :=
  updateParams (fun p => p.lock key mode) 8

def unlockKey (key : String) : M Unit := updateParams (fun p => p.unlock key) 8

def PvcRef.lockKey (r : PvcRef) : String := r.ns ++ "/" ++ r.name

def PvcRef.key (r : PvcRef) : Key := ⟨r.ns, r.name⟩

/-- Merge-patch an object's finalizers if `f` changes them. -/
def setFinalizers (k : Kind) (key : Key) (f : List String → List String) : M Unit := do
  match ← getOpt k key with
  | none => pure ()
  | some o =>
    if f o.metadata.finalizers ≠ o.metadata.finalizers then
      patchObj k key (.finalizers (f o.metadata.finalizers))
    else pure ()

/-- If the node that should process a finalizer of zfs-localpv is gone, take the finalizer
off: the disk left with the node. -/
def stripZfsFinalizerIfNodeGone (k : Kind) (key : Key) (nodeId : String) : M Unit := do
  match ← nodeById nodeId with
  | some _ => pure ()
  | none => setFinalizers k key fun cur => cur.filter (· ≠ zfsFinalizer)

end ZfsEvacuation
