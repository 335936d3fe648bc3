import ZfsEvacuation.EvacuationTypes
import ZfsEvacuation.KeyedStore
import ZfsEvacuation.ClientProgram
import Mathlib.Logic.Function.Basic

/-!
# The API server and the calls of the controller

Objects of all kinds live in one world, together with what the controller process keeps
in memory. Writes go through the API server: a create refuses an existing name, a delete
of an object with finalizers only marks it, and an object that is marked disappears with
its last finalizer. Every stored version of a ZFSEvacuation is remembered, because a
reconcile may start from an older one.
-/
namespace ZfsEvacuation
open ClientProgram

inductive Kind where
  | pv | pvc | pod | node | storageClass | zfsVolume | zfsSnapshot | zfsBackup | zfsRestore
  | zfsNode | evacuation | params
  deriving DecidableEq, Repr

def Kind.Data : Kind → Type
  | .pv => PersistentVolume
  | .pvc => PersistentVolumeClaim
  | .pod => Pod
  | .node => Node
  | .storageClass => StorageClass
  | .zfsVolume => ZFSVolume
  | .zfsSnapshot => ZFSSnapshot
  | .zfsBackup => ZFSBackup
  | .zfsRestore => ZFSRestore
  | .zfsNode => ZFSNode
  | .evacuation => ZFSEvacuation
  | .params => EvacuationParamsSpec

structure Obj (k : Kind) where
  metadata : ObjectMeta
  data : k.Data

namespace Obj
variable {k : Kind}

def key (o : Obj k) : Key := o.metadata.key

def name (o : Obj k) : String := o.metadata.name

def deleting (o : Obj k) : Bool := o.metadata.deletionTimestamp.isSome

/-- Marked for deletion with no finalizer left. -/
def gone (o : Obj k) : Bool := o.deleting && o.metadata.finalizers.isEmpty

/-- The object under a new resource version. -/
def stamped (o : Obj k) (revision : Nat) : Obj k :=
  { o with metadata := { o.metadata with resourceVersion := revision } }

/-- The object as it is stored first: with an identity, and not being deleted. -/
def born (o : Obj k) (uid : Uid) : Obj k :=
  { o with metadata := { o.metadata with uid, deletionTimestamp := none } }

/-- The object with its deletion requested. -/
def marked (o : Obj k) (timestamp : Nat) : Obj k :=
  { o with metadata := { o.metadata with deletionTimestamp := some timestamp } }

end Obj

/-- An API error, by the status codes the controller tells apart. -/
inductive ApiError where
  | notFound | conflict
  | failed (text : String)
  deriving DecidableEq, Repr

def ApiError.text : ApiError → String
  | .notFound => "not found"
  | .conflict => "conflict"
  | .failed text => text

/-- The parts of an object that the controller's merge patches set. -/
inductive Patch : Kind → Type where
  | finalizers {k : Kind} (finalizers : List String) : Patch k
  | label {k : Kind} (key : String) (value : Option String) : Patch k
  | annotate {k : Kind} (key : String) (value : Option String) : Patch k
  | reclaimPolicy (policy : String) : Patch .pv
  | status (status : ZFSEvacuationStatus) : Patch .evacuation

def setEntry (m : StrMap) (key : String) (value : Option String) : StrMap :=
  match value with
  | some v => m.insert key v
  | none => m.erase key

/-- Merge-patching a status replaces it, except that `followed` is left out of the patch
when it is absent and then keeps its stored value. -/
def mergeStatus (old : Option ZFSEvacuationStatus) (new : ZFSEvacuationStatus) :
    ZFSEvacuationStatus :=
  match old.bind (·.colocation), new.colocation with
  | some o, some n =>
    { new with colocation := some { n with followed := n.followed.or o.followed } }
  | _, _ => new

def Patch.apply {k : Kind} (p : Patch k) (o : Obj k) : Obj k :=
  match p, o with
  | .finalizers fs, o => { o with metadata := { o.metadata with finalizers := fs } }
  | .label key value, o =>
    { o with metadata := { o.metadata with labels := setEntry o.metadata.labels key value } }
  | .annotate key value, o =>
    { o with
      metadata := { o.metadata with annotations := setEntry o.metadata.annotations key value } }
  | .reclaimPolicy policy, ⟨m, (pv : PersistentVolume)⟩ =>
    ⟨m, ({ pv with spec := pv.spec.map fun s =>
      { s with persistentVolumeReclaimPolicy := some policy } } : PersistentVolume)⟩
  | .status st, ⟨m, (evac : ZFSEvacuation)⟩ =>
    ⟨m, ({ evac with status := some (mergeStatus evac.status st) } : ZFSEvacuation)⟩

/-- What a list call is restricted to. -/
structure Selector where
  ns : Option String := none
  label : Option (String × String) := none

def Selector.selects {k : Kind} (sel : Selector) (o : Obj k) : Bool :=
  (sel.ns.all (· == o.metadata.ns)) &&
    sel.label.all fun kv => o.metadata.labels.get kv.1 == some kv.2

/-! ## The controller's memory -/

inductive IpAddr where
  | v4 (addr : BitVec 32)
  | v6 (addr : BitVec 128)
  deriving DecidableEq, Repr

structure IpNet where
  addr : IpAddr
  prefixLength : Nat
  deriving DecidableEq, Repr

/-- A relay as the state machine sees it: its ports and the counters its task updates. -/
structure Relay where
  backupPort : Nat
  restorePort : Nat
  bytes : Nat := 0
  lastActivity : Nat := 0
  taskFinished : Bool := false
  sourceConnected : Bool := false
  deriving DecidableEq, Repr

structure ActiveTransfer where
  evac : String
  attempt : Nat
  relay : Relay
  deriving DecidableEq, Repr

/-! ## Calls -/

/-- Everything a reconcile asks of its surroundings: the API server, the clock, the random
source, the relay and the memory shared by the reconciles of the process. -/
inductive Call where
  | get (k : Kind) (key : Key)
  | list (k : Kind) (sel : Selector)
  | create (k : Kind) (o : Obj k)
  | replace (k : Kind) (o : Obj k)
  | delete (k : Kind) (key : Key)
  | patch (k : Kind) (key : Key) (p : Patch k)
  | now
  | random (bound : Nat)
  | spawnRelay (backupPeers restorePeers : List IpNet)
  | transferGet (evac : String)
  | transferInsert (t : ActiveTransfer)
  | transferRemove (evac : String)
  | lockSelection
  | unlockSelection

/-- Times are in nanoseconds since the epoch. -/
def Call.Resp : Call → Type
  | .get k _ => Except ApiError (Option (Obj k))
  | .list k _ => Except ApiError (List (Obj k))
  | .create .. | .replace .. | .delete .. | .patch .. => Except ApiError Unit
  | .now => Nat
  | .random _ => Nat
  | .spawnRelay .. => Except String Relay
  | .transferGet _ => Option ActiveTransfer
  | .transferInsert _ | .transferRemove _ | .lockSelection | .unlockSelection => Unit

abbrev kubeInterface : Interface := ⟨Call, Call.Resp⟩

/-- The call goes to the API server; all others stay within the controller process. -/
def Call.remote : Call → Bool
  | .get .. | .list .. | .create .. | .replace .. | .delete .. | .patch .. => true
  | _ => false

/-! ## The world -/

abbrev ObjStore (k : Kind) := KeyedStore Key (Obj k) Obj.key

structure World where
  objects : (k : Kind) → ObjStore k := fun _ => ∅
  /-- Next identity and resource version. -/
  revision : Nat := 1
  /-- Stored versions of the ZFSEvacuations, oldest first. -/
  versions : List (Obj .evacuation) := []
  now : Nat := 0
  transfers : KeyedStore String ActiveTransfer ActiveTransfer.evac := ∅
  selectionLocked : Bool := false

def asEvacuation : {k : Kind} → Obj k → Option (Obj .evacuation)
  | .evacuation, o => some o
  | _, _ => none

namespace World
variable {k : Kind}

def get (w : World) (k : Kind) (key : Key) : Option (Obj k) := (w.objects k).get key

def list (w : World) (k : Kind) (sel : Selector) : List (Obj k) :=
  (w.objects k).items.filter sel.selects

/-- Store a version of an object under a new resource version. -/
def store (w : World) (o : Obj k) : World :=
  { w with
    objects := Function.update w.objects k ((w.objects k).put (o.stamped w.revision))
    revision := w.revision + 1
    versions := w.versions ++ (asEvacuation (o.stamped w.revision)).toList }

def remove (w : World) (k : Kind) (key : Key) : World :=
  { w with objects := Function.update w.objects k ((w.objects k).erase key) }

/-- Store the new content of an object, or let it go if it is marked for deletion and has
no finalizer left. -/
def update (w : World) (o : Obj k) : World :=
  if o.gone then w.remove k o.key else w.store o

def create (w : World) (o : Obj k) : Except ApiError Unit × World :=
  match w.get k o.key with
  | some _ => (.error .conflict, w)
  | none => (.ok (), w.store (o.born w.revision))

def replace (w : World) (o : Obj k) : Except ApiError Unit × World :=
  match w.get k o.key with
  | none => (.error .notFound, w)
  | some cur =>
    if cur.metadata.resourceVersion = o.metadata.resourceVersion then (.ok (), w.update o)
    else (.error .conflict, w)

def delete (w : World) (k : Kind) (key : Key) : Except ApiError Unit × World :=
  match w.get k key with
  | none => (.error .notFound, w)
  | some o => if o.deleting then (.ok (), w) else (.ok (), w.update (o.marked (w.now / 10 ^ 9)))

def patch (w : World) (k : Kind) (key : Key) (p : Patch k) : Except ApiError Unit × World :=
  match w.get k key with
  | none => (.error .notFound, w)
  | some o => (.ok (), w.update (p.apply o))

end World

end ZfsEvacuation
