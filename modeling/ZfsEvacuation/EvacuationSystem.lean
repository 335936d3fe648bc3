import ZfsEvacuation.WorldFacts
import ZfsEvacuation.StateMachine
import ZfsEvacuation.GuardedRun

/-!
# The controller and its surroundings

Reconciles of different evacuations interleave call by call with each other and with
everybody else who uses the API server. A call may fail without or in spite of having
taken effect, and the controller may crash between any two calls. No two reconciles of
one evacuation run at once, and a reconcile starts from a version of its ZFSEvacuation
that is not older than the one before it started from.
-/
namespace ZfsEvacuation
open ClientProgram Program

/-- A call may be lost on its way, or take effect without being answered. -/
inductive Fault where
  | none | lost | unacked
  deriving DecidableEq, Repr

/-- What the surroundings choose about one call. -/
structure Outcome where
  fault : Fault := .none
  text : String := ""
  random : Nat := 0
  relay : Relay := ⟨1, 2, 0, 0, false, false⟩

namespace Outcome

def read {α : Type} (o : Outcome) (a : α) : Except ApiError α :=
  match o.fault with
  | .none => .ok a
  | _ => .error (.failed o.text)

def write (o : Outcome) (r : Except ApiError Unit) : Except ApiError Unit :=
  match o.fault with
  | .none => r
  | _ => .error (.failed o.text)

end Outcome

namespace World

/-- The answer to a call that is made in this world. -/
def answer (w : World) (o : Outcome) : (c : Call) → c.Resp
  | .get k key => o.read (w.get k key)
  | .list k sel => o.read (w.list k sel)
  | .create _ obj => o.write (w.create obj).1
  | .replace _ obj => o.write (w.replace obj).1
  | .delete k key => o.write (w.delete k key).1
  | .patch k key p => o.write (w.patch k key p).1
  | .now => w.now
  | .random bound => (o.random % bound : Nat)
  | .spawnRelay .. =>
    match o.fault with
    | .none => (.ok o.relay : Except String Relay)
    | _ => .error o.text
  | .transferGet evac => w.transfers.get evac
  | .transferInsert _ | .transferRemove _ | .lockSelection | .unlockSelection => ()

/-- The world after a call. Only calls to the API server can be lost. -/
def after (w : World) (o : Outcome) (c : Call) : World :=
  if o.fault = .lost ∧ c.remote then w else w.effect c

end World

/-- What everybody else does: users, the scheduler, the node agents, the relay, the clock.
An update keeps the identity of an object and whether it is being deleted. -/
inductive EnvAction where
  | create (k : Kind) (o : Obj k)
  | update (k : Kind) (o : Obj k)
  | delete (k : Kind) (key : Key)
  | tick (nanos : Nat)
  | relay (evac : String) (relay : Relay)

namespace World

/-- New content for a stored object. -/
def edited {k : Kind} (cur o : Obj k) : Obj k :=
  { o with metadata := { o.metadata with
      uid := cur.metadata.uid, deletionTimestamp := cur.metadata.deletionTimestamp } }

def env (w : World) : EnvAction → World
  | .create _ o => (w.create o).2
  | .update k o =>
    match w.get k o.key with
    | none => w
    | some cur => w.update (edited cur o)
  | .delete k key => (w.delete k key).2
  | .tick nanos => { w with now := w.now + nanos }
  | .relay evac relay =>
    match w.transfers.get evac with
    | none => w
    | some t => { w with transfers := w.transfers.put { t with relay } }

end World

/-- A reconcile in progress. -/
structure Running where
  view : Obj .evacuation
  trace : List (Event kubeInterface) := []
  prog : M Action

structure System where
  world : World
  running : KeyedStore String Running (·.view.name) := ∅
  /-- For each evacuation, the version its last reconcile started from. -/
  seen : String → Nat := fun _ => 0

inductive SysAction where
  | env (e : EnvAction)
  /-- Start a reconcile of an evacuation on one of the stored versions. -/
  | start (name : String) (version : Nat)
  /-- Let a reconcile make its next call. -/
  | call (name : String) (o : Outcome)
  | crash

namespace System

/-- A reconcile that is over is not kept. -/
def proceed (s : System) (r : Running) : System :=
  { s with running :=
      if r.prog.finished then s.running.erase r.view.name else s.running.put r }

/-- Only one reconcile at a time is in target selection. -/
def blocks (w : World) : Call → Bool
  | .lockSelection => w.selectionLocked
  | _ => false

def step (cfg : Config) (s : System) : SysAction → Option System
  | .env e => some { s with world := s.world.env e }
  | .start name version =>
    match s.running.get name, s.world.versions[version]? with
    | none, some view =>
      if view.name = name ∧ s.seen name ≤ version then
        some (proceed { s with seen := Function.update s.seen name version }
          { view, prog := reconcile cfg view })
      else none
    | _, _ => none
  | .call name o =>
    match s.running.get name with
    | none => none
    | some r =>
      match r.prog with
      | .call c next =>
        if blocks s.world c then none
        else some (proceed { s with world := s.world.after o c }
          { r with trace := ⟨c, s.world.answer o c⟩ :: r.trace
                   prog := next (s.world.answer o c) })
      | _ => none
  | .crash => some { s with
      running := ∅
      world := { s.world with transfers := ∅, selectionLocked := false } }

end System

/-! ## A small cluster -/

namespace Sample

def config : Config := { podIp := "10.0.0.9" }

def node (name ip : String) : Obj .node :=
  ⟨{ name }, ({ conditions := [⟨"Ready", "True"⟩], addresses := [⟨"InternalIP", ip⟩] } : Node)⟩

def zfsNode (name : String) : Obj .zfsNode :=
  ⟨{ ns := "openebs", name }, ({ pools := [{ name := "tank", free := some "100Gi" }] } : ZFSNode)⟩

/-- A PV for the claim of the same number in the namespace d. -/
def pv (name claim handle : String) (annotations : StrMap) : Obj .pv :=
  ⟨{ name, annotations },
    ({ spec := some
         { claimRef := some { ns := some "d", name := some claim }
           persistentVolumeReclaimPolicy := some "Delete"
           csi := some { driver := zfsDriver, volumeHandle := handle } }
       phase := some "Bound" } : PersistentVolume)⟩

/-- A PV that the PV controller has bound to the claim with this UID. -/
def boundPv (name claim handle : String) (uid : Uid) : Obj .pv :=
  ⟨{ name },
    ({ spec := some
         { claimRef := some { ns := some "d", name := some claim, uid := some uid }
           csi := some { driver := zfsDriver, volumeHandle := handle } }
       phase := some "Bound" } : PersistentVolume)⟩

def pvc (name pv : String) : Obj .pvc :=
  ⟨{ ns := "d", name }, ({ volumeName := some pv } : PersistentVolumeClaim)⟩

def zfsVolume (name node : String) : Obj .zfsVolume :=
  ⟨{ ns := "openebs", name, finalizers := [zfsFinalizer] },
    ({ spec := { ownerNodeId := node, poolName := "tank", capacity := some "1073741824" }
       status := some { state := some zfsStatusReady } } : ZFSVolume)⟩

def evacuation (name : String) (mode : EvacuationMode) : Obj .evacuation :=
  ⟨{ name }, ({ spec := { pvName := name, mode } } : ZFSEvacuation)⟩

def requested : StrMap := [( evacuateAnnotation, "true")]

/-- Two nodes and one volume to be moved from the first to the second. -/
def setup : List SysAction :=
  [ .env (.create .node (node "n1" "10.0.0.1")), .env (.create .node (node "n2" "10.0.0.2")),
    .env (.create .zfsNode (zfsNode "n2")), .env (.create .pv (pv "pv1" "c1" "vol1" requested)),
    .env (.create .pvc (pvc "c1" "pv1")), .env (.create .zfsVolume (zfsVolume "vol1" "n1")),
    .env (.create .evacuation (evacuation "pv1" .whenIdle)) ]

/-- A PV with its claim and its volume on n1. -/
def volumeOnFirst (i : String) : List SysAction :=
  [ .env (.create .pv (pv ("pv" ++ i) ("c" ++ i) ("vol" ++ i) requested)),
    .env (.create .pvc (pvc ("c" ++ i) ("pv" ++ i))),
    .env (.create .zfsVolume (zfsVolume ("vol" ++ i) "n1")) ]

/-- A volume on n1 that is to be evacuated. -/
def moveOf (i : String) : List SysAction :=
  volumeOnFirst i ++ [.env (.create .evacuation (evacuation ("pv" ++ i) .whenIdle))]

/-- Two nodes and two volumes to be moved from the first to the second. -/
def pairSetup : List SysAction :=
  [ .env (.create .node (node "n1" "10.0.0.1")), .env (.create .node (node "n2" "10.0.0.2")),
    .env (.create .zfsNode (zfsNode "n2")) ] ++ moveOf "1" ++ moveOf "2"

/-- A reconcile from its start on. -/
def reconcileOf (name : String) (version calls : Nat) : List SysAction :=
  .start name version :: List.replicate calls (.call name {})

/-- One reconcile after another, each with the version it starts from and its calls. -/
def reconcilesOf (name : String) (rounds : List (Nat × Nat)) (random : Nat := 0) :
    List SysAction :=
  rounds.flatMap fun r => .start name r.1 :: List.replicate r.2 (.call name { random })

def seconds (n : Nat) : SysAction := .env (.tick (n * 10 ^ 9))

/-- The volume on its way up to the first attempt of its transfer, with both of its
resources created. -/
def toTransfer : List SysAction :=
  setup ++ reconcileOf "pv1" 0 7 ++ reconcileOf "pv1" 2 5 ++ reconcileOf "pv1" 3 4 ++
    reconcileOf "pv1" 4 7 ++ [seconds 100] ++ reconcileOf "pv1" 5 7 ++ [seconds 100] ++
    reconcileOf "pv1" 6 6 ++ reconcileOf "pv1" 7 11 ++ reconcileOf "pv1" 8 11 ++
    [.env (.relay "pv1" ⟨1, 2, 0, 0, false, true⟩)] ++ reconcileOf "pv1" 9 8

/-- What the agent reports about the restore of the first attempt. -/
def restoreReport (name handle node status : String) : SysAction :=
  .env (.update .zfsRestore ⟨{ ns := "openebs", name, finalizers := [zfsFinalizer] },
    ({ spec := ⟨handle, node, "10.0.0.9:2"⟩, status := some status } : ZFSRestore)⟩)

def backupReport (name handle node snapName status : String) : SysAction :=
  .env (.update .zfsBackup ⟨{ ns := "openebs", name, finalizers := [zfsFinalizer] },
    ({ spec := ⟨handle, node, some snapName, none, "10.0.0.9:1"⟩
       status := some status } : ZFSBackup)⟩)

/-- What the agent reports about the volume on the target. -/
def volumeReport (name node state : String) : SysAction :=
  .env (.update .zfsVolume ⟨{ ns := "openebs", name, finalizers := [zfsFinalizer] },
    ({ spec := { ownerNodeId := node, poolName := "tank", capacity := some "1073741824" }
       status := some { state := some state } } : ZFSVolume)⟩)

/-- The name of the dataset on the target, with a random source of zeros. -/
def newHandle : String := "zevac-00000000000000000000000000000000"

/-- The PV controller binds the replacement. -/
def replacementBound : SysAction := .env (.update .pv (boundPv "pv1" "c1" newHandle 5))

/-- The volume with its copy adopted on the target, before the commit. -/
def toCommitting : List SysAction :=
  toTransfer ++
    [ restoreReport "pv1-evacr-a1" newHandle "n2" bkpStatusDone,
      backupReport "pv1-evac-a1" "vol1" "n1" "zevac-a1-0000" bkpStatusDone ] ++
    reconcileOf "pv1" 9 8 ++ reconcileOf "pv1" 10 5 ++
    [volumeReport newHandle "n2" zfsStatusReady] ++ reconcileOf "pv1" 10 4

def phaseOf (s : System) (name : String) : Option Phase :=
  (s.world.get .evacuation ⟨"", name⟩).map fun e => (viewStatus e).phase

end Sample

end ZfsEvacuation
