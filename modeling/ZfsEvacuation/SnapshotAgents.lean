import ZfsEvacuation.TransferNames

/-!
# The node agents and their snapshots

The received stream recreates the transfer snapshot in the dataset on the target, where only the
node agent can destroy it. The cleanup has it done through a ZFSSnapshot of the same name.
-/
namespace ZfsEvacuation
open ClientProgram Program GuardedRun

/-! ## The agents and the datasets -/

/-- A snapshot of a dataset. -/
structure Snapshot where
  dataset : String
  name : String
  deriving DecidableEq, Repr

/-- The snapshot that the agent takes a ZFSSnapshot for. -/
def snapshotOf (cr : Obj .zfsSnapshot) : Option Snapshot :=
  (cr.metadata.labels.get zfsVolLabel).map fun dataset => ⟨dataset, cr.name⟩

def addZfs (cur : List String) : List String :=
  if cur.contains zfsFinalizer then cur else cur ++ [zfsFinalizer]

/-- A ZFSSnapshot that the agent has processed: its finalizer comes with the state. -/
def registered : Obj .zfsSnapshot → Obj .zfsSnapshot
  | ⟨m, (snap : ZFSSnapshot)⟩ => ⟨{ m with finalizers := addZfs m.finalizers },
      ({ snap with status := some { state := some zfsStatusReady } } : ZFSSnapshot)⟩

def released (cr : Obj .zfsSnapshot) : Obj .zfsSnapshot :=
  { cr with metadata := { cr.metadata with finalizers := stripZfs cr.metadata.finalizers } }

/-- The system together with the snapshots that exist in all datasets. -/
structure Cluster where
  system : System
  snapshots : List Snapshot := []

inductive ClusterAction where
  | sys (a : SysAction)
  /-- A stream is received into a dataset, with the snapshot it was made of. -/
  | receive (x : Snapshot)
  /-- A snapshot goes with its dataset, or somebody destroys it. -/
  | lose (x : Snapshot)
  /-- The agent creates the snapshot of a ZFSSnapshot, unless it exists. -/
  | create (name : String)
  /-- The agent puts its finalizer on a ZFSSnapshot whose snapshot exists. -/
  | register (name : String)
  /-- The agent destroys the snapshot of a ZFSSnapshot that is being deleted. -/
  | destroy (name : String)
  /-- The agent takes its finalizer off, once the snapshot does not exist. -/
  | release (name : String)

namespace Cluster
variable {cfg : Config} {c c' : Cluster} {a : ClusterAction} {n : String}

def snapKey (cfg : Config) (name : String) : Key := ⟨cfg.openebsNs, name⟩

/-- The ZFSSnapshot of this name, with the snapshot it is for. -/
def snapshotCr (cfg : Config) (c : Cluster) (name : String) :
    Option (Obj .zfsSnapshot × Snapshot) :=
  (c.system.world.get .zfsSnapshot (snapKey cfg name)).bind fun cr =>
    (snapshotOf cr).map fun x => (cr, x)

/-- The agent updates a ZFSSnapshot. -/
def updated (c : Cluster) (cr : Obj .zfsSnapshot) : Cluster :=
  { c with system :=
      { c.system with world := c.system.world.env (.update .zfsSnapshot cr) } }

def step (cfg : Config) (c : Cluster) : ClusterAction → Option Cluster
  | .sys a => (System.step cfg c.system a).map fun s => { c with system := s }
  | .receive x => some { c with snapshots := x :: c.snapshots }
  | .lose x => some { c with snapshots := c.snapshots.filter (· ≠ x) }
  | .create name => (snapshotCr cfg c name).bind fun (cr, x) =>
    if cr.deleting then none else some { c with snapshots := x :: c.snapshots }
  | .register name => (snapshotCr cfg c name).bind fun (cr, x) =>
    if cr.deleting ∨ x ∉ c.snapshots then none else some (c.updated (registered cr))
  | .destroy name => (snapshotCr cfg c name).bind fun (cr, x) =>
    if cr.deleting ∧ zfsFinalizer ∈ cr.metadata.finalizers then
      some { c with snapshots := c.snapshots.filter (· ≠ x) }
    else none
  | .release name => (snapshotCr cfg c name).bind fun (cr, x) =>
    if cr.deleting ∧ zfsFinalizer ∈ cr.metadata.finalizers ∧ x ∉ c.snapshots then
      some (c.updated (released cr))
    else none

def init : Cluster := { system := System.init }

/-- One step, by its kind. -/
inductive Step (cfg : Config) (c : Cluster) : ClusterAction → Cluster → Prop
  | sys (a : SysAction) (s' : System) (h : System.step cfg c.system a = some s') :
      Step cfg c (.sys a) { c with system := s' }
  | receive (x : Snapshot) : Step cfg c (.receive x) { c with snapshots := x :: c.snapshots }
  | lose (x : Snapshot) :
      Step cfg c (.lose x) { c with snapshots := c.snapshots.filter (· ≠ x) }
  | create (name : String) (cr : Obj .zfsSnapshot) (x : Snapshot)
      (stored : c.system.world.get .zfsSnapshot (snapKey cfg name) = some cr)
      (names : snapshotOf cr = some x) :
      Step cfg c (.create name) { c with snapshots := x :: c.snapshots }
  | register (name : String) (cr : Obj .zfsSnapshot)
      (stored : c.system.world.get .zfsSnapshot (snapKey cfg name) = some cr)
      (live : cr.deleting = false) : Step cfg c (.register name) (c.updated (registered cr))
  | destroy (name : String) (x : Snapshot) :
      Step cfg c (.destroy name) { c with snapshots := c.snapshots.filter (· ≠ x) }
  | release (name : String) (cr : Obj .zfsSnapshot) (x : Snapshot)
      (stored : c.system.world.get .zfsSnapshot (snapKey cfg name) = some cr)
      (names : snapshotOf cr = some x) (deleting : cr.deleting = true) (gone : x ∉ c.snapshots) :
      Step cfg c (.release name) (c.updated (released cr))

theorem snapshotCr_some {name : String} {cr : Obj .zfsSnapshot} {x : Snapshot}
    (h : snapshotCr cfg c name = some (cr, x)) :
    c.system.world.get .zfsSnapshot (snapKey cfg name) = some cr ∧ snapshotOf cr = some x := by
  obtain ⟨cr', hget, hmap⟩ := Option.bind_eq_some_iff.mp h
  obtain ⟨x', hx, heq⟩ := Option.map_eq_some_iff.mp hmap
  obtain ⟨rfl, rfl⟩ := Prod.mk.inj heq
  exact ⟨hget, hx⟩

theorem step_cases (h : step cfg c a = some c') : Step cfg c a c' := by
  cases a with
  | sys a =>
    obtain ⟨s', hs, rfl⟩ := Option.map_eq_some_iff.mp h
    exact .sys a s' hs
  | receive x =>
    obtain rfl := Option.some.inj h
    exact .receive x
  | lose x =>
    obtain rfl := Option.some.inj h
    exact .lose x
  | create name =>
    obtain ⟨⟨cr, x⟩, hcr, hnext⟩ := Option.bind_eq_some_iff.mp h
    obtain ⟨hget, hx⟩ := snapshotCr_some hcr
    simp only at hnext
    split_ifs at hnext
    obtain rfl := Option.some.inj hnext
    exact .create name cr x hget hx
  | register name =>
    obtain ⟨⟨cr, x⟩, hcr, hnext⟩ := Option.bind_eq_some_iff.mp h
    obtain ⟨hget, hx⟩ := snapshotCr_some hcr
    simp only at hnext
    split_ifs at hnext with hcond
    obtain rfl := Option.some.inj hnext
    exact .register name cr hget (by simpa using (not_or.mp hcond).1)
  | destroy name =>
    obtain ⟨⟨cr, x⟩, hcr, hnext⟩ := Option.bind_eq_some_iff.mp h
    simp only at hnext
    split_ifs at hnext
    obtain rfl := Option.some.inj hnext
    exact .destroy name x
  | release name =>
    obtain ⟨⟨cr, x⟩, hcr, hnext⟩ := Option.bind_eq_some_iff.mp h
    obtain ⟨hget, hx⟩ := snapshotCr_some hcr
    simp only at hnext
    split_ifs at hnext with hcond
    obtain rfl := Option.some.inj hnext
    exact .release name cr x hget hx hcond.1 hcond.2.2

end Cluster

/-! ## What the surroundings keep to -/

/-- There is no node of this identity. -/
def NodeGone (w : World) (nodeId : String) : Prop := ∀ x ∈ w.list .node {}, nodeIdOf x ≠ nodeId

namespace System
variable {cfg : Config} {s s' : System} {a : SysAction} {n : String}

/-- Nobody brings back the target node or the target volume of a cleanup once it is gone. -/
def Unreturned (cfg : Config) (s : System) : SysAction → Prop
  | .env e => ∀ q ∈ records s, q.2.phase = .cleaningUp → ∀ target, q.2.target = some target →
    (NodeGone s.world target.nodeId → NodeGone (s.world.env e) target.nodeId) ∧
      (s.world.get .zfsVolume (target.volKey cfg) = none →
        (s.world.env e).get .zfsVolume (target.volKey cfg) = none)
  | _ => True

/-- ZFSSnapshots under the name of a transfer are left to the controller and the agents. -/
def OwnSnaps (cfg : Config) (s : System) : SysAction → Prop
  | .env (.create .zfsSnapshot o) | .env (.update .zfsSnapshot o) =>
    ∀ q ∈ records s, ∀ t, q.2.transfer = some t → o.key ≠ t.snapKey cfg
  | _ => True

/-- What the users of the API server keep to: the status of an evacuation is left to the
controller, whose reconciles start from what is stored; the resources of a transfer are left to
the controller and the agents; what a cleanup finds gone does not come back; and no two
evacuations move to one dataset. -/
structure Attended (cfg : Config) (s : System) (a : SysAction) : Prop where
  status : StatusCurrent s a
  crs : ∀ n, OwnCrs cfg n a
  snaps : OwnSnaps cfg s a
  unreturned : Unreturned cfg s a
  handles : Fresh handleOf s a

/-- An attempt is recorded with a snapshot name that no other evacuation has on record and under
which no ZFSSnapshot is stored. -/
structure OwnSnapName (cfg : Config) (s : System) (a : SysAction) : Prop where
  fresh : Fresh snapNameOf s a
  unused : NameUnused cfg s a

end System

namespace Cluster
variable {cfg : Config} {c c' : Cluster} {a : ClusterAction} {n : String}

/-- The copy of the transfer snapshot on the target. -/
def copyOf (t : TransferStatus) (target : TargetInfo) : Snapshot :=
  ⟨target.newVolumeHandle, t.snapName⟩

/-- No stream is received for an evacuation any more that is in its cleanup. -/
def Attended (cfg : Config) (c : Cluster) : ClusterAction → Prop
  | .sys a => System.Attended cfg c.system a
  | .receive x => ∀ q ∈ c.system.records, q.2.phase = .cleaningUp → ∀ t, q.2.transfer = some t →
    ∀ target, q.2.target = some target → x ≠ copyOf t target
  | _ => True

def OwnSnapNames (cfg : Config) (c : Cluster) : ClusterAction → Prop
  | .sys a => System.OwnSnapName cfg c.system a
  | _ => True

end Cluster

end ZfsEvacuation
