import Mathlib.Algebra.Order.Ring.Nat
import Mathlib.Tactic.Common

/-!
# Kubernetes objects

The parts of pods, nodes, claims, volumes and storage classes that the controller reads
or writes. Maps are association lists; an absent map reads like an empty one at every
use, so only the optional fields whose absence is observed are options.
-/
namespace ZfsEvacuation

abbrev StrMap := List (String × String)

namespace StrMap

def get (m : StrMap) (k : String) : Option String := m.lookup k

def contains (m : StrMap) (k : String) : Bool := (m.get k).isSome

def erase (m : StrMap) (k : String) : StrMap := m.filter fun kv => kv.1 ≠ k

/-- Overwrite the value of a present key in place, else append. -/
def insert (m : StrMap) (k v : String) : StrMap :=
  match m with
  | [] => [(k, v)]
  | (k', v') :: rest => if k' = k then (k, v) :: rest else (k', v') :: insert rest k v

end StrMap

/-- Object identities handed out by the API server, never reused. -/
abbrev Uid := Nat

structure ObjectMeta where
  ns : String := ""
  name : String
  uid : Uid := 0
  resourceVersion : Nat := 0
  labels : StrMap := []
  annotations : StrMap := []
  finalizers : List String := []
  deletionTimestamp : Option Nat := none
  deriving DecidableEq

/-- Namespace and name; cluster-scoped objects have the empty namespace. -/
structure Key where
  ns : String := ""
  name : String
  deriving DecidableEq, Repr

def ObjectMeta.key (m : ObjectMeta) : Key := ⟨m.ns, m.name⟩

structure Condition where
  type_ : String
  status : String
  deriving DecidableEq, Repr

structure NodeSelectorRequirement where
  key : String
  operator : String
  values : Option (List String) := none
  deriving DecidableEq, Repr

structure NodeSelectorTerm where
  matchExpressions : Option (List NodeSelectorRequirement) := none
  matchFields : Option (List NodeSelectorRequirement) := none
  deriving DecidableEq, Repr

structure Taint where
  key : String
  value : Option String := none
  effect : String
  deriving DecidableEq, Repr

structure Toleration where
  key : Option String := none
  operator : Option String := none
  value : Option String := none
  effect : Option String := none
  deriving DecidableEq, Repr

structure NodeAddress where
  type_ : String
  address : String

structure Node where
  unschedulable : Option Bool := none
  taints : List Taint := []
  podCidr : Option String := none
  podCidrs : List String := []
  addresses : List NodeAddress := []
  conditions : List Condition := []

/-- A pod volume, as far as it can name a claim: a plain claim, or a generic ephemeral
volume. -/
structure Volume where
  name : String
  persistentVolumeClaim : Option String := none
  ephemeral : Bool := false
  deriving DecidableEq, Repr

/-- `requiredDuringSchedulingIgnoredDuringExecution`, the only part that constrains. -/
structure NodeAffinity where
  required : Option (List NodeSelectorTerm) := none

structure Affinity where
  nodeAffinity : Option NodeAffinity := none

structure Pod where
  nodeName : Option String := none
  volumes : List Volume := []
  nodeSelector : StrMap := []
  affinity : Option Affinity := none
  tolerations : List Toleration := []

structure PersistentVolumeClaim where
  volumeName : Option String := none
  conditions : List Condition := []

structure ObjectReference where
  apiVersion : Option String := none
  fieldPath : Option String := none
  kind : Option String := none
  name : Option String := none
  ns : Option String := none
  resourceVersion : Option String := none
  uid : Option Uid := none
  deriving DecidableEq, Repr

/-- `rest` stands for the CSI fields that are only carried along. -/
structure CsiSource where
  driver : String
  volumeHandle : String
  volumeAttributes : Option StrMap := none
  rest : StrMap := []
  deriving DecidableEq, Repr

/-- `rest` stands for the spec fields that are only carried along (capacity, access modes,
mount options and so on). -/
structure PersistentVolumeSpec where
  claimRef : Option ObjectReference := none
  persistentVolumeReclaimPolicy : Option String := none
  nodeAffinity : Option (List NodeSelectorTerm) := none
  csi : Option CsiSource := none
  storageClassName : Option String := none
  rest : StrMap := []
  deriving DecidableEq, Repr

structure PersistentVolume where
  spec : Option PersistentVolumeSpec := none
  phase : Option String := none
  deriving DecidableEq, Repr

structure TopologyRequirement where
  key : String
  values : List String

structure StorageClass where
  parameters : StrMap := []
  allowedTopologies : Option (List (List TopologyRequirement)) := none

end ZfsEvacuation
