import ZfsEvacuation.TargetSelection
import Mathlib.Data.List.Dedup

/-!
# Co-location groups

The never-scheduled consumer of a locked claim defines the volumes that must land on one
node, and that node is the one where any of them already has a home.
-/
namespace ZfsEvacuation

/-- A sibling that already has, or is committed to, a node off the source. -/
structure Anchor where
  /-- Node name or node id. -/
  node : String
  pvName : String
  how : String
  deriving DecidableEq, Repr

structure Group where
  /-- "namespace/name" of the consumer. -/
  pod : String
  placement : Placement
  /-- Volumes still on the source that no sibling evacuation has placed yet. -/
  members : List ColocationMember
  anchor : Option Anchor

/-- What one claim of the consumer contributes to the group. -/
inductive Contribution where
  | member (m : ColocationMember)
  | anchor (a : Anchor)

def tally (nodes : List String) : List (String × Nat) :=
  nodes.dedup.map fun n => (n, nodes.count n)

/-- The vote with the larger count, of equal counts the one for the smaller name. -/
def greaterVote (a b : String × Nat) : String × Nat :=
  if a.2 < b.2 then b else if b.2 < a.2 then a else if a.1 < b.1 then a else b

def maxVote : List (String × Nat) → Option (String × Nat)
  | [] => none
  | v :: vs => some (vs.foldl greaterVote v)

/-- Siblings that disagree are followed by majority, ties by node string. -/
def pickAnchor (anchors : List Anchor) : Option Anchor :=
  match maxVote (tally (anchors.map (·.node))) with
  | none => none
  | some best => anchors.find? fun a => a.node = best.1

/-- A sibling evacuation that still stands for the volume: not over and not aborting. -/
def activeSibling (e : Obj .evacuation) : Bool :=
  !(statusOf e).any fun st =>
    st.phase = .completed ∨ st.phase = .failed ∨ st.phase = .aborting

def volumeCapacity (info : VolumeInfo) : Nat :=
  ((info.capacity.bind parseQuantityOrBytes).getD 0) % 2 ^ 64

/-- Where a sibling of this ZFSVolume is anchored, given its evacuation, if any. -/
def contributionOf (memberPv sourceNodeId : String) (info : VolumeInfo)
    (sibling : Option (Obj .evacuation)) : Contribution :=
  let sibling := sibling.filter activeSibling
  match sibling.bind fun e => (specOf e).targetNode with
  | some node => .anchor ⟨node, memberPv, "spec.targetNode"⟩
  | none =>
    match sibling.bind fun e => (statusOf e).bind (·.target) with
    | some t => .anchor ⟨t.nodeId, memberPv, "status.target"⟩
    | none =>
      if info.ownerNodeId ≠ sourceNodeId then
        .anchor ⟨info.ownerNodeId, memberPv, "ZFSVolume owner"⟩
      else .member ⟨memberPv, volumeCapacity info⟩

/-- Follow one claim to its volume; a claim that leads to no zfs-localpv volume counts for
nothing. -/
def classifyClaim (cfg : Config) (pvName ns sourceNodeId pvcName : String) :
    M (Option Contribution) := do
  match ← getOpt .pvc ⟨ns, pvcName⟩ with
  | none => pure none
  | some ⟨_, (pvc : PersistentVolumeClaim)⟩ =>
    match pvc.volumeName with
    | none => pure none
    | some memberPv =>
      match ← getOpt .pv ⟨"", memberPv⟩ with
      | none => pure none
      | some pv =>
        match (pvSpec pv).bind (·.csi) with
        | none => pure none
        | some csi =>
          if csi.driver ≠ zfsDriver then pure none
          else match ← getOpt .zfsVolume ⟨cfg.openebsNs, csi.volumeHandle⟩ with
            | none => pure none
            | some ⟨_, (zv : ZFSVolume)⟩ =>
              if memberPv = pvName then
                pure (some (.member ⟨memberPv, volumeCapacity zv.spec⟩))
              else
                let sibling ← getOpt .evacuation ⟨"", memberPv⟩
                pure (some (contributionOf memberPv sourceNodeId zv.spec sibling))

def classifyClaims (cfg : Config) (pvName ns sourceNodeId : String) :
    List String → M (List Contribution)
  | [] => pure []
  | claim :: claims => do
    let c ← classifyClaim cfg pvName ns sourceNodeId claim
    let cs ← classifyClaims cfg pvName ns sourceNodeId claims
    pure (c.toList ++ cs)

def membersOf (cs : List Contribution) : List ColocationMember :=
  cs.filterMap fun
    | .member m => some m
    | .anchor _ => none

def anchorsOf (cs : List Contribution) : List Anchor :=
  cs.filterMap fun
    | .anchor a => some a
    | .member _ => none

/-- The group of `pvName`; none when no never-scheduled consumer exists. -/
def resolve (cfg : Config) (pvName : String) (pvcRef : PvcRef) (sourceNodeId : String)
    (pods : List (Obj .pod)) : M (Option Group) :=
  match (unscheduledPods pods).head? with
  | none => pure none
  | some pod => do
    let cs ← classifyClaims cfg pvName pvcRef.ns sourceNodeId (podPvcNames pod)
    pure (some
      { pod := pvcRef.ns ++ "/" ++ pod.name
        placement := Placement.fromPod pod
        members := membersOf cs
        anchor := pickAnchor (anchorsOf cs) })

end ZfsEvacuation
