import ZfsEvacuation.JsonValues
import ZfsEvacuation.ApiServer
import ZfsEvacuation.Quantity

/-!
# The status of an evacuation as a document

A status write sends the whole status as a merge patch. It replaces the stored status as far as
every field is written, an absent one as null. `followed` is left out when it is absent.
-/
namespace ZfsEvacuation
open Json

/-! ## Numbers -/

def digits (text : List Char) : Option Nat :=
  if text ≠ [] ∧ text.all isAsciiDigit then some (digitsValue text) else none

def uint {w : Nat} (n : BitVec w) : Json := .num (toString n.toNat)

def asUint (w : Nat) : Json → Option (BitVec w)
  | .num text => (digits text.toList).bind fun n => if n < 2 ^ w then some (BitVec.ofNat w n) else none
  | _ => none

def sint {w : Nat} (n : BitVec w) : Json := .num (toString n.toInt)

/-- The magnitude of a negative number is at most 2 ^ (w - 1). -/
def asSint (w : Nat) : Json → Option (BitVec w)
  | .num text =>
    match text.toList with
    | '-' :: rest => (digits rest).bind fun n =>
      if n ≤ 2 ^ (w - 1) then some (BitVec.ofInt w (-n)) else none
    | rest => (digits rest).bind fun n =>
      if n < 2 ^ (w - 1) then some (BitVec.ofInt w n) else none
  | _ => none

theorem digits_toString (n : Nat) : digits (toString n).toList = some n := by
  have htext : (toString n).toList = Nat.toDigits 10 n := Nat.toList_repr
  have hall : (Nat.toDigits 10 n).all isAsciiDigit = true :=
    List.all_eq_true.mpr fun c hc =>
      (asciiDigit_of_isDigit (Nat.isDigit_of_mem_toDigits (by omega) (by omega) hc)).1
  rw [digits, htext, if_pos ⟨Nat.toDigits_ne_nil, hall⟩, digitsValue_toDigits]

theorem asUint_uint {w : Nat} (n : BitVec w) : asUint w (uint n) = some n := by
  rw [uint, asUint, digits_toString, Option.bind_some, if_pos n.isLt, BitVec.ofNat_toNat,
    BitVec.setWidth_eq]

theorem asSint_sint {w : Nat} (n : BitVec w) : asSint w (sint n) = some n := by
  have hlow : -2 ^ (w - 1) ≤ n.toInt := BitVec.le_toInt n
  have hhigh : n.toInt < 2 ^ (w - 1) := BitVec.toInt_lt
  cases hn : n.toInt with
  | ofNat m =>
    have hm : m < 2 ^ (w - 1) := by
      rw [hn, Int.ofNat_eq_natCast] at hhigh
      exact_mod_cast hhigh
    have hhead : ∀ rest, (toString m).toList ≠ '-' :: rest := by
      intro rest hrest
      have hminus : '-' ∈ Nat.toDigits 10 m := by
        rw [← Nat.toList_repr (n := m)]
        exact hrest ▸ List.mem_cons_self
      have hdigit := Nat.isDigit_of_mem_toDigits (by omega) (by omega) hminus
      revert hdigit
      decide
    have htext : toString (Int.ofNat m) = toString m := rfl
    rw [sint, hn, htext]
    simp only [asSint]
    rw [digits_toString, Option.bind_some, if_pos hm, ← Int.ofNat_eq_natCast, ← hn,
      BitVec.ofInt_toInt]
  | negSucc m =>
    have hm : m + 1 ≤ 2 ^ (w - 1) := by
      rw [hn, Int.negSucc_eq] at hlow
      have hneg : ((m : Int) + 1) ≤ 2 ^ (w - 1) := by omega
      exact_mod_cast hneg
    have htext : (toString (Int.negSucc m)).toList = '-' :: (toString (m + 1)).toList := by
      show ("-" ++ toString (m + 1)).toList = _
      rw [String.toList_append]
      rfl
    rw [sint, hn]
    simp only [asSint, htext]
    rw [digits_toString, Option.bind_some, if_pos hm]
    have hvalue : (-((m + 1 : Nat) : Int)) = n.toInt := by rw [hn]; rfl
    rw [hvalue, BitVec.ofInt_toInt]

theorem restores_uint (w : Nat) : Restores uint (asUint w) where
  solid _ := Json.noConfusion
  merged _ := asUint_uint

theorem restores_sint (w : Nat) : Restores sint (asSint w) where
  solid _ := Json.noConfusion
  merged _ := asSint_sint

/-! ## The types of the document -/

namespace Wire

structure Condition where
  lastTransitionTime : String
  message : String
  observedGeneration : Option (BitVec 64)
  reason : String
  status : String
  type_ : String

structure PvcRef where
  ns : String
  name : String
  uid : String

structure SourceInfo where
  node : String
  nodeId : String
  pool : String
  volumeHandle : String
  pvUid : String
  capacityBytes : BitVec 64

structure TransferStatus where
  attempt : BitVec 32
  snapName : String
  ports : List (BitVec 16)
  bytesRelayed : Option (BitVec 64)
  startedAt : Option String
  failureReason : Option String
  targetSnapDeleteIssued : Bool

structure ColocationMember where
  pvName : String
  capacityBytes : BitVec 64

structure ColocationStatus where
  pod : String
  members : List ColocationMember
  role : ColocationRole
  followed : Option String

structure ZFSEvacuationStatus where
  phase : Phase := .pending
  conditions : List Condition := []
  observedGeneration : Option (BitVec 64) := none
  message : Option String := none
  pvcRef : Option PvcRef := none
  source : Option SourceInfo := none
  target : Option TargetInfo := none
  originalReclaimPolicy : Option String := none
  oldPvManifest : Option String := none
  newPvManifest : Option String := none
  committed : Bool := false
  cancelled : Bool := false
  transfer : Option TransferStatus := none
  quiescedAt : Option String := none
  lockedAt : Option String := none
  colocation : Option ColocationStatus := none

/-! ## Writing and reading -/

def phaseText : Phase → String
  | .pending => "Pending"
  | .guarding => "Guarding"
  | .retaining => "Retaining"
  | .locking => "Locking"
  | .quiescing => "Quiescing"
  | .targetSelecting => "TargetSelecting"
  | .transferring => "Transferring"
  | .adopting => "Adopting"
  | .committing => "Committing"
  | .swapping => "Swapping"
  | .cleaningUp => "CleaningUp"
  | .completed => "Completed"
  | .aborting => "Aborting"
  | .failed => "Failed"

def phases : List Phase :=
  [.pending, .guarding, .retaining, .locking, .quiescing, .targetSelecting, .transferring,
    .adopting, .committing, .swapping, .cleaningUp, .completed, .aborting, .failed]

def roleText : ColocationRole → String
  | .leader => "Leader"
  | .follower => "Follower"

/-- The variant that is written so. -/
def variant {α : Type} (text : α → String) (variants : List α) (j : Json) : Option α :=
  (asStr j).bind fun s => variants.find? fun a => text a == s

/-- The optional generation is left out of a condition when it is absent. -/
def Condition.encode (c : Condition) : Json :=
  .obj ([("lastTransitionTime", .str c.lastTransitionTime), ("message", .str c.message)] ++
    (c.observedGeneration.toList.map fun n => ("observedGeneration", sint n)) ++
    [("reason", .str c.reason), ("status", .str c.status), ("type", .str c.type_)])

def Condition.decode (j : Json) : Option Condition := do
  let fs := j.fields
  return { lastTransitionTime := ← required asStr fs "lastTransitionTime"
           message := ← required asStr fs "message"
           observedGeneration := ← optional (asSint 64) fs "observedGeneration"
           reason := ← required asStr fs "reason"
           status := ← required asStr fs "status"
           type_ := ← required asStr fs "type" }

def PvcRef.encode (r : PvcRef) : Json :=
  .obj [("namespace", .str r.ns), ("name", .str r.name), ("uid", .str r.uid)]

def PvcRef.decode (j : Json) : Option PvcRef := do
  let fs := j.fields
  return { ns := ← required asStr fs "namespace"
           name := ← required asStr fs "name"
           uid := ← required asStr fs "uid" }

def SourceInfo.encode (s : SourceInfo) : Json :=
  .obj [("node", .str s.node), ("nodeId", .str s.nodeId), ("pool", .str s.pool),
    ("volumeHandle", .str s.volumeHandle), ("pvUid", .str s.pvUid),
    ("capacityBytes", uint s.capacityBytes)]

def SourceInfo.decode (j : Json) : Option SourceInfo := do
  let fs := j.fields
  return { node := ← required asStr fs "node"
           nodeId := ← required asStr fs "nodeId"
           pool := ← required asStr fs "pool"
           volumeHandle := ← required asStr fs "volumeHandle"
           pvUid := ← required asStr fs "pvUid"
           capacityBytes := ← defaulted (asUint 64) 0 fs "capacityBytes" }

def encodeTarget (t : TargetInfo) : Json :=
  .obj [("node", .str t.node), ("nodeId", .str t.nodeId), ("pool", .str t.pool),
    ("newVolumeHandle", .str t.newVolumeHandle)]

def decodeTarget (j : Json) : Option TargetInfo := do
  let fs := j.fields
  return { node := ← required asStr fs "node"
           nodeId := ← required asStr fs "nodeId"
           pool := ← required asStr fs "pool"
           newVolumeHandle := ← required asStr fs "newVolumeHandle" }

def TransferStatus.encode (t : TransferStatus) : Json :=
  .obj [("attempt", uint t.attempt), ("snapName", .str t.snapName),
    ("ports", .arr (t.ports.map uint)), ("bytesRelayed", nullable uint t.bytesRelayed),
    ("startedAt", nullable .str t.startedAt), ("failureReason", nullable .str t.failureReason),
    ("targetSnapDeleteIssued", .bool t.targetSnapDeleteIssued)]

def TransferStatus.decode (j : Json) : Option TransferStatus := do
  let fs := j.fields
  return { attempt := ← required (asUint 32) fs "attempt"
           snapName := ← required asStr fs "snapName"
           ports := ← required (asArr (asUint 16)) fs "ports"
           bytesRelayed := ← optional (asUint 64) fs "bytesRelayed"
           startedAt := ← optional asStr fs "startedAt"
           failureReason := ← optional asStr fs "failureReason"
           targetSnapDeleteIssued := ← defaulted asBool false fs "targetSnapDeleteIssued" }

def ColocationMember.encode (m : ColocationMember) : Json :=
  .obj [("pvName", .str m.pvName), ("capacityBytes", uint m.capacityBytes)]

def ColocationMember.decode (j : Json) : Option ColocationMember := do
  let fs := j.fields
  return { pvName := ← required asStr fs "pvName"
           capacityBytes := ← defaulted (asUint 64) 0 fs "capacityBytes" }

/-- `followed` is left out when it is absent; every other field of the status is written. -/
def ColocationStatus.encode (c : ColocationStatus) : Json :=
  .obj ([("pod", .str c.pod), ("members", .arr (c.members.map ColocationMember.encode)),
    ("role", .str (roleText c.role))] ++ c.followed.toList.map fun f => ("followed", .str f))

def ColocationStatus.decode (j : Json) : Option ColocationStatus := do
  let fs := j.fields
  return { pod := ← required asStr fs "pod"
           members := ← defaulted (asArr ColocationMember.decode) [] fs "members"
           role := ← defaulted (variant roleText [.leader, .follower]) .leader fs "role"
           followed := ← optional asStr fs "followed" }

namespace ZFSEvacuationStatus

def entries (st : ZFSEvacuationStatus) : Fields :=
  [("phase", .str (phaseText st.phase)),
    ("conditions", .arr (st.conditions.map Condition.encode)),
    ("observedGeneration", nullable sint st.observedGeneration),
    ("message", nullable .str st.message),
    ("pvcRef", nullable PvcRef.encode st.pvcRef),
    ("source", nullable SourceInfo.encode st.source),
    ("target", nullable encodeTarget st.target),
    ("originalReclaimPolicy", nullable .str st.originalReclaimPolicy),
    ("oldPvManifest", nullable .str st.oldPvManifest),
    ("newPvManifest", nullable .str st.newPvManifest),
    ("committed", .bool st.committed),
    ("cancelled", .bool st.cancelled),
    ("transfer", nullable TransferStatus.encode st.transfer),
    ("quiescedAt", nullable .str st.quiescedAt),
    ("lockedAt", nullable .str st.lockedAt),
    ("colocation", nullable ColocationStatus.encode st.colocation)]

def encode (st : ZFSEvacuationStatus) : Json := .obj st.entries

def decode (j : Json) : Option ZFSEvacuationStatus := do
  let fs := j.fields
  return { phase := ← defaulted (variant phaseText phases) .pending fs "phase"
           conditions := ← defaulted (asArr Condition.decode) [] fs "conditions"
           observedGeneration := ← optional (asSint 64) fs "observedGeneration"
           message := ← optional asStr fs "message"
           pvcRef := ← optional PvcRef.decode fs "pvcRef"
           source := ← optional SourceInfo.decode fs "source"
           target := ← optional decodeTarget fs "target"
           originalReclaimPolicy := ← optional asStr fs "originalReclaimPolicy"
           oldPvManifest := ← optional asStr fs "oldPvManifest"
           newPvManifest := ← optional asStr fs "newPvManifest"
           committed := ← defaulted asBool false fs "committed"
           cancelled := ← defaulted asBool false fs "cancelled"
           transfer := ← optional TransferStatus.decode fs "transfer"
           quiescedAt := ← optional asStr fs "quiescedAt"
           lockedAt := ← optional asStr fs "lockedAt"
           colocation := ← optional ColocationStatus.decode fs "colocation" }

end ZFSEvacuationStatus

end Wire

end ZfsEvacuation
