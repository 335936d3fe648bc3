import ZfsEvacuation.OpenebsTypes

/-!
# ZFSEvacuation and EvacuationParams

The controller's own resources: one ZFSEvacuation for each volume being moved, with the
whole state of the move in its status, and the parameter object of the attach-lock
policy. Timestamps are RFC 3339 texts of second precision, kept as seconds. The PV
manifests are kept as the values that their JSON text encodes.
-/
namespace ZfsEvacuation

def evacuateAnnotation : String := "zfsevac.alumino.us/evacuate"
def guardFinalizer : String := "zfsevac.alumino.us/guard"
def evacuationFinalizer : String := "zfsevac.alumino.us/cleanup"
def evacuatingLabel : String := "zfsevac.alumino.us/evacuating"
def paramsName : String := "zfs-evacuation-locks"

inductive EvacuationTrigger where
  | annotation | nodeTaint
  deriving DecidableEq, Repr

/-- How the consumer gets its volume back: `whenIdle` denies every pod on the claim until
the move is over, `whenClaimed` lets scheduler-routed pods wait for it. -/
inductive EvacuationMode where
  | whenIdle | whenClaimed
  deriving DecidableEq, Repr

inductive Phase where
  | pending | guarding | retaining | locking | quiescing | targetSelecting | transferring
  | adopting | committing | swapping | cleaningUp | completed | aborting | failed
  deriving DecidableEq, Repr

structure ZFSEvacuationSpec where
  pvName : String
  trigger : EvacuationTrigger := EvacuationTrigger.annotation
  mode : EvacuationMode := .whenIdle
  targetNode : Option String := none
  targetPool : Option String := none
  settleSeconds : Option Nat := none
  transferTimeoutSeconds : Option Nat := none
  maxAttempts : Option Nat := none
  headroomPercent : Option Nat := none
  deriving DecidableEq

structure PvcRef where
  ns : String
  name : String
  uid : Uid
  deriving DecidableEq, Repr

structure SourceInfo where
  node : String
  nodeId : String
  pool : String
  volumeHandle : String
  pvUid : Uid
  capacityBytes : Nat
  deriving DecidableEq, Repr

structure TargetInfo where
  node : String
  nodeId : String
  pool : String
  newVolumeHandle : String
  deriving DecidableEq, Repr

structure TransferStatus where
  attempt : Nat
  snapName : String
  ports : List Nat
  bytesRelayed : Option Nat := none
  startedAt : Option Nat := none
  failureReason : Option String := none
  targetSnapDeleteIssued : Bool := false
  deriving DecidableEq, Repr

inductive ColocationRole where
  | leader | follower
  deriving DecidableEq, Repr

structure ColocationMember where
  pvName : String
  capacityBytes : Nat
  deriving DecidableEq, Repr

structure ColocationStatus where
  pod : String
  members : List ColocationMember := []
  role : ColocationRole := .leader
  followed : Option String := none
  deriving DecidableEq, Repr

structure ZFSEvacuationStatus where
  phase : Phase := .pending
  conditions : List Condition := []
  observedGeneration : Option Int := none
  message : Option String := none
  pvcRef : Option PvcRef := none
  source : Option SourceInfo := none
  target : Option TargetInfo := none
  originalReclaimPolicy : Option String := none
  oldPvManifest : Option (ObjectMeta × PersistentVolume) := none
  newPvManifest : Option (ObjectMeta × PersistentVolume) := none
  committed : Bool := false
  cancelled : Bool := false
  transfer : Option TransferStatus := none
  quiescedAt : Option Nat := none
  lockedAt : Option Nat := none
  colocation : Option ColocationStatus := none
  deriving DecidableEq

structure ZFSEvacuation where
  spec : ZFSEvacuationSpec
  status : Option ZFSEvacuationStatus := none
  deriving DecidableEq

/-- Keys "namespace/name" of the locked claims, in the list of the mode they were locked
with. -/
structure EvacuationParamsSpec where
  pvcKeys : List String := []
  claimablePvcKeys : List String := []
  deriving DecidableEq, Repr

namespace EvacuationParamsSpec

def pushNew (keys : List String) (key : String) : List String × Bool :=
  if keys.any (· == key) then (keys, false) else (keys ++ [key], true)

/-- Put `key` in the list for `mode` and nowhere else; the flag says whether anything
changed. -/
def lock (p : EvacuationParamsSpec) (key : String) (mode : EvacuationMode) :
    EvacuationParamsSpec × Bool :=
  match mode with
  | .whenIdle =>
    let into := pushNew p.pvcKeys key
    let outOf := p.claimablePvcKeys.filter (· ≠ key)
    (⟨into.1, outOf⟩, into.2 || outOf.length != p.claimablePvcKeys.length)
  | .whenClaimed =>
    let into := pushNew p.claimablePvcKeys key
    let outOf := p.pvcKeys.filter (· ≠ key)
    (⟨outOf, into.1⟩, into.2 || outOf.length != p.pvcKeys.length)

def unlock (p : EvacuationParamsSpec) (key : String) : EvacuationParamsSpec × Bool :=
  let pvcKeys := p.pvcKeys.filter (· ≠ key)
  let claimablePvcKeys := p.claimablePvcKeys.filter (· ≠ key)
  (⟨pvcKeys, claimablePvcKeys⟩,
    pvcKeys.length + claimablePvcKeys.length != p.pvcKeys.length + p.claimablePvcKeys.length)

/-- The key is under the attach lock, in whichever mode. -/
def Locked (p : EvacuationParamsSpec) (key : String) : Prop :=
  key ∈ p.pvcKeys ∨ key ∈ p.claimablePvcKeys

instance (p : EvacuationParamsSpec) (key : String) : Decidable (p.Locked key) :=
  inferInstanceAs (Decidable (_ ∨ _))

/-- The key is in the list of this mode and in no other. -/
def LockedAs (p : EvacuationParamsSpec) (key : String) : EvacuationMode → Prop
  | .whenIdle => key ∈ p.pvcKeys ∧ key ∉ p.claimablePvcKeys
  | .whenClaimed => key ∈ p.claimablePvcKeys ∧ key ∉ p.pvcKeys

instance (p : EvacuationParamsSpec) (key : String) (mode : EvacuationMode) :
    Decidable (p.LockedAs key mode) := by
  cases mode <;> exact inferInstanceAs (Decidable (_ ∧ _))

theorem LockedAs.locked {p : EvacuationParamsSpec} {key : String} {mode : EvacuationMode}
    (h : p.LockedAs key mode) : p.Locked key := by
  cases mode with
  | whenIdle => exact .inl h.1
  | whenClaimed => exact .inr h.1

theorem mem_pushNew {keys : List String} {key k : String} :
    k ∈ (pushNew keys key).1 ↔ k ∈ keys ∨ k = key := by
  unfold pushNew
  split_ifs with h
  · have hkey : key ∈ keys := by simpa using h
    exact ⟨Or.inl, fun h => h.elim id (· ▸ hkey)⟩
  · simp

/-- A lock adds its key and keeps every other one. -/
theorem locked_lock {p : EvacuationParamsSpec} {key k : String} {mode : EvacuationMode} :
    (p.lock key mode).1.Locked k ↔ k = key ∨ p.Locked k := by
  cases mode <;> by_cases h : k = key <;> simp [lock, Locked, mem_pushNew, h]

theorem lockedAs_lock (p : EvacuationParamsSpec) (key : String) (mode : EvacuationMode) :
    (p.lock key mode).1.LockedAs key mode := by
  cases mode <;> simp [lock, LockedAs, mem_pushNew]

/-- What is kept of another key's place in the lists. -/
theorem lockedAs_lock_other {p : EvacuationParamsSpec} {key k : String}
    {mode m : EvacuationMode} (hk : k ≠ key) :
    (p.lock key mode).1.LockedAs k m ↔ p.LockedAs k m := by
  cases mode <;> cases m <;> simp [lock, LockedAs, mem_pushNew, hk]

theorem lockedAs_unlock_other {p : EvacuationParamsSpec} {key k : String} {m : EvacuationMode}
    (hk : k ≠ key) : (p.unlock key).1.LockedAs k m ↔ p.LockedAs k m := by
  cases m <;> simp [unlock, LockedAs, hk]

/-- An unlock removes its key and keeps every other one. -/
theorem locked_unlock {p : EvacuationParamsSpec} {key k : String} :
    (p.unlock key).1.Locked k ↔ k ≠ key ∧ p.Locked k := by
  by_cases h : k = key <;> simp [unlock, Locked, h]

end EvacuationParamsSpec

end ZfsEvacuation
