import ZfsEvacuation.StatusDocument

/-!
# What a status write leaves of the stored status

Each part of the status is restored by a merge into anything, except the group: its `followed` is
kept from the stored group when the written one has none.
-/
namespace ZfsEvacuation
open Json

namespace Wire

/-! ## Each part reads back -/

theorem fields_obj (fs : Fields) : (Json.obj fs).fields = fs := rfl

theorem variant_text {α : Type} {text : α → String} {variants : List α} {a : α}
    (h : variants.find? (fun b => text b == text a) = some a) :
    variant text variants (.str (text a)) = some a := h

theorem restores_phase : Restores (fun p => .str (phaseText p)) (variant phaseText phases) where
  solid _ := Json.noConfusion
  merged _ p := variant_text (by cases p <;> rfl)

theorem restores_role :
    Restores (fun r => .str (roleText r)) (variant roleText [.leader, .follower]) where
  solid _ := Json.noConfusion
  merged _ r := variant_text (by cases r <;> rfl)

theorem restores_ports :
    Restores (fun ports : List (BitVec 16) => .arr (ports.map uint)) (asArr (asUint 16)) :=
  restores_arr asUint_uint

theorem decode_condition (c : Condition) : Condition.decode c.encode = some c := by
  obtain ⟨time, message, generation, reason, status, type⟩ := c
  cases generation with
  | none => rfl
  | some n =>
    have hn : Json.optional (asSint 64) (Condition.mk time message (some n) reason status
        type).encode.fields "observedGeneration" = some (some n) := by
      show (asSint 64 (sint n)).map some = _
      rw [asSint_sint, Option.map_some]
    simp only [Condition.decode, hn]
    rfl

theorem decode_member (m : ColocationMember) : ColocationMember.decode m.encode = some m := by
  have hcap : defaulted (asUint 64) 0 m.encode.fields "capacityBytes" = some m.capacityBytes :=
    asUint_uint m.capacityBytes
  simp only [ColocationMember.decode, hcap]
  rfl

theorem restores_conditions :
    Restores (fun cs : List Condition => .arr (cs.map Condition.encode))
      (asArr Condition.decode) :=
  restores_arr decode_condition

theorem restores_members :
    Restores (fun ms : List ColocationMember => .arr (ms.map ColocationMember.encode))
      (asArr ColocationMember.decode) :=
  restores_arr decode_member

theorem nodup_pvcRef (r : PvcRef) : (r.encode.fields.map (·.1)).Nodup := by
  simp [PvcRef.encode, fields]

theorem restores_pvcRef : Restores PvcRef.encode PvcRef.decode where
  solid _ := Json.noConfusion
  merged t r := by
    have hp := nodup_pvcRef r
    show PvcRef.decode (.obj (mergeFields t.fields r.encode.fields)) = some r
    simp only [PvcRef.decode, fields_obj, required_merge (k := "namespace") restores_str hp rfl,
      required_merge (k := "name") restores_str hp rfl,
      required_merge (k := "uid") restores_str hp rfl]
    rfl

theorem nodup_source (s : SourceInfo) : (s.encode.fields.map (·.1)).Nodup := by
  simp [SourceInfo.encode, fields]

theorem restores_source : Restores SourceInfo.encode SourceInfo.decode where
  solid _ := Json.noConfusion
  merged t s := by
    have hp := nodup_source s
    show SourceInfo.decode (.obj (mergeFields t.fields s.encode.fields)) = some s
    simp only [SourceInfo.decode, fields_obj, required_merge (k := "node") restores_str hp rfl,
      required_merge (k := "nodeId") restores_str hp rfl,
      required_merge (k := "pool") restores_str hp rfl,
      required_merge (k := "volumeHandle") restores_str hp rfl,
      required_merge (k := "pvUid") restores_str hp rfl,
      defaulted_merge (k := "capacityBytes") (restores_uint 64) hp rfl]
    rfl

theorem nodup_target (r : TargetInfo) : ((encodeTarget r).fields.map (·.1)).Nodup := by
  simp [encodeTarget, fields]

theorem restores_target : Restores encodeTarget decodeTarget where
  solid _ := Json.noConfusion
  merged t r := by
    have hp := nodup_target r
    show decodeTarget (.obj (mergeFields t.fields (encodeTarget r).fields)) = some r
    simp only [decodeTarget, fields_obj, required_merge (k := "node") restores_str hp rfl,
      required_merge (k := "nodeId") restores_str hp rfl,
      required_merge (k := "pool") restores_str hp rfl,
      required_merge (k := "newVolumeHandle") restores_str hp rfl]
    rfl

theorem nodup_transfer (r : TransferStatus) : (r.encode.fields.map (·.1)).Nodup := by
  simp [TransferStatus.encode, fields]

theorem restores_transfer : Restores TransferStatus.encode TransferStatus.decode where
  solid _ := Json.noConfusion
  merged t r := by
    have hp := nodup_transfer r
    show TransferStatus.decode (.obj (mergeFields t.fields r.encode.fields)) = some r
    simp only [TransferStatus.decode, fields_obj,
      required_merge (k := "attempt") (restores_uint 32) hp rfl,
      required_merge (k := "snapName") restores_str hp rfl,
      required_merge (k := "ports") restores_ports hp rfl,
      optional_merge (k := "bytesRelayed") (restores_uint 64) rfl hp rfl,
      optional_merge (k := "startedAt") restores_str rfl hp rfl,
      optional_merge (k := "failureReason") restores_str rfl hp rfl,
      defaulted_merge (k := "targetSnapDeleteIssued") restores_bool hp rfl]
    rfl

theorem nodup_colocation (c : ColocationStatus) : (c.encode.fields.map (·.1)).Nodup := by
  obtain ⟨pod, members, role, followed⟩ := c
  cases followed <;> simp [ColocationStatus.encode, fields]

/-- An absent `followed` takes the stored one. -/
theorem decode_colocation (c : ColocationStatus) {t : Json} {f : Option String}
    (ht : Json.optional asStr t.fields "followed" = some f) :
    ColocationStatus.decode (mergePatch t c.encode) =
      some { c with followed := c.followed.or f } := by
  have hp := nodup_colocation c
  have hfollowed : Json.optional asStr (mergeFields t.fields c.encode.fields) "followed" =
      some (c.followed.or f) := by
    obtain ⟨pod, members, role, followed⟩ := c
    cases followed with
    | none => exact (optional_unpatched hp rfl).trans ht
    | some g => exact optional_merge (o := some g) restores_str rfl hp rfl
  show ColocationStatus.decode (.obj (mergeFields t.fields c.encode.fields)) = _
  simp only [ColocationStatus.decode, fields_obj, hfollowed,
    required_merge (k := "pod") restores_str hp rfl,
    defaulted_merge (k := "members") restores_members hp rfl,
    defaulted_merge (k := "role") restores_role hp rfl]
  rfl

/-! ## The whole status -/

/-- What is stored after a write: the new status, with the `followed` it does not mention. -/
def mergeStatus (old new : ZFSEvacuationStatus) : ZFSEvacuationStatus :=
  { new with
    colocation := new.colocation.map fun n =>
      { n with followed := n.followed.or (old.colocation.bind (·.followed)) } }

namespace ZFSEvacuationStatus
variable (old new : ZFSEvacuationStatus)

/-- The new group mentions `followed` whenever the old one does. -/
def NoLeftover : Prop :=
  ∀ o n, old.colocation = some o → new.colocation = some n → n.followed = none → o.followed = none

theorem keys_entries (st : ZFSEvacuationStatus) : st.entries.map (·.1) =
    ["phase", "conditions", "observedGeneration", "message", "pvcRef", "source", "target",
      "originalReclaimPolicy", "oldPvManifest", "newPvManifest", "committed", "cancelled",
      "transfer", "quiescedAt", "lockedAt", "colocation"] := rfl

theorem nodup_entries (st : ZFSEvacuationStatus) : (st.entries.map (·.1)).Nodup := by
  rw [keys_entries]
  simp

theorem followed_encode (c : ColocationStatus) :
    Json.optional asStr c.encode.fields "followed" = some c.followed := by
  obtain ⟨pod, members, role, followed⟩ := c
  cases followed <;> rfl

theorem optional_colocation :
    Json.optional ColocationStatus.decode (mergeFields old.entries new.entries) "colocation" =
      some (mergeStatus old new).colocation := by
  have hlookup : (mergeFields old.entries new.entries).lookup "colocation" =
      merged (some (nullable ColocationStatus.encode old.colocation))
        (nullable ColocationStatus.encode new.colocation) :=
    lookup_mergeFields (nodup_entries new)
  cases hn : new.colocation with
  | none =>
    rw [Json.optional, hlookup, hn, mergeStatus, hn]
    rfl
  | some n =>
    have hstored : Json.optional asStr
        (nullable ColocationStatus.encode old.colocation).fields "followed" =
          some (old.colocation.bind (·.followed)) := by
      cases old.colocation with
      | none => rfl
      | some o => exact followed_encode o
    have hread := decode_colocation n hstored
    rw [Json.optional, hlookup, hn, mergeStatus, hn]
    exact congrArg (Option.map some) hread

/-- A written status reads back as the merge of its record into the stored one. -/
theorem decode_merge : decode (mergePatch old.encode new.encode) = some (mergeStatus old new) := by
  have hp := nodup_entries new
  show decode (.obj (mergeFields old.entries new.entries)) = _
  simp only [decode, fields_obj, optional_colocation,
    defaulted_merge (k := "phase") restores_phase hp rfl,
    defaulted_merge (k := "conditions") restores_conditions hp rfl,
    optional_merge (k := "observedGeneration") (restores_sint 64) rfl hp rfl,
    optional_merge (k := "message") restores_str rfl hp rfl,
    optional_merge (k := "pvcRef") restores_pvcRef rfl hp rfl,
    optional_merge (k := "source") restores_source rfl hp rfl,
    optional_merge (k := "target") restores_target rfl hp rfl,
    optional_merge (k := "originalReclaimPolicy") restores_str rfl hp rfl,
    optional_merge (k := "oldPvManifest") restores_str rfl hp rfl,
    optional_merge (k := "newPvManifest") restores_str rfl hp rfl,
    defaulted_merge (k := "committed") restores_bool hp rfl,
    defaulted_merge (k := "cancelled") restores_bool hp rfl,
    optional_merge (k := "transfer") restores_transfer rfl hp rfl,
    optional_merge (k := "quiescedAt") restores_str rfl hp rfl,
    optional_merge (k := "lockedAt") restores_str rfl hp rfl]
  rfl

theorem mergeStatus_eq_iff : mergeStatus old new = new ↔ NoLeftover old new := by
  obtain ⟨phase, conditions, generation, message, pvcRef, source, target, policy, oldPv, newPv,
    committed, cancelled, transfer, quiescedAt, lockedAt, colocation⟩ := new
  rw [NoLeftover, mergeStatus]
  cases colocation with
  | none => simp
  | some n =>
    obtain ⟨pod, members, role, followed⟩ := n
    cases hold : old.colocation with
    | none => simp
    | some o => cases followed <;> simp

/-! ## What is covered -/

theorem flat_pvcRef (r : PvcRef) : ∀ kv ∈ r.encode.fields, kv.2.isObj = false := by
  simp [PvcRef.encode, fields, isObj]

theorem flat_source (s : SourceInfo) : ∀ kv ∈ s.encode.fields, kv.2.isObj = false := by
  simp [SourceInfo.encode, fields, isObj, uint]

theorem flat_target (r : TargetInfo) : ∀ kv ∈ (encodeTarget r).fields, kv.2.isObj = false := by
  simp [encodeTarget, fields, isObj]

theorem flat_transfer (r : TransferStatus) : ∀ kv ∈ r.encode.fields, kv.2.isObj = false := by
  have hnum : ∀ o : Option (BitVec 64), (nullable uint o).isObj = false :=
    isObj_nullable fun _ => rfl
  have hstr : ∀ o : Option String, (nullable Json.str o).isObj = false :=
    isObj_nullable fun _ => rfl
  simp only [TransferStatus.encode, fields, List.forall_mem_cons, hnum, hstr]
  simp [isObj, uint]

theorem flat_colocation (c : ColocationStatus) : ∀ kv ∈ c.encode.fields, kv.2.isObj = false := by
  obtain ⟨pod, members, role, followed⟩ := c
  cases followed <;> simp [ColocationStatus.encode, fields, isObj]

theorem uniqueKeys_encode : UniqueKeys new.encode := by
  have hpvcRef := uniqueKeys_nullable
    (fun r : PvcRef => uniqueKeys_flat (nodup_pvcRef r) (flat_pvcRef r)) new.pvcRef
  have hsource := uniqueKeys_nullable
    (fun s : SourceInfo => uniqueKeys_flat (nodup_source s) (flat_source s)) new.source
  have htarget := uniqueKeys_nullable
    (fun r : TargetInfo => uniqueKeys_flat (nodup_target r) (flat_target r)) new.target
  have htransfer := uniqueKeys_nullable
    (fun r : TransferStatus => uniqueKeys_flat (nodup_transfer r) (flat_transfer r)) new.transfer
  have hcolocation := uniqueKeys_nullable
    (fun c : ColocationStatus => uniqueKeys_flat (nodup_colocation c) (flat_colocation c))
    new.colocation
  have hstr : ∀ o : Option String, UniqueKeys (nullable Json.str o) :=
    uniqueKeys_nullable fun _ => .flat rfl
  have hgeneration : UniqueKeys (nullable sint new.observedGeneration) :=
    uniqueKeys_nullable (fun _ => .flat rfl) _
  refine .of_mem (nodup_entries new) ?_
  simp only [entries, List.forall_mem_cons]
  exact ⟨.flat rfl, .flat rfl, hgeneration, hstr _, hpvcRef, hsource, htarget, hstr _, hstr _,
    hstr _, .flat rfl, .flat rfl, htransfer, hstr _, hstr _, hcolocation, by simp⟩

theorem covers_colocation {n o : ColocationStatus} (h : n.followed = none → o.followed = none) :
    Covers n.encode o.encode := by
  refine .of_flat (flat_colocation n) ?_
  obtain ⟨pod, members, role, followed⟩ := n
  obtain ⟨pod', members', role', followed'⟩ := o
  cases followed with
  | none =>
    obtain rfl : followed' = none := h rfl
    simp
  | some f => cases followed' <;> simp

/-- Nothing but a stored `followed` can be left of the stored status. -/
theorem covers_encode (h : NoLeftover old new) : Covers new.encode old.encode := by
  have hpvcRef : Covers (nullable PvcRef.encode new.pvcRef) (nullable PvcRef.encode old.pvcRef) :=
    covers_nullable fun n _ o _ => .of_flat (flat_pvcRef n) (by simp)
  have hsource : Covers (nullable SourceInfo.encode new.source)
      (nullable SourceInfo.encode old.source) :=
    covers_nullable fun n _ o _ => .of_flat (flat_source n) (by simp)
  have htarget : Covers (nullable encodeTarget new.target) (nullable encodeTarget old.target) :=
    covers_nullable fun n _ o _ => .of_flat (flat_target n) (by simp)
  have htransfer : Covers (nullable TransferStatus.encode new.transfer)
      (nullable TransferStatus.encode old.transfer) :=
    covers_nullable fun n _ o _ => .of_flat (flat_transfer n) (by simp)
  have hcolocation : Covers (nullable ColocationStatus.encode new.colocation)
      (nullable ColocationStatus.encode old.colocation) :=
    covers_nullable fun n hn o ho => covers_colocation (h o n ho hn)
  have hstr : ∀ (o : Option String) (t : Json), Covers (nullable Json.str o) t :=
    fun o _ => .scalar (isObj_nullable (fun _ => rfl) o)
  have hgeneration : ∀ t, Covers (nullable sint new.observedGeneration) t :=
    fun _ => .scalar (isObj_nullable (fun _ => rfl) _)
  refine .of_forall₂ ?_
  simp only [entries, List.forall₂_cons, List.forall₂_nil_left_iff, true_and, and_true]
  exact ⟨.scalar rfl, .scalar rfl, hgeneration _, hstr _ _, hpvcRef, hsource, htarget, hstr _ _,
    hstr _ _, hstr _ _, .scalar rfl, .scalar rfl, htransfer, hstr _ _, hstr _ _, hcolocation⟩

/-! ## The stored object -/

/-- The merge patch that `write_status` sends, applied to the stored object. -/
def writeStatus (stored : Json) (status : ZFSEvacuationStatus) : Json :=
  mergePatch stored (.obj [("status", status.encode)])

/-- The stored status is the written one, and nothing else is in it at any path. -/
structure Replaced (stored : Json) (status : ZFSEvacuationStatus) : Prop where
  reads : (stored.at_ ["status"]).bind decode = some status
  nothingLeft : ∀ path v, stored.at_ ("status" :: path) = some v →
    ∃ w, status.encode.at_ path = some w ∧ w ≠ .null ∧ (w.isObj = false → v = w)

variable {old new : ZFSEvacuationStatus} {stored : Json}

theorem at_writeStatus (h : stored.at_ ["status"] = some old.encode) (path : List String) :
    (writeStatus stored new).at_ ("status" :: path) =
      (mergePatch old.encode new.encode).at_ path := by
  have hlookup : stored.fields.lookup "status" = some old.encode := by simpa [at_] using h
  have hmerged : (mergeFields stored.fields [("status", new.encode)]).lookup "status" =
      some (mergePatch old.encode new.encode) := by
    rw [lookup_mergeFields (by simp), hlookup]
    rfl
  show ((mergeFields stored.fields [("status", new.encode)]).lookup "status").bind _ = _
  rw [hmerged, Option.bind_some]

/-- Every other key of the object keeps its value. -/
theorem lookup_writeStatus {k : String} (hk : k ≠ "status") :
    (writeStatus stored new).fields.lookup k = stored.fields.lookup k := by
  show (mergeFields stored.fields [("status", new.encode)]).lookup k = _
  rw [lookup_mergeFields (by simp), lookup_cons_eq, if_neg hk]
  rfl

theorem decode_writeStatus (h : stored.at_ ["status"] = some old.encode) :
    ((writeStatus stored new).at_ ["status"]).bind decode = some (mergeStatus old new) := by
  rw [at_writeStatus h]
  exact decode_merge old new

theorem writeStatus_replaces_iff (old new : ZFSEvacuationStatus) (stored : Json)
    (h : stored.at_ ["status"] = some old.encode) :
    Replaced (writeStatus stored new) new ↔ NoLeftover old new := by
  constructor
  · intro hreplaced
    have hread := (decode_writeStatus h).symm.trans hreplaced.reads
    exact (mergeStatus_eq_iff old new).mp (Option.some.inj hread)
  · intro hleft
    constructor
    · rw [decode_writeStatus h, (mergeStatus_eq_iff old new).mpr hleft]
    · intro path v hv
      rw [at_writeStatus h] at hv
      exact at_mergePatch (uniqueKeys_encode new) (covers_encode old new hleft) Json.noConfusion hv

/-- A leader of the same group, written over a follower. -/
def follower : ZFSEvacuationStatus :=
  { colocation := some
      { pod := "db/mysql-0", members := [], role := .follower, followed := some "pvc-1" } }

def leader : ZFSEvacuationStatus :=
  { colocation := some { pod := "db/mysql-0", members := [], role := .leader, followed := none } }

theorem writeStatus_replaces_follower :
    Replaced (writeStatus (.obj [("status", leader.encode)]) follower) follower :=
  (writeStatus_replaces_iff leader follower (.obj [("status", leader.encode)]) rfl).mpr
    fun o n ho hn h => by
      obtain rfl := Option.some.inj hn
      cases h

theorem writeStatus_keeps_followed :
    (writeStatus (.obj [("status", follower.encode)]) leader).at_
        ["status", "colocation", "followed"] = some (.str "pvc-1") ∧
      ¬ Replaced (writeStatus (.obj [("status", follower.encode)]) leader) leader := by
  constructor
  · rfl
  · intro hreplaced
    have hread := (decode_writeStatus rfl).symm.trans hreplaced.reads
    have hgroup := congrArg ZFSEvacuationStatus.colocation (Option.some.inj hread)
    have hfollowed := congrArg ColocationStatus.followed (Option.some.inj hgroup)
    cases hfollowed

end ZFSEvacuationStatus

end Wire

/-! ## The write of the model -/

/-- How the values that the model keeps are written as texts. -/
structure Texts where
  uid : Uid → String
  time : Nat → String
  manifest : ObjectMeta × PersistentVolume → String
  condition : Condition → Wire.Condition

namespace Texts
variable (T : Texts)

def pvcRef (r : PvcRef) : Wire.PvcRef where
  ns := r.ns
  name := r.name
  uid := T.uid r.uid

def source (s : SourceInfo) : Wire.SourceInfo where
  node := s.node
  nodeId := s.nodeId
  pool := s.pool
  volumeHandle := s.volumeHandle
  pvUid := T.uid s.pvUid
  capacityBytes := BitVec.ofNat 64 s.capacityBytes

def transfer (t : TransferStatus) : Wire.TransferStatus where
  attempt := BitVec.ofNat 32 t.attempt
  snapName := t.snapName
  ports := t.ports.map (BitVec.ofNat 16)
  bytesRelayed := t.bytesRelayed.map (BitVec.ofNat 64)
  startedAt := t.startedAt.map T.time
  failureReason := t.failureReason
  targetSnapDeleteIssued := t.targetSnapDeleteIssued

def member (m : ColocationMember) : Wire.ColocationMember where
  pvName := m.pvName
  capacityBytes := BitVec.ofNat 64 m.capacityBytes

def colocation (c : ColocationStatus) : Wire.ColocationStatus where
  pod := c.pod
  members := c.members.map member
  role := c.role
  followed := c.followed

def document (st : ZFSEvacuationStatus) : Wire.ZFSEvacuationStatus where
  phase := st.phase
  conditions := st.conditions.map T.condition
  observedGeneration := st.observedGeneration.map (BitVec.ofInt 64)
  message := st.message
  pvcRef := st.pvcRef.map T.pvcRef
  source := st.source.map T.source
  target := st.target
  originalReclaimPolicy := st.originalReclaimPolicy
  oldPvManifest := st.oldPvManifest.map T.manifest
  newPvManifest := st.newPvManifest.map T.manifest
  committed := st.committed
  cancelled := st.cancelled
  transfer := st.transfer.map T.transfer
  quiescedAt := st.quiescedAt.map T.time
  lockedAt := st.lockedAt.map T.time
  colocation := st.colocation.map colocation

theorem document_mergeStatus (old new : ZFSEvacuationStatus) :
    T.document (mergeStatus (some old) new) =
      Wire.mergeStatus (T.document old) (T.document new) := by
  obtain ⟨phase, conditions, generation, message, pvcRef, source, target, policy, oldPv, newPv,
    committed, cancelled, transfer, quiescedAt, lockedAt, group⟩ := new
  unfold mergeStatus Wire.mergeStatus
  cases group with
  | none => cases hold : old.colocation <;> simp [hold, document]
  | some n =>
    cases hold : old.colocation with
    | none => cases hn : n.followed <;> simp [hold, document, colocation, hn]
    | some o => simp [hold, document, colocation]

/-- The status patch of the API server is the merge of the documents. -/
theorem decode_write_document (old new : ZFSEvacuationStatus) {stored : Json}
    (h : stored.at_ ["status"] = some (T.document old).encode) :
    ((Wire.ZFSEvacuationStatus.writeStatus stored (T.document new)).at_ ["status"]).bind
        Wire.ZFSEvacuationStatus.decode =
      some (T.document (mergeStatus (some old) new)) := by
  rw [document_mergeStatus]
  exact Wire.ZFSEvacuationStatus.decode_writeStatus h

end Texts

end ZfsEvacuation
