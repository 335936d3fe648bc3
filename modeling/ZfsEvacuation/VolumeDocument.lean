import ZfsEvacuation.CallTrace

/-!
# The spec of a volume as a document

A spec is read into the fields the controller acts on and the rest of its keys. Pointed at a
target and written again it is the same object, but for the keys that point there.
-/
namespace ZfsEvacuation
open Json ClientProgram Program

namespace VolumeInfo

/-- Keys with a field of their own. -/
def modelled : List String :=
  ["ownerNodeID", "poolName", "capacity", "snapname", "fsType", "volumeType"]

/-- An absent field is left out. -/
def written (k : String) (o : Option String) : Fields := o.toList.map fun s => (k, .str s)

def encode (info : VolumeInfo) : Fields :=
  [("ownerNodeID", .str info.ownerNodeId), ("poolName", .str info.poolName)] ++
    written "capacity" info.capacity ++ written "snapname" info.snapname ++
    written "fsType" info.fsType ++ written "volumeType" info.volumeType ++ info.extra

def decode (fs : Fields) : Option VolumeInfo := do
  return { ownerNodeId := ← required asStr fs "ownerNodeID"
           poolName := ← required asStr fs "poolName"
           capacity := ← Json.optional asStr fs "capacity"
           snapname := ← Json.optional asStr fs "snapname"
           fsType := ← Json.optional asStr fs "fsType"
           volumeType := ← Json.optional asStr fs "volumeType"
           extra := fs.filter fun kv => kv.1 ∉ modelled }

/-- A key that is absent or has a string. -/
def StrOrAbsent (fs : Fields) (k : String) : Prop :=
  fs.lookup k = none ∨ ∃ s, fs.lookup k = some (.str s)

structure IsSpec (fs : Fields) : Prop where
  keys : (fs.map (·.1)).Nodup
  owner : ∃ s, fs.lookup "ownerNodeID" = some (.str s)
  pool : ∃ s, fs.lookup "poolName" = some (.str s)
  capacity : StrOrAbsent fs "capacity"
  snapname : StrOrAbsent fs "snapname"
  fsType : StrOrAbsent fs "fsType"
  volumeType : StrOrAbsent fs "volumeType"

/-! ## Reading and writing -/

variable {fs : Fields} {k k' : String}

theorem lookup_written (o : Option String) :
    (written k o).lookup k' = if k' = k then o.map .str else none := by
  cases o with
  | none => simp [written]
  | some s =>
    rw [written, Option.toList_some, List.map_singleton, lookup_cons_eq]
    rfl

theorem lookup_required {s : String} (h : fs.lookup k = some (.str s)) :
    required asStr fs k = some s := by
  rw [required, h, Option.bind_some, asStr]

theorem lookup_optional (h : StrOrAbsent fs k) :
    ∃ o, Json.optional asStr fs k = some o ∧ fs.lookup k = o.map .str := by
  rcases h with h | ⟨s, h⟩
  · exact ⟨none, by rw [Json.optional, h], h⟩
  · exact ⟨some s, by rw [Json.optional, h]; rfl, h⟩

theorem lookup_encode (info : VolumeInfo) : info.encode.lookup k =
    if k = "ownerNodeID" then some (.str info.ownerNodeId)
    else if k = "poolName" then some (.str info.poolName)
    else (((((if k = "capacity" then info.capacity.map .str else none).or
      (if k = "snapname" then info.snapname.map .str else none)).or
      (if k = "fsType" then info.fsType.map .str else none)).or
      (if k = "volumeType" then info.volumeType.map .str else none)).or (info.extra.lookup k)) := by
  simp only [encode, List.lookup_append, lookup_cons_eq, lookup_written, List.lookup_nil]
  split_ifs <;> simp

/-- The keys of the fields that are written. -/
def fieldKeys (info : VolumeInfo) : List String :=
  ["ownerNodeID", "poolName"] ++ (written "capacity" info.capacity).map (·.1) ++
    (written "snapname" info.snapname).map (·.1) ++ (written "fsType" info.fsType).map (·.1) ++
    (written "volumeType" info.volumeType).map (·.1)

theorem keys_encode (info : VolumeInfo) :
    info.encode.map (·.1) = info.fieldKeys ++ info.extra.map (·.1) := by
  simp [encode, fieldKeys]

theorem keys_written (o : Option String) : ((written k o).map (·.1)).Sublist [k] := by
  cases o with
  | none => exact List.nil_sublist _
  | some s => exact List.Sublist.refl _

theorem fieldKeys_sublist (info : VolumeInfo) : info.fieldKeys.Sublist modelled :=
  ((((List.Sublist.refl ["ownerNodeID", "poolName"]).append (keys_written info.capacity)).append
    (keys_written info.snapname)).append (keys_written info.fsType)).append
      (keys_written info.volumeType)

/-- The rest has no key with a field of its own, so no key is written twice. -/
theorem nodup_encode {info : VolumeInfo} (hrest : ∀ kv ∈ info.extra, kv.1 ∉ modelled)
    (hextra : (info.extra.map (·.1)).Nodup) : (info.encode.map (·.1)).Nodup := by
  have hmodelled : modelled.Nodup := by simp [modelled]
  rw [keys_encode, List.nodup_append]
  refine ⟨hmodelled.sublist info.fieldKeys_sublist, hextra, fun k hk j hj heq => ?_⟩
  obtain ⟨kv, hkv, rfl⟩ := List.mem_map.mp hj
  exact hrest kv hkv (heq ▸ info.fieldKeys_sublist.subset hk)

/-- The same object, pointed at a node and a pool and with no clone origin. -/
structure PointedAt (target : TargetInfo) (fs out : Fields) : Prop where
  keys : (out.map (·.1)).Nodup
  node : out.lookup "ownerNodeID" = some (.str target.nodeId)
  pool : out.lookup "poolName" = some (.str target.pool)
  origin : out.lookup "snapname" = none
  rest : ∀ k, k ≠ "ownerNodeID" → k ≠ "poolName" → k ≠ "snapname" → out.lookup k = fs.lookup k

theorem adapted_spec (h : IsSpec fs) (target : TargetInfo) :
    ∃ info, decode fs = some info ∧ PointedAt target fs (adaptToTarget info target).encode := by
  obtain ⟨owner, howner⟩ := h.owner
  obtain ⟨pool, hpool⟩ := h.pool
  obtain ⟨capacity, hcapacity, hcapacityKey⟩ := lookup_optional h.capacity
  obtain ⟨snapname, hsnapname, -⟩ := lookup_optional h.snapname
  obtain ⟨fsType, hfsType, hfsTypeKey⟩ := lookup_optional h.fsType
  obtain ⟨volumeType, hvolumeType, hvolumeTypeKey⟩ := lookup_optional h.volumeType
  refine ⟨_, by simp only [decode, lookup_required howner, lookup_required hpool, hcapacity,
    hsnapname, hfsType, hvolumeType]; rfl, ?_⟩
  constructor
  · refine nodup_encode (fun kv hkv => ?_) ?_
    · simpa using (List.mem_filter.mp hkv).2
    · exact h.keys.sublist (List.filter_sublist.map _)
  · rw [lookup_encode, if_pos rfl]
    rfl
  · rw [lookup_encode, if_neg (by simp), if_pos rfl]
    rfl
  · rw [lookup_encode]
    simp only [adaptToTarget, lookup_filter fun k => decide (k ∉ modelled)]
    simp [modelled]
  · intro k howner hpool hsnapname
    rw [lookup_encode, if_neg howner, if_neg hpool, if_neg hsnapname]
    simp only [adaptToTarget, lookup_filter fun k => decide (k ∉ modelled)]
    by_cases hk : k ∈ modelled
    · simp only [modelled, List.mem_cons, howner, hpool, hsnapname, List.not_mem_nil, or_false,
        false_or] at hk
      rcases hk with rfl | rfl | rfl
      · simp [hcapacityKey, modelled]
      · simp [hfsTypeKey, modelled]
      · simp [hvolumeTypeKey, modelled]
    · have hne : k ≠ "capacity" ∧ k ≠ "fsType" ∧ k ≠ "volumeType" := by
        refine ⟨?_, ?_, ?_⟩ <;> (rintro rfl; simp [modelled] at hk)
      simp [hk, hne]

end VolumeInfo

/-! ## The resources on the target -/

variable (cfg : Config) (target : TargetInfo) (info : VolumeInfo)

/-- What the agents of a node go by: its label, and a status that makes them act. -/
structure Routed {k : Kind} (o : Obj k) (status : Option ZFSVolumeStatus) : Prop where
  label : o.metadata.labels.get nodeNameLabel = some target.nodeId
  notReady : ∃ s, status = some s ∧ s.state ≠ some zfsStatusReady

theorem targetZfsvolume_routed :
    Routed target (targetZfsvolume cfg info target) (some { state := some zfsStatusPending }) where
  label := rfl
  notReady := ⟨_, rfl, by simp [zfsStatusPending, zfsStatusReady]⟩

theorem targetSnapshotCr_routed (snapName : String) :
    Routed target (targetSnapshotCr cfg target snapName info)
      (some { state := some zfsStatusPending }) where
  label := rfl
  notReady := ⟨_, rfl, by simp [zfsStatusPending, zfsStatusReady]⟩

/-- What is created on the target carries the spec of the volume that was read, adapted. -/
def CarriesRead (source : SourceInfo) (tr : Trace) (c : Call) : Prop :=
  let read (zv : ZFSVolume) : Prop :=
    ∃ m, sawEvent .zfsVolume ⟨cfg.openebsNs, source.volumeHandle⟩ (some ⟨m, zv⟩) ∈ tr
  (∀ o, c = .create .zfsVolume o → ∃ zv, read zv ∧ o = targetZfsvolume cfg zv.spec target) ∧
    ∀ o, c = .create .zfsRestore o → ∃ zv name attempt port, read zv ∧
      o = restoreCr cfg name attempt target (adaptToTarget zv.spec target) port

variable {cfg target} {source : SourceInfo} {st : ZFSEvacuationStatus} {tr : Trace}

theorem carriesRead_of_other {c : Call} (hv : ∀ o, c ≠ .create .zfsVolume o)
    (hr : ∀ o, c ≠ .create .zfsRestore o) : CarriesRead cfg target source tr c :=
  ⟨fun o h => absurd h (hv o), fun o h => absurd h (hr o)⟩

theorem carriesRead_get (k : Kind) (key : Key) : CarriesRead cfg target source tr (.get k key) :=
  carriesRead_of_other (fun _ => Call.noConfusion) fun _ => Call.noConfusion

theorem createRestore_carries (hs : st.source = some source) (ht : st.target = some target)
    (name : String) (attempt port : Nat) :
    Follows (CarriesRead cfg target source) (fun _ _ => True) tr
      (createRestore cfg st name attempt port) := by
  simp only [createRestore, bind_eq, follows_bind, follows_orErr, follows_getOpt]
  intro source' hs' target' ht'
  obtain rfl := Option.some.inj (hs.symm.trans hs')
  obtain rfl := Option.some.inj (ht.symm.trans ht')
  refine ⟨carriesRead_get .., fun zv => ?_⟩
  cases zv with
  | none => trivial
  | some o =>
    obtain ⟨m, zv⟩ := o
    refine follows_createIfAbsent ⟨fun o h => ?_, fun o h => ?_⟩ fun _ => trivial
    · cases h
    · cases h
      exact ⟨zv, name, attempt, port, ⟨m, List.mem_cons_self⟩, rfl⟩

theorem adopting_carries (evac : Obj .evacuation) (hs : st.source = some source)
    (ht : st.target = some target) :
    Follows (CarriesRead cfg target source) (fun _ _ => True) tr (adopting cfg evac st) := by
  have hwrite : ∀ tr key (w : ZFSEvacuationStatus),
      CarriesRead cfg target source tr (.patch .evacuation key (.status w)) :=
    fun _ _ _ => carriesRead_of_other (fun _ => Call.noConfusion) fun _ => Call.noConfusion
  simp only [adopting, bind_eq, follows_bind, follows_orErr, follows_getOpt]
  intro source' hs' target' ht'
  obtain rfl := Option.some.inj (hs.symm.trans hs')
  obtain rfl := Option.some.inj (ht.symm.trans ht')
  refine ⟨carriesRead_get .., fun zv => ?_⟩
  cases zv with
  | none =>
    simp only [follows_bind, follows_getOpt]
    refine ⟨carriesRead_get .., fun src => ?_⟩
    cases src with
    | none => trivial
    | some o =>
      obtain ⟨m, zv⟩ := o
      simp only [follows_bind]
      refine follows_createIfAbsent ⟨fun o h => ?_, fun o h => ?_⟩ fun _ => trivial
      · cases h
        exact ⟨zv, ⟨m, List.mem_cons_self⟩, rfl⟩
      · cases h
  | some zv =>
    simp only
    split_ifs
    · exact follows_advance (hwrite ..)
    · exact follows_beginAbort (hwrite ..)
    · exact follows_wait (hwrite ..)

/-! ## The spec rides along -/

/-- Every resource on the target has the adapted spec and the handle of the new volume. -/
structure Carried (cfg : Config) (target : TargetInfo) (info : VolumeInfo) : Prop where
  volume : let zv : ZFSVolume := (targetZfsvolume cfg info target).data
    zv.spec = adaptToTarget info target ∧
      Routed target (targetZfsvolume cfg info target) zv.status ∧
      (targetZfsvolume cfg info target).name = target.newVolumeHandle
  snapshot : ∀ snapName, let snap : ZFSSnapshot := (targetSnapshotCr cfg target snapName info).data
    snap.spec = adaptToTarget info target ∧
      Routed target (targetSnapshotCr cfg target snapName info) snap.status ∧
      (targetSnapshotCr cfg target snapName info).metadata.labels.get zfsVolLabel =
        some target.newVolumeHandle
  restore : ∀ name attempt port, let rst : ZFSRestore :=
      (restoreCr cfg name attempt target (adaptToTarget info target) port).data
    rst.volSpec = some (adaptToTarget info target) ∧ rst.spec.volumeName = target.newVolumeHandle

theorem carried (cfg : Config) (target : TargetInfo) (info : VolumeInfo) :
    Carried cfg target info where
  volume := ⟨rfl, targetZfsvolume_routed .., rfl⟩
  snapshot _ := ⟨rfl, targetSnapshotCr_routed .., rfl⟩
  restore _ _ _ := ⟨rfl, rfl⟩

theorem spec_rides_along {fs : Json.Fields} (h : VolumeInfo.IsSpec fs) (target : TargetInfo) :
    ∃ info, VolumeInfo.decode fs = some info ∧
      VolumeInfo.PointedAt target fs (adaptToTarget info target).encode ∧
      ∀ cfg, Carried cfg target info ∧ ∀ (st : ZFSEvacuationStatus) source evac name attempt port,
        st.source = some source → st.target = some target →
          Follows (CarriesRead cfg target source) (fun _ _ => True) []
            (createRestore cfg st name attempt port) ∧
          Follows (CarriesRead cfg target source) (fun _ _ => True) [] (adopting cfg evac st) := by
  obtain ⟨info, hdecode, hpointed⟩ := VolumeInfo.adapted_spec h target
  refine ⟨info, hdecode, hpointed, fun cfg => ⟨carried cfg target info, ?_⟩⟩
  intro st source evac name attempt port hs ht
  exact ⟨createRestore_carries hs ht name attempt port, adopting_carries evac hs ht⟩

theorem spec_rides_along_clone :
    ∃ info, VolumeInfo.decode [("compression", .str "lz4"), ("ownerNodeID", .str "node-a"),
        ("snapname", .str "pvc-0@s"), ("poolName", .str "tank/k8s")] = some info ∧
      VolumeInfo.PointedAt ⟨"b", "node-b", "pool", "pvc-1"⟩
        [("compression", .str "lz4"), ("ownerNodeID", .str "node-a"),
          ("snapname", .str "pvc-0@s"), ("poolName", .str "tank/k8s")]
        (adaptToTarget info ⟨"b", "node-b", "pool", "pvc-1"⟩).encode := by
  have hspec : VolumeInfo.IsSpec [("compression", .str "lz4"), ("ownerNodeID", .str "node-a"),
      ("snapname", .str "pvc-0@s"), ("poolName", .str "tank/k8s")] :=
    { keys := by simp
      owner := ⟨_, rfl⟩
      pool := ⟨_, rfl⟩
      capacity := .inl rfl
      snapname := .inr ⟨_, rfl⟩
      fsType := .inl rfl
      volumeType := .inl rfl }
  obtain ⟨info, hdecode, hpointed, -⟩ := spec_rides_along hspec ⟨"b", "node-b", "pool", "pvc-1"⟩
  exact ⟨info, hdecode, hpointed⟩

end ZfsEvacuation
