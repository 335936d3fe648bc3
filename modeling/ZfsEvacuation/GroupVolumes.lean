import ZfsEvacuation.StateMachine
import ZfsEvacuation.EvacuationSystem

/-!
# The volumes of a group

What `resolve` makes of the claims of a consumer in a cluster that stands still: every claim is
followed to its PV on its own, so a PV is counted as often as the consumer refers to it.
-/
namespace ZfsEvacuation
open ClientProgram Program

/-- Every call answered from this world. -/
def World.serve (w : World) (c : Call) (s : Unit) : c.Resp × Unit := (w.answer {} c, s)

@[simp] theorem World.exec_getOpt (w : World) (k : Kind) (key : Key) :
    exec w.serve (getOpt k key) () = (.ok (w.get k key), ()) := rfl

@[simp] theorem World.exec_listObjs (w : World) (k : Kind) (sel : Selector) :
    exec w.serve (listObjs k sel) () = (.ok (w.list k sel), ()) := rfl

section Volumes
variable (w : World) (cfg : Config) (ns pvName sourceNodeId : String)

/-! ## What is behind a claim -/

/-- The spec of the volume of a zfs-localpv PV that has one. -/
def volumeOf (pv : String) : Option VolumeInfo :=
  match ((w.get .pv ⟨"", pv⟩).bind pvSpec).bind (·.csi) with
  | none => none
  | some csi =>
    if csi.driver ≠ zfsDriver then none
    else (w.get .zfsVolume ⟨cfg.openebsNs, csi.volumeHandle⟩).map fun o =>
      let zv : ZFSVolume := o.data
      zv.spec

def boundPv (claim : String) : Option String :=
  (w.get .pvc ⟨ns, claim⟩).bind fun o =>
    let pvc : PersistentVolumeClaim := o.data
    pvc.volumeName

/-- The zfs-localpv PVs behind the claims of a pod, once for each reference to them. -/
def volumesBehind (pod : Obj .pod) : List String :=
  (podPvcNames pod).filterMap fun claim =>
    (boundPv w ns claim).filter fun pv => (volumeOf w cfg pv).isSome

/-- A sibling has, or is heading to, a node off the source. -/
def placed (pv : String) (info : VolumeInfo) : Bool :=
  ((w.get .evacuation ⟨"", pv⟩).filter activeSibling).any (fun e =>
    (specOf e).targetNode.isSome || ((statusOf e).bind (·.target)).isSome) ||
      info.ownerNodeId != sourceNodeId

def contributionAt (pv : String) (info : VolumeInfo) : Contribution :=
  if pv = pvName then .member ⟨pv, volumeCapacity info⟩
  else contributionOf pv sourceNodeId info (w.get .evacuation ⟨"", pv⟩)

def contribution (claim : String) : Option Contribution :=
  (boundPv w ns claim).bind fun pv =>
    (volumeOf w cfg pv).map (contributionAt w pvName sourceNodeId pv)

theorem exec_classifyClaim (claim : String) :
    exec w.serve (classifyClaim cfg pvName ns sourceNodeId claim) () =
      (.ok (contribution w cfg ns pvName sourceNodeId claim), ()) := by
  unfold classifyClaim contribution boundPv
  rw [bind_eq, exec_bind_ok (w.exec_getOpt ..)]
  cases w.get .pvc ⟨ns, claim⟩ with
  | none => rfl
  | some o =>
    obtain ⟨m, (pvc : PersistentVolumeClaim)⟩ := o
    simp only [Option.bind_some]
    cases pvc.volumeName with
    | none => rfl
    | some pv =>
      simp only [Option.bind_some, volumeOf]
      rw [bind_eq, exec_bind_ok (w.exec_getOpt ..)]
      cases w.get .pv ⟨"", pv⟩ with
      | none => rfl
      | some pvObj =>
        simp only [Option.bind_some]
        cases (pvSpec pvObj).bind (·.csi) with
        | none => rfl
        | some csi =>
          simp only
          by_cases hdriver : csi.driver ≠ zfsDriver
          · rw [if_pos hdriver, if_pos hdriver]
            rfl
          rw [if_neg hdriver, if_neg hdriver, bind_eq, exec_bind_ok (w.exec_getOpt ..)]
          cases w.get .zfsVolume ⟨cfg.openebsNs, csi.volumeHandle⟩ with
          | none => rfl
          | some zv =>
            obtain ⟨m, (zv : ZFSVolume)⟩ := zv
            simp only [Option.map_some, contributionAt]
            split_ifs <;> rfl

theorem exec_classifyClaims (claims : List String) :
    exec w.serve (classifyClaims cfg pvName ns sourceNodeId claims) () =
      (.ok (claims.filterMap (contribution w cfg ns pvName sourceNodeId)), ()) := by
  induction claims with
  | nil => rfl
  | cons claim claims ih =>
    have hclaim := exec_classifyClaim w cfg ns pvName sourceNodeId claim
    rw [classifyClaims, bind_eq, exec_bind_ok hclaim, bind_eq, exec_bind_ok ih, List.filterMap_cons]
    cases contribution w cfg ns pvName sourceNodeId claim <;> rfl

/-! ## What a claim counts for -/

def Contribution.pv : Contribution → String
  | .member m => m.pvName
  | .anchor a => a.pvName

/-- A placed sibling is an anchor, any other a member. -/
theorem contributionOf_cases (pv : String) (info : VolumeInfo) :
    (placed w sourceNodeId pv info = true ∧
      ∃ a, contributionOf pv sourceNodeId info (w.get .evacuation ⟨"", pv⟩) = .anchor a ∧
        a.pvName = pv) ∨
    (placed w sourceNodeId pv info = false ∧
      contributionOf pv sourceNodeId info (w.get .evacuation ⟨"", pv⟩) =
        .member ⟨pv, volumeCapacity info⟩) := by
  unfold contributionOf placed
  have hown : (info.ownerNodeId != sourceNodeId) = true ∧
        (∃ a, (if info.ownerNodeId ≠ sourceNodeId then
          Contribution.anchor ⟨info.ownerNodeId, pv, "ZFSVolume owner"⟩
          else .member ⟨pv, volumeCapacity info⟩) = .anchor a ∧ a.pvName = pv) ∨
      (info.ownerNodeId != sourceNodeId) = false ∧
        (if info.ownerNodeId ≠ sourceNodeId then
          Contribution.anchor ⟨info.ownerNodeId, pv, "ZFSVolume owner"⟩
          else .member ⟨pv, volumeCapacity info⟩) = .member ⟨pv, volumeCapacity info⟩ := by
    by_cases howner : info.ownerNodeId ≠ sourceNodeId
    · exact .inl ⟨by simpa using howner, _, if_pos howner, rfl⟩
    · exact .inr ⟨by simpa using howner, if_neg howner⟩
  cases (w.get .evacuation ⟨"", pv⟩).filter activeSibling with
  | none => exact hown
  | some e =>
    simp only [Option.bind_some, Option.any_some]
    cases (specOf e).targetNode with
    | some node => exact .inl ⟨by simp, _, rfl, rfl⟩
    | none =>
      cases (statusOf e).bind (·.target) with
      | some t => exact .inl ⟨by simp, _, rfl, rfl⟩
      | none => simpa using hown

theorem contributionAt_pv (pv : String) (info : VolumeInfo) :
    (contributionAt w pvName sourceNodeId pv info).pv = pv := by
  unfold contributionAt
  split_ifs
  · rfl
  · rcases contributionOf_cases w sourceNodeId pv info with ⟨-, a, ha, hpv⟩ | ⟨-, hm⟩
    · rw [ha]
      exact hpv
    · rw [hm]
      rfl

/-- Each reference to a volume contributes once. -/
theorem map_pv_contributions (claims : List String) :
    (claims.filterMap (contribution w cfg ns pvName sourceNodeId)).map Contribution.pv =
      claims.filterMap fun claim =>
        (boundPv w ns claim).filter fun pv => (volumeOf w cfg pv).isSome := by
  rw [List.map_filterMap]
  congr 1
  funext claim
  unfold contribution
  cases boundPv w ns claim with
  | none => rfl
  | some pv =>
    rw [Option.bind_some, Option.map_map]
    cases hinfo : volumeOf w cfg pv with
    | none => simp [Option.filter_some, hinfo]
    | some info => simp [Option.filter_some, hinfo, contributionAt_pv]

theorem perm_pv (cs : List Contribution) :
    ((membersOf cs).map (·.pvName) ++ (anchorsOf cs).map (·.pvName)).Perm
      (cs.map Contribution.pv) := by
  induction cs with
  | nil => exact List.Perm.refl _
  | cons c cs ih =>
    cases c with
    | member m => exact ih.cons _
    | anchor a => exact List.perm_middle.trans (ih.cons _)

/-! ## The extra bytes of a group -/

/-- A volume other than the evacuation's own that no sibling has placed. -/
def unplacedOther (pv : String) : Bool :=
  pv != pvName && (volumeOf w cfg pv).any fun info => !placed w sourceNodeId pv info

def capacityAt (pv : String) : Nat := ((volumeOf w cfg pv).map volumeCapacity).getD 0

theorem otherMembers_contributionAt {pv : String} {info : VolumeInfo}
    (hinfo : volumeOf w cfg pv = some info) :
    (membersOf [contributionAt w pvName sourceNodeId pv info]).filter (·.pvName ≠ pvName) =
      if unplacedOther w cfg pvName sourceNodeId pv then [⟨pv, capacityAt w cfg pv⟩] else [] := by
  have hcapacity : capacityAt w cfg pv = volumeCapacity info := by simp [capacityAt, hinfo]
  unfold unplacedOther contributionAt
  by_cases hown : pv = pvName
  · subst hown
    simp [membersOf]
  · rw [if_neg hown, hinfo, hcapacity]
    rcases contributionOf_cases w sourceNodeId pv info with ⟨hplaced, a, ha, -⟩ | ⟨hplaced, hm⟩
    · simp [ha, hplaced, membersOf]
    · simp [hm, hplaced, membersOf, hown]

theorem membersOf_append (cs cs' : List Contribution) :
    membersOf (cs ++ cs') = membersOf cs ++ membersOf cs' := by simp [membersOf]

theorem otherMembers_eq (claims : List String) :
    (membersOf (claims.filterMap (contribution w cfg ns pvName sourceNodeId))).filter
        (·.pvName ≠ pvName) =
      ((claims.filterMap fun claim =>
        (boundPv w ns claim).filter fun pv => (volumeOf w cfg pv).isSome).filter
          (unplacedOther w cfg pvName sourceNodeId)).map fun pv => ⟨pv, capacityAt w cfg pv⟩ := by
  induction claims with
  | nil => rfl
  | cons claim claims ih =>
    have hclaim : contribution w cfg ns pvName sourceNodeId claim =
        (boundPv w ns claim).bind fun pv =>
          (volumeOf w cfg pv).map (contributionAt w pvName sourceNodeId pv) := rfl
    rw [List.filterMap_cons, List.filterMap_cons, hclaim]
    cases boundPv w ns claim with
    | none => exact ih
    | some pv =>
      rw [Option.bind_some, Option.filter_some]
      cases hinfo : volumeOf w cfg pv with
      | none => exact ih
      | some info =>
        simp only [Option.map_some, Option.isSome_some, if_true]
        rw [← List.singleton_append, membersOf_append, List.filter_append, ih,
          otherMembers_contributionAt w cfg pvName sourceNodeId hinfo, List.filter_cons]
        split_ifs <;> simp

/-! ## Counting once -/

/-- Every volume behind the claims of the pod is counted once, and nothing else is. -/
structure CountsOnce (pod : Obj .pod) (g : Group) (anchors : List Anchor) : Prop where
  once : ∀ pv ∈ volumesBehind w cfg ns pod,
    (g.members.map (·.pvName) ++ anchors.map (·.pvName)).count pv = 1
  own : pvName ∈ volumesBehind w cfg ns pod → pvName ∈ g.members.map (·.pvName)
  only : ∀ m ∈ g.members, m.pvName ∈ volumesBehind w cfg ns pod
  extra : groupExtraBytes pvName (some g) =
    (((volumesBehind w cfg ns pod).dedup.filter
      (unplacedOther w cfg pvName sourceNodeId)).map (capacityAt w cfg)).sum

theorem own_mem {claims : List String}
    (h : pvName ∈ claims.filterMap fun claim =>
      (boundPv w ns claim).filter fun pv => (volumeOf w cfg pv).isSome) :
    pvName ∈ (membersOf (claims.filterMap
      (contribution w cfg ns pvName sourceNodeId))).map (·.pvName) := by
  obtain ⟨claim, hclaim, hpv⟩ := List.mem_filterMap.mp h
  obtain ⟨hbound, hvol⟩ := Option.filter_eq_some_iff.mp hpv
  obtain ⟨info, hinfo⟩ := Option.isSome_iff_exists.mp hvol
  have hcontribution : contribution w cfg ns pvName sourceNodeId claim =
      some (.member ⟨pvName, volumeCapacity info⟩) := by
    rw [contribution, hbound, Option.bind_some, hinfo, Option.map_some, contributionAt, if_pos rfl]
  refine List.mem_map.mpr ⟨⟨pvName, volumeCapacity info⟩, ?_, rfl⟩
  exact List.mem_filterMap.mpr ⟨_, List.mem_filterMap.mpr ⟨claim, hclaim, hcontribution⟩, rfl⟩

/-- What `resolve` makes of the contributions of the consumer. -/
def groupOf (pod : Obj .pod) (cs : List Contribution) : Group where
  pod := ns ++ "/" ++ pod.name
  placement := Placement.fromPod pod
  members := membersOf cs
  anchor := pickAnchor (anchorsOf cs)

def contributionsOf (pod : Obj .pod) : List Contribution :=
  (podPvcNames pod).filterMap (contribution w cfg ns pvName sourceNodeId)

theorem exec_resolve {pods : List (Obj .pod)} {pod : Obj .pod} {r : PvcRef}
    (h : (unscheduledPods pods).head? = some pod) :
    exec w.serve (resolve cfg pvName r sourceNodeId pods) () =
      (.ok (some (groupOf r.ns pod (contributionsOf w cfg r.ns pvName sourceNodeId pod))), ()) := by
  unfold resolve
  rw [h]
  simp only
  rw [bind_eq, exec_bind_ok (exec_classifyClaims w cfg r.ns pvName sourceNodeId (podPvcNames pod))]
  rfl

theorem countsOnce_iff_nodup (pod : Obj .pod) :
    CountsOnce w cfg ns pvName sourceNodeId pod
        (groupOf ns pod (contributionsOf w cfg ns pvName sourceNodeId pod))
        (anchorsOf (contributionsOf w cfg ns pvName sourceNodeId pod)) ↔
      (volumesBehind w cfg ns pod).Nodup := by
  have hnames : ((membersOf (contributionsOf w cfg ns pvName sourceNodeId pod)).map (·.pvName) ++
      (anchorsOf (contributionsOf w cfg ns pvName sourceNodeId pod)).map (·.pvName)).Perm
      (volumesBehind w cfg ns pod) := by
    have hperm := perm_pv (contributionsOf w cfg ns pvName sourceNodeId pod)
    rwa [contributionsOf, map_pv_contributions] at hperm
  constructor
  · intro h
    refine List.nodup_iff_count_eq_one.mpr fun pv hpv => ?_
    rw [← hnames.count_eq]
    exact h.once pv hpv
  · intro hnodup
    refine ⟨fun pv hpv => ?_, own_mem w cfg ns pvName sourceNodeId, fun m hm => ?_, ?_⟩
    · exact (hnames.count_eq pv).trans (List.nodup_iff_count_eq_one.mp hnodup pv hpv)
    · exact hnames.subset (List.mem_append_left _ (List.mem_map_of_mem hm))
    · have hothers := otherMembers_eq w cfg ns pvName sourceNodeId (podPvcNames pod)
      rw [List.dedup_eq_self.mpr hnodup]
      show (((membersOf (contributionsOf w cfg ns pvName sourceNodeId pod)).filter
        (·.pvName ≠ pvName)).map (·.capacityBytes)).sum = _
      rw [contributionsOf, hothers, List.map_map]
      rfl

end Volumes

theorem resolve_counts_once_iff (w : World) (cfg : Config) (pvName : String) (r : PvcRef)
    (sourceNodeId : String) (pods : List (Obj .pod)) (pod : Obj .pod)
    (h : (unscheduledPods pods).head? = some pod) :
    ∃ cs g, exec w.serve (classifyClaims cfg pvName r.ns sourceNodeId (podPvcNames pod)) () =
        (.ok cs, ()) ∧
      exec w.serve (resolve cfg pvName r sourceNodeId pods) () = (.ok (some g), ()) ∧
      g.anchor = pickAnchor (anchorsOf cs) ∧
      (CountsOnce w cfg r.ns pvName sourceNodeId pod g (anchorsOf cs) ↔
        (volumesBehind w cfg r.ns pod).Nodup) :=
  ⟨_, _, exec_classifyClaims w cfg r.ns pvName sourceNodeId (podPvcNames pod),
    exec_resolve w cfg pvName sourceNodeId h, rfl,
    countsOnce_iff_nodup w cfg r.ns pvName sourceNodeId pod⟩

/-! ## A claim mounted twice -/

def pvcBoundTo (name pv : String) : Obj .pvc where
  metadata := { ns := "db", name }
  data := ({ volumeName := some pv } : PersistentVolumeClaim)

def zfsPv (pv : String) : Obj .pv where
  metadata := { name := pv }
  data := ({ spec := some { csi := some { driver := zfsDriver, volumeHandle := pv } } } :
    PersistentVolume)

def zfsVolumeOn (nodeId pv : String) : Obj .zfsVolume where
  metadata := { ns := "openebs", name := pv }
  data := ({ spec :=
    { ownerNodeId := nodeId, poolName := "tank", capacity := some "10" } } : ZFSVolume)

/-- Two claims of the database, their PVs and their volumes. -/
def dbCluster : World :=
  ((((((({} : World).store (pvcBoundTo "data" "pv-data")).store (pvcBoundTo "log" "pv-log")).store
    (zfsPv "pv-data")).store (zfsPv "pv-log")).store
      (zfsVolumeOn "node-a" "pv-data")).store (zfsVolumeOn "node-a" "pv-log"))

def dbConsumer (claims : List String) : Obj .pod where
  metadata := { ns := "db", name := "mysql-0" }
  data := ({ volumes := claims.map fun c => { name := c, persistentVolumeClaim := some c } } : Pod)

def dataClaim : PvcRef := ⟨"db", "data", 1⟩

theorem resolve_counts_once_two_claims :
    ∃ cs g, exec dbCluster.serve (resolve {} "pv-data" dataClaim "node-a"
        [dbConsumer ["data", "log"]]) () = (.ok (some g), ()) ∧
      CountsOnce dbCluster {} "db" "pv-data" "node-a" (dbConsumer ["data", "log"]) g
        (anchorsOf cs) := by
  obtain ⟨cs, g, -, hg, -, hiff⟩ := resolve_counts_once_iff dbCluster {} "pv-data" dataClaim "node-a"
    [dbConsumer ["data", "log"]] (dbConsumer ["data", "log"]) rfl
  exact ⟨cs, g, hg, hiff.mpr (by decide +kernel)⟩

/-- The log is mounted a second time, and its ten bytes are asked for twice. -/
theorem resolve_counts_shared_claim_twice :
    ∃ g, exec dbCluster.serve (resolve {} "pv-data" dataClaim "node-a"
        [dbConsumer ["data", "log", "log"]]) () = (.ok (some g), ()) ∧
      groupExtraBytes "pv-data" (some g) = 20 ∧
      ∀ anchors, ¬ CountsOnce dbCluster {} "db" "pv-data" "node-a"
        (dbConsumer ["data", "log", "log"]) g anchors := by
  refine ⟨_, exec_resolve dbCluster {} "pv-data" "node-a" rfl, by decide +kernel, ?_⟩
  intro anchors h
  have hextra := h.extra
  revert hextra
  decide +kernel

end ZfsEvacuation
