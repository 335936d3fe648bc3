import ZfsEvacuation.AnchorVote
import ZfsEvacuation.GroupVolumes

/-!
# The node that an anchor denotes

Siblings refer to nodes by name or by id, and the vote is over these texts. It follows the node
with the most siblings, whatever their number, as far as the references in use are consistent.
-/
namespace ZfsEvacuation
open ClientProgram Program

/-! ## A vote over references -/

section References
variable {ν : Type} (D : String → ν → Bool) (nodes : List ν)

/-- The number of references that denote a node. -/
def heldBy (refs : List String) (n : ν) : Nat := refs.countP (D · n)

def DenotesOnly (r : String) (n : ν) : Prop := D r n = true ∧ ∀ m ∈ nodes, D r m = true → m = n

/-- The reference denotes exactly one node, and no node is denoted by more of the references. -/
def Elects (refs : List String) (best : String) : Prop :=
  ∃ n ∈ nodes, DenotesOnly D nodes best n ∧ ∀ m ∈ nodes, heldBy D refs m ≤ heldBy D refs n

/-- Each reference in use denotes one node, and no node has two of them unless there is only one
node that any of them denotes. -/
structure Consistent (used : String → Prop) : Prop where
  one : ∀ r, used r → ∃ n ∈ nodes, DenotesOnly D nodes r n
  named : (∀ r s, used r → used s → ∀ n ∈ nodes, D r n = true → D s n = true → r = s) ∨
    ∀ r s, used r → used s → ∀ n ∈ nodes, ∀ m ∈ nodes, D r n = true → D s m = true → n = m

variable {D nodes} {used : String → Prop} {refs : List String} {best : String}

theorem heldBy_le_count {n : ν} {s : String} (h : ∀ r ∈ refs, D r n = true → r = s) :
    heldBy D refs n ≤ refs.count s :=
  List.countP_mono_left fun r hr hd => by simpa using h r hr hd

theorem count_le_heldBy {n : ν} {s : String} (h : D s n = true) : refs.count s ≤ heldBy D refs n :=
  List.countP_mono_left fun r _ heq => by
    obtain rfl := beq_iff_eq.mp heq
    exact h

theorem elects_of_consistent (h : Consistent D nodes used) (hused : ∀ r ∈ refs, used r)
    (hleads : Leads refs best) : Elects D nodes refs best := by
  obtain ⟨n, hn, hbest, honly⟩ := h.one best (hused best hleads.mem)
  refine ⟨n, hn, ⟨hbest, honly⟩, fun m hm => ?_⟩
  by_cases hheld : ∃ s ∈ refs, D s m = true
  · obtain ⟨s, hs, hsm⟩ := hheld
    rcases h.named with hname | hnode
    · calc heldBy D refs m
          ≤ refs.count s := heldBy_le_count fun r hr hrm =>
            hname r s (hused r hr) (hused s hs) m hm hrm hsm
        _ ≤ refs.count best := hleads.most s hs
        _ ≤ heldBy D refs n := count_le_heldBy hbest
    · obtain rfl := hnode best s (hused best hleads.mem) (hused s hs) n hn m hm hbest hsm
      exact le_rfl
  · have hzero : heldBy D refs m = 0 := by
      refine List.countP_eq_zero.mpr fun r hr hrm => hheld ⟨r, hr, hrm⟩
    omega

theorem leads_singleton (r : String) : Leads [r] r where
  mem := List.mem_singleton_self r
  most m hm := by rw [List.mem_singleton.mp hm]
  first m hm _ := by
    obtain rfl := List.mem_singleton.mp hm
    exact String.le_refl _

/-- Two votes for each of two names and three for a third. -/
def splitVote (r s t : String) : List String := [r, r, s, s, t, t, t]

theorem leads_splitVote {r s t : String} (hrs : r ≠ s) (hrt : r ≠ t) (hst : s ≠ t) :
    Leads (splitVote r s t) t := by
  have hr : (splitVote r s t).count r = 2 := by simp [splitVote, hrs.symm, hrt.symm]
  have hs : (splitVote r s t).count s = 2 := by simp [splitVote, hrs, hst.symm]
  have ht : (splitVote r s t).count t = 3 := by simp [splitVote, hrt, hst]
  have hmem : ∀ m ∈ splitVote r s t, m = r ∨ m = s ∨ m = t := by simp [splitVote]
  refine ⟨by simp [splitVote], fun m hm => ?_, fun m hm heq => ?_⟩
  · rcases hmem m hm with rfl | rfl | rfl <;> omega
  · rcases hmem m hm with rfl | rfl | rfl
    · omega
    · omega
    · exact String.le_refl _

/-- The third name wins, although the node that has the other two holds more. -/
theorem splitVote_not_elects {r s t : String} {n m : ν} (hn : n ∈ nodes)
    (hr : D r n = true) (hs : D s n = true) (hrm : D r m = false) (hsm : D s m = false)
    (ht : DenotesOnly D nodes t m) : ¬ Elects D nodes (splitVote r s t) t := by
  rintro ⟨m', hm', hdenotes, hmost⟩
  obtain rfl := ht.2 m' hm' hdenotes.1
  have htwo : 4 ≤ heldBy D (splitVote r s t) n := by
    simp only [heldBy, splitVote, List.countP_cons, List.countP_nil, hr, hs, if_true]
    omega
  have hthree : heldBy D (splitVote r s t) m' = 3 := by
    simp [heldBy, splitVote, hrm, hsm, ht.1]
  have hle := hmost n hn
  omega

theorem exists_not_elects (h : ¬ Consistent D nodes used) :
    ∃ refs best, (∀ r ∈ refs, used r) ∧ Leads refs best ∧ ¬ Elects D nodes refs best := by
  by_cases hone : ∀ r, used r → ∃ n ∈ nodes, DenotesOnly D nodes r n
  · have hsplit : ∃ r s t, used r ∧ used s ∧ used t ∧ r ≠ s ∧ ∃ n ∈ nodes, ∃ m ∈ nodes, n ≠ m ∧
        D r n = true ∧ D s n = true ∧ D t m = true := by
      by_contra hno
      refine h ⟨hone, or_iff_not_imp_left.mpr fun hnames => ?_⟩
      push Not at hnames
      obtain ⟨r, s, hr, hs, n, hn, hrn, hsn, hrs⟩ := hnames
      have hall : ∀ t, used t → ∀ m ∈ nodes, D t m = true → m = n := fun t ht m hm htm => by
        by_contra hne
        exact hno ⟨r, s, t, hr, hs, ht, hrs, n, hn, m, hm, Ne.symm hne, hrn, hsn, htm⟩
      intro t u ht hu n' hn' m' hm' htn hum
      rw [hall t ht n' hn' htn, hall u hu m' hm' hum]
    obtain ⟨r, s, t, hr, hs, ht, hrs, n, hn, m, hm, hnm, hrn, hsn, htm⟩ := hsplit
    have honly : ∀ {q n' : _}, used q → n' ∈ nodes → D q n' = true → DenotesOnly D nodes q n' := by
      intro q n' hq hn' hd
      obtain ⟨k, hk, hdk, hkonly⟩ := hone q hq
      obtain rfl := hkonly n' hn' hd
      exact ⟨hdk, hkonly⟩
    have hmiss : ∀ q, used q → D q n = true → D q m = false := fun q hq hd => by
      by_contra hdm
      exact hnm ((honly hq hn hd).2 m hm (by simpa using hdm)).symm
    have hrt : r ≠ t := by
      rintro rfl
      rw [hmiss r hr hrn] at htm
      cases htm
    have hst : s ≠ t := by
      rintro rfl
      rw [hmiss s hs hsn] at htm
      cases htm
    refine ⟨splitVote r s t, t, fun q hq => ?_, leads_splitVote hrs hrt hst,
      splitVote_not_elects hn hrn hsn (hmiss r hr hrn) (hmiss s hs hsn) (honly ht hm htm)⟩
    simp only [splitVote, List.mem_cons, List.not_mem_nil, or_false] at hq
    rcases hq with rfl | rfl | rfl | rfl | rfl | rfl | rfl <;> assumption
  · push Not at hone
    obtain ⟨r, hr, hnone⟩ := hone
    refine ⟨[r], r, by simpa using hr, leads_singleton r, ?_⟩
    rintro ⟨n, hn, hdenotes, -⟩
    exact hnone n hn hdenotes

end References

/-! ## A cluster for a list of references -/

section Siblings

def volumeName (i : Nat) : String := "pv-" ++ toString i

theorem volumeName_injective : Function.Injective volumeName := fun _ _ h =>
  toString_nat_injective ((String.append_right_inj _).mp h)

/-- The store of the objects of the first volumes. -/
def storeOf {k : Kind} (mk : Nat → Obj k) (hname : ∀ i, (mk i).name = volumeName i) (n : Nat) :
    ObjStore k where
  items := (List.range n).map mk
  nodup := by
    rw [List.map_map]
    refine List.nodup_range.map fun i j h => volumeName_injective ?_
    rw [← hname i, ← hname j]
    exact congrArg Key.name h

theorem get_storeOf {k : Kind} {mk : Nat → Obj k} (hname : ∀ i, (mk i).name = volumeName i)
    {n i : Nat} (h : i < n) : (storeOf mk hname n).get (mk i).key = some (mk i) :=
  KeyedStore.get_of_mem (List.mem_map_of_mem (List.mem_range.mpr h))

/-- An evacuation that is to go to the node of this reference. -/
def headingTo (pv : String) (ref : Option String) : Obj .evacuation where
  metadata := { name := pv }
  data := ({ spec := { pvName := pv, targetNode := ref } } : ZFSEvacuation)

variable (nodes : ObjStore .node) (refs : List String)

/-- One sibling for each reference, and last the volume that is to be placed. -/
def siblingWorld : World where
  objects := fun
    | .node => nodes
    | .pvc => storeOf (fun i => pvcBoundTo (volumeName i) (volumeName i)) (fun _ => rfl)
      (refs.length + 1)
    | .pv => storeOf (fun i => zfsPv (volumeName i)) (fun _ => rfl) (refs.length + 1)
    | .zfsVolume => storeOf (fun i => zfsVolumeOn "source" (volumeName i)) (fun _ => rfl)
      (refs.length + 1)
    | .evacuation => storeOf (fun i => headingTo (volumeName i) refs[i]?) (fun _ => rfl)
      (refs.length + 1)
    | _ => ∅

def siblingConsumer : Obj .pod := dbConsumer ((List.range (refs.length + 1)).map volumeName)

def siblingAnchor (i : Nat) : Anchor := ⟨refs[i]?.getD "", volumeName i, "spec.targetNode"⟩

theorem podPvcNames_dbConsumer (claims : List String) : podPvcNames (dbConsumer claims) = claims := by
  simp [podPvcNames, dbConsumer]

theorem volumeCapacity_of_parse {info : VolumeInfo} {text : String} {n : Nat}
    (h : info.capacity = some text) (hparse : parseQuantityOrBytes text = some n)
    (hlt : n < 2 ^ 64) : volumeCapacity info = n := by
  rw [volumeCapacity, h, Option.bind_some, hparse, Option.getD_some, Nat.mod_eq_of_lt hlt]

theorem contribution_sibling {i : Nat} (h : i < refs.length + 1) :
    contribution (siblingWorld nodes refs) {} "db" (volumeName refs.length) "source"
        (volumeName i) =
      some (if i = refs.length then .member ⟨volumeName i, 10⟩
        else .anchor (siblingAnchor refs i)) := by
  have hpvc : (siblingWorld nodes refs).get .pvc ⟨"db", volumeName i⟩ =
      some (pvcBoundTo (volumeName i) (volumeName i)) :=
    get_storeOf (fun _ => rfl) h
  have hpv : (siblingWorld nodes refs).get .pv ⟨"", volumeName i⟩ = some (zfsPv (volumeName i)) :=
    get_storeOf (fun _ => rfl) h
  have hzv : (siblingWorld nodes refs).get .zfsVolume ⟨"openebs", volumeName i⟩ =
      some (zfsVolumeOn "source" (volumeName i)) :=
    get_storeOf (fun _ => rfl) h
  have hevac : (siblingWorld nodes refs).get .evacuation ⟨"", volumeName i⟩ =
      some (headingTo (volumeName i) refs[i]?) :=
    get_storeOf (fun _ => rfl) h
  have hbound : boundPv (siblingWorld nodes refs) "db" (volumeName i) = some (volumeName i) := by
    rw [boundPv, hpvc]
    rfl
  have hvolume : volumeOf (siblingWorld nodes refs) {} (volumeName i) =
      some (zfsVolumeOn "source" (volumeName i) : Obj .zfsVolume).data.spec := by
    rw [volumeOf, hpv]
    show Option.map _ ((siblingWorld nodes refs).get .zfsVolume ⟨"openebs", volumeName i⟩) = _
    rw [hzv]
    rfl
  rw [contribution, hbound, Option.bind_some, hvolume, Option.map_some, contributionAt, hevac]
  by_cases hi : i = refs.length
  · have hcapacity : volumeCapacity (zfsVolumeOn "source" (volumeName i) : Obj .zfsVolume).data.spec
        = 10 := by
      have hparse : parseQuantityOrBytes "10" = some 10 := by decide +kernel
      exact volumeCapacity_of_parse rfl hparse (by omega)
    rw [if_pos (by rw [hi]), if_pos hi, hcapacity]
  · have hlt : i < refs.length := by omega
    rw [if_neg fun heq => hi (volumeName_injective heq), if_neg hi, siblingAnchor,
      List.getElem?_eq_getElem hlt]
    rfl

theorem contributions_siblings :
    contributionsOf (siblingWorld nodes refs) {} "db" (volumeName refs.length) "source"
        (siblingConsumer refs) =
      (List.range refs.length).map (fun i => .anchor (siblingAnchor refs i)) ++
        [.member ⟨volumeName refs.length, 10⟩] := by
  have hclaims : contributionsOf (siblingWorld nodes refs) {} "db" (volumeName refs.length) "source"
      (siblingConsumer refs) = (List.range (refs.length + 1)).filterMap fun i =>
        some (if i = refs.length then .member ⟨volumeName i, 10⟩
          else .anchor (siblingAnchor refs i)) := by
    rw [contributionsOf, siblingConsumer, podPvcNames_dbConsumer, List.filterMap_map]
    exact List.filterMap_congr fun i hi => contribution_sibling nodes refs (List.mem_range.mp hi)
  rw [hclaims, List.filterMap_eq_map', List.range_succ, List.map_append, List.map_singleton,
    if_pos rfl]
  congr 1
  refine List.map_congr_left fun i hi => if_neg ?_
  have hlt := List.mem_range.mp hi
  omega

/-- The siblings vote with exactly the references of the list. -/
theorem anchors_siblings :
    (anchorsOf (contributionsOf (siblingWorld nodes refs) {} "db" (volumeName refs.length) "source"
      (siblingConsumer refs))).map (·.node) = refs := by
  rw [contributions_siblings]
  have hanchors : anchorsOf ((List.range refs.length).map (fun i =>
      Contribution.anchor (siblingAnchor refs i)) ++ [.member ⟨volumeName refs.length, 10⟩]) =
      (List.range refs.length).map (siblingAnchor refs) := by
    simp [anchorsOf, List.filterMap_append, List.filterMap_map]
  rw [hanchors, List.map_map]
  refine List.ext_getElem (by simp) fun i hi hi' => ?_
  simp [siblingAnchor, List.getElem?_eq_getElem hi']

end Siblings

/-! ## The anchor of a group -/

/-- The references of the siblings, read as select_target does. -/
def denotes (nodes : List (Obj .node)) (r : String) (n : Obj .node) : Bool :=
  matchesExplicit nodes r (nodeIdOf n)

theorem leads_pickAnchor {anchors : List Anchor} {a : Anchor} (h : pickAnchor anchors = some a) :
    Leads (anchors.map (·.node)) a.node := by
  rw [pickAnchor_eq] at h
  exact ((pickAnchorIn_eq_some (List.Perm.refl _)).mp h).1

theorem exists_pickAnchor {anchors : List Anchor} {n : String}
    (h : n ∈ anchors.map (·.node)) : ∃ a, pickAnchor anchors = some a := by
  refine Option.ne_none_iff_exists'.mp fun hnone => ?_
  rw [pickAnchor_eq, pickAnchorIn_eq_none (List.Perm.refl _)] at hnone
  rw [hnone] at h
  cases h

/-- The siblings of the consumer vote with references that are in use, in a cluster of these
nodes, and the anchor follows the node that holds most of them. -/
def AnchorFollows (nodes : ObjStore .node) (used : String → Prop) : Prop :=
  ∀ (w : World) cfg pvName r sourceNodeId pods pod cs g a, w.objects .node = nodes →
    (unscheduledPods pods).head? = some pod →
    exec w.serve (classifyClaims cfg pvName r.ns sourceNodeId (podPvcNames pod)) () =
      (.ok cs, ()) →
    exec w.serve (resolve cfg pvName r sourceNodeId pods) () = (.ok (some g), ()) →
    (∀ b ∈ anchorsOf cs, used b.node) → g.anchor = some a →
    Elects (denotes nodes.items) nodes.items ((anchorsOf cs).map (·.node)) a.node

theorem resolve_anchor {w : World} {cfg : Config} {pvName : String} {r : PvcRef}
    {sourceNodeId : String} {pods : List (Obj .pod)} {pod : Obj .pod} {cs : List Contribution}
    {g : Group} (hpod : (unscheduledPods pods).head? = some pod)
    (hcs : exec w.serve (classifyClaims cfg pvName r.ns sourceNodeId (podPvcNames pod)) () =
      (.ok cs, ()))
    (hg : exec w.serve (resolve cfg pvName r sourceNodeId pods) () = (.ok (some g), ())) :
    cs = contributionsOf w cfg r.ns pvName sourceNodeId pod ∧
      g.anchor = pickAnchor (anchorsOf cs) := by
  rw [exec_classifyClaims] at hcs
  rw [exec_resolve w cfg pvName sourceNodeId hpod] at hg
  have hcs' := Except.ok.inj (congrArg Prod.fst hcs)
  have hg' := Option.some.inj (Except.ok.inj (congrArg Prod.fst hg))
  exact ⟨hcs'.symm, by rw [← hg', ← hcs']; rfl⟩

theorem anchor_follows_iff (nodes : ObjStore .node) (used : String → Prop) :
    AnchorFollows nodes used ↔ Consistent (denotes nodes.items) nodes.items used := by
  constructor
  · intro h
    by_contra hbad
    obtain ⟨refs, best, hused, hleads, hfails⟩ := exists_not_elects hbad
    have hanchors := anchors_siblings nodes refs
    have hpod : (unscheduledPods [siblingConsumer refs]).head? = some (siblingConsumer refs) := rfl
    obtain ⟨a, ha⟩ := exists_pickAnchor (hanchors.symm ▸ hleads.mem)
    have hlead := leads_pickAnchor ha
    rw [hanchors] at hlead
    have helects := h (siblingWorld nodes refs) {} (volumeName refs.length) ⟨"db", "data", 1⟩
      "source" [siblingConsumer refs] (siblingConsumer refs) _ _ a rfl hpod
      (exec_classifyClaims ..) (exec_resolve _ _ _ _ hpod)
      (fun b hb => hused _ (hanchors ▸ List.mem_map_of_mem hb)) ha
    rw [hlead.unique hleads] at helects
    exact hfails (hanchors ▸ helects)
  · intro hconsistent w cfg pvName r sourceNodeId pods pod cs g a hnodes hpod hcs hg hused ha
    rw [(resolve_anchor hpod hcs hg).2] at ha
    refine elects_of_consistent hconsistent (fun q hq => ?_) (leads_pickAnchor ha)
    obtain ⟨b, hb, rfl⟩ := List.mem_map.mp hq
    exact hused b hb

/-- Two nodes, the first of which has an id of its own. -/
def splitNodes : ObjStore .node where
  items :=
    [⟨{ name := "worker-1", labels := [(nodeIdTopologyKey, "zone-1")] }, ({} : Node)⟩,
     ⟨{ name := "alpha" }, ({} : Node)⟩]
  nodup := by simp [Obj.key, ObjectMeta.key]

/-- Two siblings are to be on one node, by name and by id, and the third decides. -/
theorem anchor_leaves_majority :
    ∃ g, exec (siblingWorld splitNodes ["worker-1", "zone-1", "alpha"]).serve
        (resolve {} "pv-3" ⟨"db", "data", 1⟩ "source"
          [siblingConsumer ["worker-1", "zone-1", "alpha"]]) () = (.ok (some g), ()) ∧
      g.anchor.map (·.node) = some "alpha" ∧
      ¬ Elects (denotes splitNodes.items) splitNodes.items ["worker-1", "zone-1", "alpha"]
        "alpha" := by
  refine ⟨_, exec_resolve _ _ _ _ rfl, by decide +kernel, ?_⟩
  rintro ⟨n, hn, hdenotes, hmost⟩
  have hworker := hmost _ List.mem_cons_self
  obtain rfl := hdenotes.2 _ (List.mem_cons_of_mem _ List.mem_cons_self) (by decide)
  revert hworker
  decide

end ZfsEvacuation
