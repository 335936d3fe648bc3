import ZfsEvacuation.AnchorVote
import ZfsEvacuation.CountedOnce
import ZfsEvacuation.TransferSlots
import Mathlib.Data.List.ReduceOption

/-!
# What a selection finds out about its group

The volumes of one consumer must land on one node. Where the others have gone already, a
selection learns from what it reads of their claims, PVs, ZFSVolumes and evacuations. If that
shows one of them at least, the anchor is the node of all of them, and so is the choice.
-/
namespace ZfsEvacuation
open ClientProgram Program

/-! ## Reads of a reconcile -/

/-- The answers to the reads of one object. -/
def readsOf (k : Kind) (key : Key) (tr : Trace) : List (Option (Obj k)) :=
  tr.filterMap fun
    | ⟨.get k' key', (ans : Except ApiError (Option (Obj k')))⟩ =>
      if h : k' = k then if key' = key then (h ▸ ans).toOption else none else none
    | _ => none

/-- The listings of one kind of objects. -/
def listingsOf (k : Kind) (tr : Trace) : List (List (Obj k)) :=
  tr.filterMap fun
    | ⟨.list k' _, (ans : Except ApiError (List (Obj k')))⟩ =>
      if h : k' = k then (h ▸ ans).toOption else none
    | _ => none

theorem mem_readsOf {k : Kind} {key : Key} {tr : Trace} {o : Option (Obj k)}
    (h : sawEvent k key o ∈ tr) : o ∈ readsOf k key tr :=
  List.mem_filterMap.mpr ⟨_, h, by simp [sawEvent, Except.toOption]⟩

theorem mem_listingsOf {k : Kind} {sel : Selector} {tr : Trace} {l : List (Obj k)}
    (h : listedEvent k sel l ∈ tr) : l ∈ listingsOf k tr :=
  List.mem_filterMap.mpr ⟨_, h, by simp [listedEvent, Except.toOption]⟩

/-- The handle of a PV of zfs-localpv. -/
def zfsHandle (pv : Obj .pv) : Option String :=
  ((pvSpec pv).bind (·.csi)).bind fun csi =>
    if csi.driver = zfsDriver then some csi.volumeHandle else none

def volumeInfo (zv : Obj .zfsVolume) : VolumeInfo :=
  let data : ZFSVolume := zv.data
  data.spec

/-- The volumes that were read through the PVs of this name, none for a PV or a volume that
was not found. -/
def volumesRead (cfg : Config) (pvName : String) (tr : Trace) : List (Option VolumeInfo) :=
  (readsOf .pv ⟨"", pvName⟩ tr).flatMap fun pv => match pv.bind zfsHandle with
    | none => [none]
    | some handle => (readsOf .zfsVolume ⟨cfg.openebsNs, handle⟩ tr).map (·.map volumeInfo)

section Volumes
variable {cfg : Config} {pvName : String} {tr : Trace} {pv : Obj .pv} {csi : CsiSource}

theorem none_of_noPv (h : sawEvent .pv ⟨"", pvName⟩ none ∈ tr) :
    none ∈ volumesRead cfg pvName tr :=
  List.mem_flatMap.mpr ⟨none, mem_readsOf h, by simp⟩

theorem none_of_notZfs (h : sawEvent .pv ⟨"", pvName⟩ (some pv) ∈ tr)
    (hcsi : ∀ csi, (pvSpec pv).bind (·.csi) = some csi → csi.driver ≠ zfsDriver) :
    none ∈ volumesRead cfg pvName tr := by
  have hhandle : zfsHandle pv = none := by
    unfold zfsHandle
    cases hspec : (pvSpec pv).bind (·.csi) with
    | none => rfl
    | some csi => simp [hcsi csi hspec]
  exact List.mem_flatMap.mpr ⟨some pv, mem_readsOf h, by simp [hhandle]⟩

/-- A volume counts for every PV that leads to it. -/
theorem mem_volumesRead {zv : Option (Obj .zfsVolume)}
    (h : sawEvent .pv ⟨"", pvName⟩ (some pv) ∈ tr) (hcsi : (pvSpec pv).bind (·.csi) = some csi)
    (hdriver : csi.driver = zfsDriver)
    (hvol : sawEvent .zfsVolume ⟨cfg.openebsNs, csi.volumeHandle⟩ zv ∈ tr) :
    zv.map volumeInfo ∈ volumesRead cfg pvName tr := by
  have hhandle : zfsHandle pv = some csi.volumeHandle := by simp [zfsHandle, hcsi, hdriver]
  refine List.mem_flatMap.mpr ⟨some pv, mem_readsOf h, ?_⟩
  simp only [Option.bind_some, hhandle]
  exact List.mem_map_of_mem (mem_readsOf hvol)

end Volumes

/-! ## What a sibling contributes -/

/-- The target that an evacuation stands for while it is going on. -/
def standingTarget (e : Option (Obj .evacuation)) : Option TargetInfo :=
  (e.filter activeSibling).bind fun e => (statusOf e).bind (·.target)

section Contribution
variable {memberPv sourceNodeId : String} {info : VolumeInfo} {e : Option (Obj .evacuation)}
  {a : Anchor}

/-- Without an explicit target, a sibling is anchored by its own target or by its volume. -/
theorem contributionOf_plain (hplain : (e.bind fun e => (specOf e).targetNode) = none) :
    contributionOf memberPv sourceNodeId info e = match standingTarget e with
      | some t => .anchor ⟨t.nodeId, memberPv, "status.target"⟩
      | none => if info.ownerNodeId ≠ sourceNodeId then
          .anchor ⟨info.ownerNodeId, memberPv, "ZFSVolume owner"⟩
        else .member ⟨memberPv, volumeCapacity info⟩ := by
  have hfree : ((e.filter activeSibling).bind fun e => (specOf e).targetNode) = none := by
    cases e with
    | none => rfl
    | some e =>
      cases hactive : activeSibling e with
      | false => simp [Option.filter, hactive]
      | true => simpa [Option.filter, hactive] using hplain
  rw [contributionOf, hfree]
  rfl

theorem node_of_contribution (hplain : (e.bind fun e => (specOf e).targetNode) = none)
    (h : contributionOf memberPv sourceNodeId info e = .anchor a) :
    (∃ t, standingTarget e = some t ∧ a.node = t.nodeId) ∨
      standingTarget e = none ∧ info.ownerNodeId ≠ sourceNodeId ∧ a.node = info.ownerNodeId := by
  rw [contributionOf_plain hplain] at h
  cases ht : standingTarget e with
  | some t =>
    rw [ht] at h
    obtain rfl := Contribution.anchor.inj h
    exact .inl ⟨t, rfl, rfl⟩
  | none =>
    simp only [ht] at h
    split_ifs at h with howner
    obtain rfl := Contribution.anchor.inj h
    exact .inr ⟨rfl, howner, rfl⟩

/-- A sibling that is on its way, or off the source already, is an anchor. -/
theorem anchored_of_gone (hplain : (e.bind fun e => (specOf e).targetNode) = none)
    (h : standingTarget e = none → info.ownerNodeId ≠ sourceNodeId) :
    ∃ a, contributionOf memberPv sourceNodeId info e = .anchor a := by
  rw [contributionOf_plain hplain]
  cases ht : standingTarget e with
  | some t => exact ⟨_, rfl⟩
  | none => exact ⟨_, if_pos (h ht)⟩

end Contribution

theorem mem_anchorsOf {a : Anchor} {cs : List Contribution} :
    a ∈ anchorsOf cs ↔ .anchor a ∈ cs := by
  rw [anchorsOf, List.mem_filterMap]
  constructor
  · rintro ⟨c, hc, heq⟩
    cases c with
    | member m => cases heq
    | anchor b =>
      obtain rfl := Option.some.inj heq
      exact hc
  · exact fun h => ⟨.anchor a, h, rfl⟩

/-- Anchors at one node leave the vote no choice. -/
theorem node_of_unanimous {anchors : List Anchor} {node : String} (hne : anchors ≠ [])
    (hall : ∀ a ∈ anchors, a.node = node) : (pickAnchor anchors).map (·.node) = some node := by
  rw [pickAnchor_eq]
  cases h : pickAnchorIn (tally (anchors.map (·.node))) anchors with
  | none => exact absurd ((pickAnchorIn_eq_none (List.Perm.refl _)).mp h) hne
  | some a =>
    obtain ⟨hleads, -⟩ := (pickAnchorIn_eq_some (List.Perm.refl _)).mp h
    obtain ⟨b, hb, hnode⟩ := List.mem_map.mp hleads.mem
    rw [Option.map_some, ← hnode, hall b hb]

/-! ## The group -/

/-- The claims of one never-scheduled consumer and the PV that each of them is bound to, if
any. The volumes are to leave the same node. -/
structure ConsumerGroup where
  ns : String
  claims : List String
  pvOf : String → Option String
  sourceNodeId : String

def ConsumerGroup.members (G : ConsumerGroup) : List String := G.claims.filterMap G.pvOf

theorem ConsumerGroup.mem_members {G : ConsumerGroup} {claim m : String} (h : claim ∈ G.claims)
    (hm : G.pvOf claim = some m) : m ∈ G.members := List.mem_filterMap.mpr ⟨claim, h, hm⟩

/-- The node that a volume has gone to or is on its way to. -/
abbrev Homes := String → Option String

section Group
variable (cfg : Config) (G : ConsumerGroup) (home : Homes) (n : String) (tr : Trace)

/-- The members that have gone somewhere have gone to one node. -/
def OneNode : Prop :=
  ∀ m ∈ G.members, ∀ m' ∈ G.members, ∀ node node', home m = some node → home m' = some node' →
    node = node'

/-- No member has gone to the node that all of them leave. -/
def OffSource : Prop := ∀ m ∈ G.members, home m ≠ some G.sourceNodeId

/-- A selection for the claim reads the group as it is: the pod with its claims, the PVs they
are bound to, no explicit targets, and the volumes on the source or where they have gone. -/
structure ReadsGroup (claim : String) : Prop where
  consumer : ∀ pods ∈ listingsOf .pod tr,
    (unscheduledPods (pods.filter (podReferencesPvc claim))).head?.map podPvcNames = some G.claims
  bound : ∀ claim ∈ G.claims, ∀ pvc ∈ readsOf .pvc ⟨G.ns, claim⟩ tr,
    (pvc.bind fun pvc => PersistentVolumeClaim.volumeName pvc.data) = G.pvOf claim
  plain : ∀ m ∈ G.members, ∀ e ∈ readsOf .evacuation ⟨"", m⟩ tr,
    (e.bind fun e => (specOf e).targetNode) = none
  placed : ∀ m ∈ G.members, m ≠ n → ∀ info ∈ (volumesRead cfg m tr).reduceOption,
    ∀ e ∈ readsOf .evacuation ⟨"", m⟩ tr, standingTarget e = none →
      info.ownerNodeId = G.sourceNodeId ∨ home m = some info.ownerNodeId

/-- The reads show a member on its way to the node, or its volume there. -/
structure ShownAt (m node : String) : Prop where
  found : ∀ info ∈ volumesRead cfg m tr, info.isSome = true
  there : ∀ info ∈ (volumesRead cfg m tr).reduceOption, ∀ e ∈ readsOf .evacuation ⟨"", m⟩ tr,
    standingTarget e = none → info.ownerNodeId = node

/-- If other members have gone somewhere, the selection of `n` finds one of them there, and no
other node goes by the id of theirs. -/
structure FindsSibling : Prop where
  shown : (∃ m ∈ G.members, m ≠ n ∧ home m ≠ none) →
    ∃ m ∈ G.members, m ≠ n ∧ ∃ node, home m = some node ∧ ShownAt cfg tr m node
  named : ∀ m ∈ G.members, m ≠ n → ∀ node, home m = some node →
    ∀ nodes ∈ listingsOf .node tr, ∀ x ∈ nodes, x.name = node → nodeIdOf x = node

/-- The targets that the selection has read are those the other members still go to. -/
def ReadsAgree : Prop :=
  ∀ m ∈ G.members, m ≠ n → ∀ e t, ReadInSelection tr m e → standingTarget e = some t →
    ∀ m' ∈ G.members, m' ≠ n → ∀ node, home m' = some node → t.nodeId = node

end Group

/-! ## The choice -/

section Choice
variable {cfg : Config} {G : ConsumerGroup} {home : Homes} {view : Obj .evacuation} {tr : Trace}
  {ref : PvcRef} {m node : String}

theorem ReadInSelection.saw {e : Option (Obj .evacuation)} (h : ReadInSelection tr m e) :
    sawEvent .evacuation ⟨"", m⟩ e ∈ tr := by
  obtain ⟨post, hsuffix, -⟩ := h
  exact hsuffix.subset (List.mem_cons_self ..)

/-- Each contribution comes from one of the claims, and each claim contributes. -/
theorem ClaimsSeen.traced {ns sourceNodeId : String} {claims : List String} {cs : List Contribution}
    (h : ClaimsSeen cfg view tr ns sourceNodeId claims cs) :
    (∀ c ∈ cs, ∃ claim ∈ claims, ClaimSeen cfg view tr ns sourceNodeId claim (some c)) ∧
      ∀ claim ∈ claims, ∃ c, ClaimSeen cfg view tr ns sourceNodeId claim c ∧ c.toList ⊆ cs := by
  induction h with
  | nil => simp
  | cons claim claims c cs head tail ih =>
    constructor
    · intro x hx
      rcases List.mem_append.mp hx with hx | hx
      · obtain rfl := Option.mem_toList.mp hx
        exact ⟨claim, List.mem_cons_self, head⟩
      · obtain ⟨claim', hmem, hseen⟩ := ih.1 x hx
        exact ⟨claim', List.mem_cons_of_mem _ hmem, hseen⟩
    · intro claim' hmem
      rcases List.mem_cons.mp hmem with rfl | hmem
      · exact ⟨c, head, List.subset_append_left ..⟩
      · obtain ⟨c', hseen, hsub⟩ := ih.2 claim' hmem
        exact ⟨c', hseen, List.Subset.trans hsub (List.subset_append_right ..)⟩

/-- What a claim of the consumer is found to contribute: nothing where it has no PV or the PV or
its volume is missing, else itself, or what another member of the group contributes. -/
theorem ClaimSeen.cases_member {claim : String}
    (hg : ReadsGroup cfg G home view.name tr ref.name) (hclaim : claim ∈ G.claims)
    {c : Option Contribution} (h : ClaimSeen cfg view tr G.ns G.sourceNodeId claim c) :
    c = none ∧ (∀ m, G.pvOf claim = some m → none ∈ volumesRead cfg m tr) ∨
      G.pvOf claim = some view.name ∧ (∃ own, c = some (.member own)) ∨
        ∃ m, G.pvOf claim = some m ∧ m ≠ view.name ∧
          ∃ info ∈ (volumesRead cfg m tr).reduceOption, ∃ e, ReadInSelection tr m e ∧
            c = some (contributionOf m G.sourceNodeId info e) := by
  have hbound : ∀ {pvc}, sawEvent .pvc ⟨G.ns, claim⟩ pvc ∈ tr →
      (pvc.bind fun pvc => PersistentVolumeClaim.volumeName pvc.data) = G.pvOf claim :=
    fun hseen => hg.bound claim hclaim _ (mem_readsOf hseen)
  have hnone : ∀ {memberPv}, G.pvOf claim = some memberPv → none ∈ volumesRead cfg memberPv tr →
      ∀ m, G.pvOf claim = some m → none ∈ volumesRead cfg m tr := by
    intro memberPv hpv hmissing m hm
    rwa [← Option.some.inj (hpv.symm.trans hm)]
  cases h with
  | noClaim h =>
    refine .inl ⟨rfl, fun m hm => ?_⟩
    cases (hbound h).trans hm
  | unbound m pvc h hv =>
    refine .inl ⟨rfl, fun m hm => ?_⟩
    cases hv.symm.trans ((hbound h).trans hm)
  | noPv m pvc memberPv h hv hpv =>
    exact .inl ⟨rfl, hnone ((hbound h).symm.trans hv) (none_of_noPv hpv)⟩
  | notZfs m pvc memberPv pv h hv hpv hcsi =>
    exact .inl ⟨rfl, hnone ((hbound h).symm.trans hv) (none_of_notZfs hpv hcsi)⟩
  | noVolume m pvc memberPv pv csi h hv hpv hcsi hvol =>
    refine .inl ⟨rfl, hnone ((hbound h).symm.trans hv) ?_⟩
    by_cases hdriver : csi.driver = zfsDriver
    · exact mem_volumesRead hpv hcsi hdriver hvol
    · refine none_of_notZfs hpv fun csi' hcsi' => ?_
      rwa [← Option.some.inj (hcsi.symm.trans hcsi')]
  | own m pvc zv h hv => exact .inr (.inl ⟨(hbound h).symm.trans hv, _, rfl⟩)
  | sibling m pvc memberPv pv csi mv zv e h hv hpv hcsi hdriver hvol hother he =>
    have hread := mem_volumesRead hpv hcsi hdriver hvol
    exact .inr (.inr ⟨memberPv, (hbound h).symm.trans hv, hother, zv.spec,
      List.reduceOption_mem_iff.mpr hread, e, he, rfl⟩)

/-- An anchor comes from another member, and is the node that the others have gone to. -/
theorem ClaimSeen.anchor_node (hg : ReadsGroup cfg G home view.name tr ref.name)
    (hread : ReadsAgree G home view.name tr) (hone : OneNode G home) {claim : String}
    (hclaim : claim ∈ G.claims) {a : Anchor}
    (h : ClaimSeen cfg view tr G.ns G.sourceNodeId claim (some (.anchor a)))
    (hm : m ∈ G.members) (hne : m ≠ view.name) (hhome : home m = some node) : a.node = node := by
  rcases h.cases_member hg hclaim with
    ⟨hnone, -⟩ | ⟨-, own, hown⟩ | ⟨sibling, hpv, hother, info, hinfo, e, he, heq⟩
  · cases hnone
  · cases hown
  have hmember := G.mem_members hclaim hpv
  have hseen := mem_readsOf he.saw
  rcases node_of_contribution (hg.plain _ hmember e hseen) (Option.some.inj heq).symm with
    ⟨t, ht, hnode⟩ | ⟨hnot, howner, hnode⟩
  · rw [hnode]
    exact hread _ hmember hother e t he ht m hm hne node hhome
  · rcases hg.placed _ hmember hother info hinfo e hseen hnot with hsource | hthere
    · exact absurd hsource howner
    · rw [hnode]
      exact hone _ hmember m hm _ _ hthere hhome

/-- A member that is shown where it has gone is an anchor. -/
theorem ClaimSeen.of_shown (hg : ReadsGroup cfg G home view.name tr ref.name)
    (haway : OffSource G home) {claim : String} (hclaim : claim ∈ G.claims)
    {c : Option Contribution} (h : ClaimSeen cfg view tr G.ns G.sourceNodeId claim c)
    (hpv : G.pvOf claim = some m) (hne : m ≠ view.name) (hhome : home m = some node)
    (hshown : ShownAt cfg tr m node) : ∃ a, c = some (.anchor a) := by
  rcases h.cases_member hg hclaim with
    ⟨-, hmissing⟩ | ⟨hown, -⟩ | ⟨sibling, hpv', -, info, hinfo, e, he, heq⟩
  · cases hshown.found _ (hmissing m hpv)
  · exact absurd (Option.some.inj (hpv.symm.trans hown)) hne
  obtain rfl : m = sibling := Option.some.inj (hpv.symm.trans hpv')
  have hmember := G.mem_members hclaim hpv
  have hseen := mem_readsOf he.saw
  have haway' : standingTarget e = none → info.ownerNodeId ≠ G.sourceNodeId := by
    intro hnot howner
    refine haway m hmember ?_
    rw [hhome, ← hshown.there info hinfo e hseen hnot, howner]
  obtain ⟨a, ha⟩ : ∃ a, contributionOf m G.sourceNodeId info e = .anchor a :=
    anchored_of_gone (hg.plain m hmember e hseen) haway'
  exact ⟨a, by rw [heq, ha]⟩

/-- The anchor of the group that is found is the node of the members that have gone. -/
theorem ClaimsSeen.anchor (hg : ReadsGroup cfg G home view.name tr ref.name)
    (hf : FindsSibling cfg G home view.name tr) (hread : ReadsAgree G home view.name tr)
    (hone : OneNode G home) (haway : OffSource G home) {cs : List Contribution}
    (h : ClaimsSeen cfg view tr G.ns G.sourceNodeId G.claims cs)
    (hm : m ∈ G.members) (hne : m ≠ view.name) (hhome : home m = some node) :
    (pickAnchor (anchorsOf cs)).map (·.node) = some node := by
  obtain ⟨hfrom, hinto⟩ := h.traced
  refine node_of_unanimous ?_ fun a ha => ?_
  · obtain ⟨m', hm', hother, node', hhome', hshown⟩ := hf.shown ⟨m, hm, hne, by simp [hhome]⟩
    obtain ⟨claim, hclaim, hpv⟩ := List.mem_filterMap.mp hm'
    obtain ⟨c, hseen, hsub⟩ := hinto claim hclaim
    obtain ⟨a, rfl⟩ := hseen.of_shown hg haway hclaim hpv hother hhome' hshown
    exact List.ne_nil_of_mem (mem_anchorsOf.mpr (hsub (Option.mem_toList.mpr rfl)))
  · obtain ⟨claim, hclaim, hseen⟩ := hfrom _ (mem_anchorsOf.mp ha)
    exact hseen.anchor_node hg hread hone hclaim hm hne hhome

/-- A node that goes by its id alone is asked for by its id. -/
theorem id_of_matchesExplicit {nodes : List (Obj .node)} {nodeId : String}
    (h : matchesExplicit nodes node nodeId = true)
    (hnamed : ∀ x ∈ nodes, x.name = node → nodeIdOf x = node) : nodeId = node := by
  rcases Bool.or_eq_true_iff.mp h with hname | hid
  · cases hfound : nodes.find? fun x => x.name == node with
    | none => simp [hfound] at hname
    | some x =>
      have hx : x.name = node := by simpa using List.find?_some hfound
      have hid : nodeIdOf x = nodeId := by simpa [hfound] using hname
      rw [← hid]
      exact hnamed x (List.mem_of_find?_eq_some hfound) hx
  · exact (beq_iff_eq.mp hid).symm

/-- A choice is off the source node and meets what is asked for. -/
theorem eligible_of_chosen {input : SelectionInput} {sview : SelectionView} {destPool : String}
    {zfsNodes : List (Obj .zfsNode)} {t : TargetInfo}
    (h : chooseTarget cfg input sview destPool zfsNodes = .ok t) :
    ∃ zn : Obj .zfsNode, zn.name = t.nodeId ∧ Reservation.Eligible cfg input sview zn := by
  unfold chooseTarget at h
  simp only at h
  split at h
  · rename_i c hc
    obtain rfl := Except.ok.inj h
    obtain ⟨zn, -, hzn⟩ := mem_judged.mp (mem_of_mostAvailable hc)
    obtain ⟨heligible, node', pool, -, -, -, rfl⟩ := inl_mem_nodeCandidates.mp hzn
    exact ⟨zn, rfl, heligible⟩
  · cases h

variable {source : SourceInfo} {group : Option Group} {t : TargetInfo}

/-- A target is never on the source node. -/
theorem Selection.away (facts : Selection cfg view tr source ref group t) :
    t.nodeId ≠ source.nodeId := by
  obtain ⟨pv, sview, destPool, zfsNodes, -, -, hchosen⟩ := facts.chosen
  obtain ⟨zn, hzn, heligible⟩ := eligible_of_chosen hchosen
  rw [← hzn]
  exact heligible.away

/-- A selection that finds one of the members that have gone chooses their node. -/
theorem Selection.follows (facts : Selection cfg view tr source ref group t)
    (hmode : (specOf view).mode = .whenClaimed) (hfree : (specOf view).targetNode = none)
    (hns : ref.ns = G.ns) (hsource : source.nodeId = G.sourceNodeId)
    (hg : ReadsGroup cfg G home view.name tr ref.name)
    (hf : FindsSibling cfg G home view.name tr) (hread : ReadsAgree G home view.name tr)
    (hone : OneNode G home) (haway : OffSource G home)
    (hm : m ∈ G.members) (hne : m ≠ view.name) (hhome : home m = some node) :
    t.nodeId = node := by
  obtain ⟨pods, hlisted, hgroup⟩ : GroupSeen cfg view tr ref source.nodeId group := by
    have hseen := facts.group_seen
    rwa [hmode] at hseen
  have hconsumer := hg.consumer pods (mem_listingsOf hlisted)
  cases hpod : (unscheduledPods (pods.filter (podReferencesPvc ref.name))).head? with
  | none => simp [hpod] at hconsumer
  | some pod =>
    rw [hpod] at hconsumer hgroup
    obtain ⟨cs, g, rfl, hclaims, hanchor⟩ := hgroup
    rw [Option.some.inj hconsumer, hns, hsource] at hclaims
    obtain ⟨pv, sview, destPool, zfsNodes, hnodes, -, hchosen⟩ := facts.chosen
    obtain ⟨zn, hzn, heligible⟩ := eligible_of_chosen hchosen
    have hasked := heligible.asked
    have hexplicit : (selectionInput view.name (specOf view) source pv (some g)).anchor =
        some node := by
      show g.anchor.map (·.node) = some node
      rw [hanchor]
      exact hclaims.anchor hg hf hread hone haway hm hne hhome
    have hspec : (selectionInput view.name (specOf view) source pv (some g)).spec.targetNode =
        none := hfree
    rw [hspec, hexplicit] at hasked
    rw [← hzn]
    refine id_of_matchesExplicit (by simpa using hasked) ?_
    exact hf.named m hm hne node hhome sview.nodes (mem_listingsOf hnodes)

end Choice

end ZfsEvacuation
