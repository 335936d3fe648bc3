import ZfsEvacuation.GroupReservation

/-!
# What target selection returns

The choice over arbitrary listings: a node is a candidate exactly if every condition on it
holds, and of the candidates the one with the most space left is returned.
-/
namespace ZfsEvacuation
open ClientProgram Program Reservation

/-! ## What the API server answers -/

/-- The objects that a selection comes across, in the order of the listings. -/
structure Listing where
  nodes : List (Obj .node)
  evacs : List (Obj .evacuation)
  zfsNodes : List (Obj .zfsNode)
  storageClass : String → Option (Obj .storageClass)

/-- The ids listed for the node-id key anywhere in a topology; none if the key does not
occur. -/
def topologyIds (topos : List (List TopologyRequirement)) : Option (List String) :=
  let exprs := topos.flatten.filter fun e => e.key == nodeIdTopologyKey
  if exprs.isEmpty then none else some (exprs.flatMap (·.values))

namespace Listing

def serve (l : Listing) : (c : Call) → Unit → c.Resp × Unit
  | .list .node _, s => ((.ok l.nodes : Except ApiError (List (Obj .node))), s)
  | .list .evacuation _, s => ((.ok l.evacs : Except ApiError (List (Obj .evacuation))), s)
  | .list .zfsNode _, s => ((.ok l.zfsNodes : Except ApiError (List (Obj .zfsNode))), s)
  | .get .storageClass key, s =>
    ((.ok (l.storageClass key.name) : Except ApiError (Option (Obj .storageClass))), s)
  | c, s => (({} : World).answer {} c, s)

/-- The selection with every call answered. -/
def select (l : Listing) (cfg : Config) (input : SelectionInput) : Except Error TargetInfo :=
  (exec l.serve (selectTarget cfg input) ()).1

def classOf (l : Listing) (pv : Obj .pv) : Option (Obj .storageClass) :=
  ((pvSpec pv).bind (·.storageClassName)).bind l.storageClass

/-- The topology of the volume's StorageClass. -/
def topologies (l : Listing) (pv : Obj .pv) : Option (List (List TopologyRequirement)) :=
  (l.classOf pv).bind fun o => let sc : StorageClass := o.data; sc.allowedTopologies

def allowedIds (l : Listing) (pv : Obj .pv) : Option (List String) :=
  (l.topologies pv).bind topologyIds

def classPool (l : Listing) (pv : Obj .pv) : Option String :=
  (l.classOf pv).bind fun o => let sc : StorageClass := o.data; sc.parameters.get "poolname"

def destPool (l : Listing) (input : SelectionInput) : String :=
  (resolveDestPoolname input.spec.targetPool (l.classPool input.pv) input.sourcePool).1

def view (l : Listing) (input : SelectionInput) : SelectionView :=
  { nodes := l.nodes, evacs := l.evacs, allowedIds := l.allowedIds input.pv
    component := poolComponent (l.destPool input), need := needBytes input }

variable (l : Listing) (cfg : Config) (input : SelectionInput)

theorem exec_storageClassOf (pv : Obj .pv) :
    exec l.serve (storageClassOf pv) () = (.ok (l.classOf pv), ()) := by
  unfold storageClassOf classOf
  cases (pvSpec pv).bind (·.storageClassName) <;> rfl

theorem exec_scPoolname (pv : Obj .pv) :
    exec l.serve (scPoolname pv) () = (.ok (l.classPool pv), ()) := by
  unfold scPoolname
  rw [bind_eq, exec_bind_ok (l.exec_storageClassOf pv), classPool]
  cases l.classOf pv <;> rfl

/-- A topology that lists no id at all for the key ends the selection. -/
theorem exec_allowedNodeIds (pv : Obj .pv) :
    (l.allowedIds pv ≠ some [] ∧
        exec l.serve (allowedNodeIds pv) () = (.ok (l.allowedIds pv), ())) ∨
      (l.allowedIds pv = some [] ∧
        ∃ text, exec l.serve (allowedNodeIds pv) () = (.error (.other text), ())) := by
  unfold allowedNodeIds
  rw [bind_eq, exec_bind_ok (l.exec_storageClassOf pv), allowedIds, topologies]
  cases hclass : l.classOf pv with
  | none => exact .inl ⟨by simp, rfl⟩
  | some o =>
    obtain ⟨m, (sc : StorageClass)⟩ := o
    simp only [Option.bind_some]
    cases htopos : sc.allowedTopologies with
    | none => exact .inl ⟨by simp, rfl⟩
    | some topos =>
      simp only [Option.bind_some, topologyIds]
      split_ifs with hempty hnone
      · exact .inl ⟨by simp, rfl⟩
      · have hids := List.isEmpty_iff.mp hnone
        exact .inr ⟨by rw [hids], _, rfl⟩
      · have hids : (topos.flatten.filter fun e => e.key == nodeIdTopologyKey).flatMap
            (·.values) ≠ [] := fun h => hnone (List.isEmpty_iff.mpr h)
        exact .inl ⟨by simpa using hids, rfl⟩

/-- The pool of the StorageClass is known; the topology is asked for next. -/
theorem select_eq_exec : l.select cfg input = (exec l.serve (do
    let allowedIds ← allowedNodeIds input.pv
    let zfsNodes ← listObjs .zfsNode { ns := some cfg.openebsNs }
    match chooseTarget cfg input { l.view input with allowedIds } (l.destPool input) zfsNodes with
    | .ok t => pure t
    | .error text => throw (.other text)) ()).1 :=
  congrArg Prod.fst (exec_bind_ok (l.exec_scPoolname input.pv))

theorem exec_chosen (chosen : Except String TargetInfo) {t : TargetInfo} :
    (exec l.serve (match chosen with
      | .ok t => (pure t : M TargetInfo)
      | .error text => throw (.other text)) ()).1 = .ok t ↔ chosen = .ok t := by
  cases chosen with
  | ok t' =>
    show (Except.ok t' : Except Error TargetInfo) = .ok t ↔ _
    rw [Except.ok.injEq, Except.ok.injEq]
  | error text =>
    show (Except.error (.other text) : Except Error TargetInfo) = .ok t ↔ _
    exact iff_of_false (fun h => by cases h) (fun h => by cases h)

theorem select_eq_ok_iff {t : TargetInfo} :
    l.select cfg input = .ok t ↔ l.allowedIds input.pv ≠ some [] ∧
      chooseTarget cfg input (l.view input) (l.destPool input) l.zfsNodes = .ok t := by
  rw [select_eq_exec, bind_eq]
  rcases l.exec_allowedNodeIds input.pv with ⟨hne, hids⟩ | ⟨hnone, text, hids⟩
  · rw [exec_bind_ok hids, and_iff_right hne]
    exact l.exec_chosen _
  · rw [exec_bind_error hids]
    simp [hnone]

end Listing

/-! ## What speaks for a node -/

theorem nodeIsReady_iff (node : Obj .node) :
    nodeIsReady node = true ↔ let data : Node := node.data
      (∃ c ∈ data.conditions, c.type_ = "Ready" ∧ c.status = "True") ∧
        data.unschedulable ≠ some true := by
  simp only [nodeIsReady, Bool.and_eq_true, List.any_eq_true, beq_iff_eq, Bool.not_eq_true']
  refine and_congr Iff.rfl ?_
  generalize Node.unschedulable node.data = u
  rcases u with _ | _ | _ <;> decide

theorem nodeHasEvacuateTaint_iff (node : Obj .node) (taintKey : String) :
    nodeHasEvacuateTaint node taintKey = false ↔ let data : Node := node.data
      ∀ t ∈ data.taints, t.key ≠ taintKey := by
  simp [nodeHasEvacuateTaint, List.any_eq_false]

theorem not_mem_busyTargets {evacName nodeId : String} {evacs : List (Obj .evacuation)} :
    nodeId ∉ busyTargets evacName evacs ↔ ∀ e ∈ evacs, e.name ≠ evacName → ∀ st t,
      statusOf e = some st → st.phase ≠ .failed → st.phase ≠ .completed → st.target = some t →
        t.nodeId ≠ nodeId := by
  constructor
  · intro h e he hname st t hst hfailed hcompleted ht hnode
    apply h
    rw [busyTargets, List.mem_filterMap]
    exact ⟨e, he, by simp [hst, hname, hfailed, hcompleted, ht, hnode]⟩
  · intro h hmem
    rw [busyTargets, List.mem_filterMap] at hmem
    obtain ⟨e, he, htarget⟩ := hmem
    cases hst : statusOf e with
    | none => simp [hst] at htarget
    | some st =>
      simp only [hst] at htarget
      split_ifs at htarget with hout
      simp only [not_or] at hout
      obtain ⟨t, ht, hnode⟩ := Option.map_eq_some_iff.mp htarget
      exact h e he hout.1 st t hst hout.2.1 hout.2.2 ht hnode

/-- Of nodes with different ids, the one that has an id is the first one found. -/
theorem find_nodeId_iff {nodes : List (Obj .node)} (hids : (nodes.map nodeIdOf).Nodup)
    {nodeId : String} {node : Obj .node} :
    (nodes.find? fun n => nodeIdOf n == nodeId) = some node ↔
      node ∈ nodes ∧ nodeIdOf node = nodeId := by
  constructor
  · intro h
    exact ⟨List.mem_of_find?_eq_some h, by simpa using List.find?_some h⟩
  · rintro ⟨hmem, hid⟩
    cases hfound : nodes.find? fun n => nodeIdOf n == nodeId with
    | none => exact absurd hid (by simpa using List.find?_eq_none.mp hfound node hmem)
    | some first =>
      have hfirst : nodeIdOf first = nodeId := by simpa using List.find?_some hfound
      rw [List.inj_on_of_nodup_map hids (List.mem_of_find?_eq_some hfound) hmem
        (hfirst.trans hid.symm)]

theorem matchesExplicit_iff {nodes : List (Obj .node)} (hnames : (nodes.map Obj.name).Nodup)
    {explicit nodeId : String} : matchesExplicit nodes explicit nodeId = true ↔
      explicit = nodeId ∨ ∃ n ∈ nodes, n.name = explicit ∧ nodeIdOf n = nodeId := by
  rw [matchesExplicit, Bool.or_eq_true, beq_iff_eq, or_comm]
  refine or_congr Iff.rfl ?_
  cases hfound : nodes.find? fun n => n.name == explicit with
  | none =>
    have hnone := List.find?_eq_none.mp hfound
    refine iff_of_false (by simp) ?_
    rintro ⟨n, hn, hname, -⟩
    exact hnone n hn (by simpa using hname)
  | some first =>
    have hmem := List.mem_of_find?_eq_some hfound
    have hname : first.name = explicit := by simpa using List.find?_some hfound
    simp only [Option.map_some, Option.getD_some, beq_iff_eq]
    constructor
    · intro hid
      exact ⟨first, hmem, hname, hid⟩
    · rintro ⟨n, hn, hnname, hnid⟩
      rwa [List.inj_on_of_nodup_map hnames hmem hn (hname.trans hnname.symm)]

/-- Bytes that others have reserved on the zpool that the volume would go to. -/
def Listing.reserved (l : Listing) (input : SelectionInput) (zn : Obj .zfsNode) : Nat :=
  reservedBytes input.evacName l.evacs zn.name (poolComponent (l.destPool input))

/-- Everything a target has to satisfy: a ZFSNode, the Node with its id, and a zpool. -/
structure Suitable (cfg : Config) (l : Listing) (input : SelectionInput) (zn : Obj .zfsNode)
    (node : Obj .node) (pool : ZfsPool) : Prop where
  away : zn.name ≠ input.sourceNodeId
  asked : ∀ e, input.spec.targetNode.or input.anchor = some e →
    e = zn.name ∨ ∃ n ∈ l.nodes, n.name = e ∧ nodeIdOf n = zn.name
  allowed : ∀ ids, l.allowedIds input.pv = some ids → zn.name ∈ ids
  listed : node ∈ l.nodes
  id : nodeIdOf node = zn.name
  ready : let data : Node := node.data
    (∃ c ∈ data.conditions, c.type_ = "Ready" ∧ c.status = "True") ∧ data.unschedulable ≠ some true
  untainted : let data : Node := node.data
    ∀ t ∈ data.taints, t.key ≠ cfg.taintKey
  idle : ∀ e ∈ l.evacs, e.name ≠ input.evacName → ∀ st t, statusOf e = some st →
    st.phase ≠ .failed → st.phase ≠ .completed → st.target = some t → t.nodeId ≠ zn.name
  placement : ∀ p, input.placement = some p → p.admits node = true
  offered : let inventory : ZFSNode := zn.data
    pool ∈ inventory.pools
  named : pool.name = poolComponent (l.destPool input)
  room : needBytes input + l.reserved input zn ≤ freeBytes pool

variable {cfg : Config} {l : Listing} {input : SelectionInput} {zn : Obj .zfsNode}
  {node : Obj .node} {pool : ZfsPool}

theorem parseQuantity_le {text : String} {n : Nat} (h : parseQuantity text = some n) :
    n ≤ maxU128 := by
  simp only [parseQuantity] at h
  split_ifs at h
  split at h
  · split_ifs at h
    obtain rfl := Option.some.inj h
    exact Nat.min_le_right ..
  · cases h

theorem parseUnsigned_le {max : Nat} {text : List Char} {n : Nat}
    (h : parseUnsigned max text = some n) : n ≤ max := by
  simp only [parseUnsigned] at h
  split_ifs at h with hbad hle
  obtain rfl := Option.some.inj h
  exact hle

/-- Free bytes fit the integers that they are counted with. -/
theorem freeBytes_lt (pool : ZfsPool) : freeBytes pool < 2 ^ 128 := by
  have hmax : maxU128 < 2 ^ 128 := by decide
  unfold freeBytes
  cases hfree : pool.free.bind parseQuantityOrBytes with
  | none => exact Nat.zero_lt_of_lt hmax
  | some n =>
    obtain ⟨text, -, htext⟩ := Option.bind_eq_some_iff.mp hfree
    have hle : n ≤ maxU128 := by
      unfold parseQuantityOrBytes at htext
      cases hplain : parseUnsigned maxU128 (trim text.toList) with
      | none =>
        rw [hplain] at htext
        exact parseQuantity_le htext
      | some n' =>
        rw [hplain] at htext
        obtain rfl := Option.some.inj htext
        exact parseUnsigned_le hplain
    exact Nat.lt_of_le_of_lt hle hmax

/-- Where more is free than reserved, the subtraction does not wrap around. -/
theorem subU128_eq {free res : Nat} (hle : res ≤ free) (hlt : free < 2 ^ 128) :
    subU128 free res = free - res := by
  unfold subU128
  omega

theorem needBytes_pos (h : 1 ≤ input.capacityBytes) : 1 ≤ needBytes input := by
  exact Nat.le_trans h (Nat.le_trans (Nat.le_add_right _ _) (Nat.le_add_right _ _))

/-- What a candidate on a node says about it: everything but its zpools speaks for it, and
the candidate is one of its zpools with enough space. -/
theorem inl_mem_nodeCandidates {view : SelectionView} {c : Candidate} :
    .inl c ∈ nodeCandidates cfg input view zn ↔ Eligible cfg input view zn ∧
      ∃ node pool, (view.nodes.find? fun n => nodeIdOf n == zn.name) = some node ∧
        pool ∈ poolsOf zn view.component ∧
        view.need ≤ freeBytes pool - reservedBytes input.evacName view.evacs zn.name pool.name ∧
        c = ⟨node.name, zn.name, subU128 (freeBytes pool)
          (reservedBytes input.evacName view.evacs zn.name pool.name)⟩ := by
  constructor
  · intro h
    unfold nodeCandidates at h
    cases hnode : view.nodes.find? fun n => nodeIdOf n == zn.name with
    | none =>
      simp only [hnode] at h
      split_ifs at h <;> simp at h
    | some node =>
      simp only [hnode] at h
      split_ifs at h with haway hasked hallowed hready htaint hbusy hplace hempty
      all_goals try simp at h
      obtain ⟨pool, hpool, heq⟩ := h
      split_ifs at heq with hroom
      refine ⟨⟨haway, by simpa using hasked, by simpa using hallowed, ⟨node, hnode,
        by simpa using hready, by simpa using htaint, by simpa using hplace⟩, by simpa using hbusy⟩,
        node, pool, rfl, List.mem_filter.mpr ⟨hpool.1, by simpa using hpool.2⟩, hroom, ?_⟩
      exact (Sum.inl.inj heq).symm
  · rintro ⟨heligible, node, pool, hnode, hpool, hroom, rfl⟩
    obtain ⟨node', hnode', hready, htaint, hplace⟩ := heligible.node
    obtain rfl : node = node' := Option.some.inj (hnode.symm.trans hnode')
    have hsome : (poolsOf zn view.component).isEmpty = false := by
      rw [List.isEmpty_eq_false_iff]
      exact List.ne_nil_of_mem hpool
    have hjudged : nodeCandidates cfg input view zn = (poolsOf zn view.component).map fun pool =>
        if view.need ≤ freeBytes pool - reservedBytes input.evacName view.evacs zn.name pool.name then
          .inl ⟨node.name, zn.name, subU128 (freeBytes pool)
            (reservedBytes input.evacName view.evacs zn.name pool.name)⟩
        else .inr (zn.name ++ ": zpool " ++ view.component ++ " has " ++
          toString (freeBytes pool - reservedBytes input.evacName view.evacs zn.name pool.name) ++
          " bytes free after reservations, need " ++ toString view.need) := by
      unfold nodeCandidates
      simp only [poolsOf] at hsome
      simp only [if_neg heligible.away, heligible.asked, heligible.allowed, hnode, hready, htaint,
        heligible.idle, hplace, hsome, Bool.not_true, Bool.false_eq_true, if_false]
      rfl
    rw [hjudged]
    exact List.mem_map.mpr ⟨pool, hpool, if_pos hroom⟩

/-- The conditions on a node, said without the order in which the code checks them. -/
theorem eligible_iff (hnames : (l.nodes.map Obj.name).Nodup) (hids : (l.nodes.map nodeIdOf).Nodup) :
    Eligible cfg input (l.view input) zn ∧
        ((l.view input).nodes.find? fun n => nodeIdOf n == zn.name) = some node ∧
        pool ∈ poolsOf zn (l.view input).component ∧
        needBytes input + l.reserved input zn ≤ freeBytes pool ↔
      Suitable cfg l input zn node pool := by
  have hasked : ((input.spec.targetNode.or input.anchor).any fun e =>
      !matchesExplicit l.nodes e zn.name) = false ↔
      ∀ e, input.spec.targetNode.or input.anchor = some e →
        e = zn.name ∨ ∃ n ∈ l.nodes, n.name = e ∧ nodeIdOf n = zn.name := by
    cases input.spec.targetNode.or input.anchor with
    | none => simp
    | some e => simp [← matchesExplicit_iff hnames]
  have hallowed : ((l.allowedIds input.pv).any fun ids => !ids.contains zn.name) = false ↔
      ∀ ids, l.allowedIds input.pv = some ids → zn.name ∈ ids := by
    cases l.allowedIds input.pv with
    | none => simp
    | some ids => simp
  have hidle : (busyTargets input.evacName l.evacs).contains zn.name = false ↔
      zn.name ∉ busyTargets input.evacName l.evacs := by simp
  have hplaced : ((input.placement.any fun p => !p.admits node) = false) ↔
      ∀ p, input.placement = some p → p.admits node = true := by
    cases input.placement with
    | none => simp
    | some p => simp
  have hpools : pool ∈ poolsOf zn (l.view input).component ↔
      (let inventory : ZFSNode := zn.data; pool ∈ inventory.pools) ∧
        pool.name = poolComponent (l.destPool input) := by
    simp [poolsOf, Listing.view]
  constructor
  · rintro ⟨h, hfound, hpool, hroom⟩
    obtain ⟨node', hnode', hready, htaint, hplace⟩ := h.node
    obtain rfl : node = node' := Option.some.inj (hfound.symm.trans hnode')
    obtain ⟨hlisted, hid⟩ := (find_nodeId_iff hids).mp hfound
    obtain ⟨hoffered, hnamed⟩ := hpools.mp hpool
    exact ⟨h.away, hasked.mp h.asked, hallowed.mp h.allowed, hlisted, hid,
      (nodeIsReady_iff node).mp hready, (nodeHasEvacuateTaint_iff node cfg.taintKey).mp htaint,
      not_mem_busyTargets.mp (hidle.mp h.idle), hplaced.mp hplace, hoffered, hnamed, hroom⟩
  · intro h
    have hfound := (find_nodeId_iff hids).mpr ⟨h.listed, h.id⟩
    exact ⟨⟨h.away, hasked.mpr h.asked, hallowed.mpr h.allowed,
      ⟨node, hfound, (nodeIsReady_iff node).mpr h.ready,
        (nodeHasEvacuateTaint_iff node cfg.taintKey).mpr h.untainted, hplaced.mpr h.placement⟩,
      hidle.mpr (not_mem_busyTargets.mpr h.idle)⟩, hfound,
      hpools.mpr ⟨h.offered, h.named⟩, h.room⟩

/-- A node yields a candidate for each zpool that everything speaks for, and no others. -/
theorem candidate_iff (hcap : 1 ≤ input.capacityBytes) (hnames : (l.nodes.map Obj.name).Nodup)
    (hids : (l.nodes.map nodeIdOf).Nodup) {c : Candidate} :
    .inl c ∈ nodeCandidates cfg input (l.view input) zn ↔
      ∃ node pool, Suitable cfg l input zn node pool ∧
        c = ⟨node.name, zn.name, freeBytes pool - l.reserved input zn⟩ := by
  have hneed := needBytes_pos hcap
  have hres : ∀ pool ∈ poolsOf zn (l.view input).component,
      reservedBytes input.evacName (l.view input).evacs zn.name pool.name = l.reserved input zn := by
    intro pool hpool
    have hname : pool.name = poolComponent (l.destPool input) := by
      simpa [Listing.view] using (List.mem_filter.mp hpool).2
    rw [hname]
    rfl
  rw [inl_mem_nodeCandidates]
  constructor
  · rintro ⟨heligible, node, pool, hfound, hpool, hroom, rfl⟩
    rw [hres pool hpool] at hroom ⊢
    have hroom' : needBytes input ≤ freeBytes pool - l.reserved input zn := hroom
    have hsub := subU128_eq (show l.reserved input zn ≤ freeBytes pool by omega) (freeBytes_lt pool)
    refine ⟨node, pool, (eligible_iff hnames hids).mp ⟨heligible, hfound, hpool, by omega⟩, ?_⟩
    rw [hsub]
  · rintro ⟨node, pool, h, rfl⟩
    obtain ⟨heligible, hfound, hpool, hroom⟩ := (eligible_iff hnames hids).mpr h
    refine ⟨heligible, node, pool, hfound, hpool, ?_, ?_⟩
    · rw [hres pool hpool]
      show needBytes input ≤ _
      omega
    · rw [hres pool hpool, subU128_eq (by omega) (freeBytes_lt pool)]

/-! ## The choice -/

theorem mem_judged {view : SelectionView} {zfsNodes : List (Obj .zfsNode)} {c : Candidate} :
    c ∈ (zfsNodes.flatMap (nodeCandidates cfg input view)).filterMap Sum.getLeft? ↔
      ∃ zn ∈ zfsNodes, .inl c ∈ nodeCandidates cfg input view zn := by
  rw [List.mem_filterMap]
  constructor
  · rintro ⟨judged, hmem, hleft⟩
    obtain ⟨zn, hzn, hin⟩ := List.mem_flatMap.mp hmem
    cases judged with
    | inl c' =>
      obtain rfl := Option.some.inj hleft
      exact ⟨zn, hzn, hin⟩
    | inr why => cases hleft
  · rintro ⟨zn, hzn, hin⟩
    exact ⟨.inl c, List.mem_flatMap.mpr ⟨zn, hzn, hin⟩, rfl⟩

/-- One candidate is enough for a choice. -/
theorem select_of_candidate {c : Candidate} (hne : l.allowedIds input.pv ≠ some [])
    (hmem : c ∈ (l.zfsNodes.flatMap (nodeCandidates cfg input (l.view input))).filterMap
      Sum.getLeft?) : ∃ t, l.select cfg input = .ok t := by
  cases hbest : mostAvailable ((l.zfsNodes.flatMap (nodeCandidates cfg input
      (l.view input))).filterMap Sum.getLeft?) with
  | none =>
    rw [mostAvailable_eq_none hbest] at hmem
    cases hmem
  | some best =>
    refine ⟨⟨best.node, best.nodeId, l.destPool input, ""⟩, ?_⟩
    refine (l.select_eq_ok_iff cfg input).mpr ⟨hne, ?_⟩
    simp only [chooseTarget, hbest]

/-- No topology that excludes every node leaves a suitable one. -/
theorem Suitable.allowedIds_ne (h : Suitable cfg l input zn node pool) :
    l.allowedIds input.pv ≠ some [] := by
  intro hnone
  have hmem := h.allowed [] hnone
  cases hmem

/-- Target selection returns a target exactly if there is a suitable one, and then one with
the most space left, under the full name of the destination. -/
theorem select_exact (hcap : 1 ≤ input.capacityBytes) (hnames : (l.nodes.map Obj.name).Nodup)
    (hids : (l.nodes.map nodeIdOf).Nodup) :
    ((∃ t, l.select cfg input = .ok t) ↔
        ∃ zn ∈ l.zfsNodes, ∃ node pool, Suitable cfg l input zn node pool) ∧
      ∀ t, l.select cfg input = .ok t → ∃ zn ∈ l.zfsNodes, ∃ node pool,
        Suitable cfg l input zn node pool ∧ t = ⟨node.name, zn.name, l.destPool input, ""⟩ ∧
        ∀ zn' ∈ l.zfsNodes, ∀ node' pool', Suitable cfg l input zn' node' pool' →
          (freeBytes pool' : Int) - l.reserved input zn' ≤ freeBytes pool - l.reserved input zn := by
  have hcand : ∀ c, c ∈ (l.zfsNodes.flatMap (nodeCandidates cfg input (l.view input))).filterMap
      Sum.getLeft? ↔ ∃ zn ∈ l.zfsNodes, ∃ node pool, Suitable cfg l input zn node pool ∧
        c = ⟨node.name, zn.name, freeBytes pool - l.reserved input zn⟩ := by
    intro c
    rw [mem_judged]
    simp only [candidate_iff hcap hnames hids]
  have hchosen : ∀ t, l.select cfg input = .ok t → ∃ zn ∈ l.zfsNodes, ∃ node pool,
      Suitable cfg l input zn node pool ∧ t = ⟨node.name, zn.name, l.destPool input, ""⟩ ∧
      ∀ zn' ∈ l.zfsNodes, ∀ node' pool', Suitable cfg l input zn' node' pool' →
        (freeBytes pool' : Int) - l.reserved input zn' ≤ freeBytes pool - l.reserved input zn := by
    intro t ht
    obtain ⟨-, hchoose⟩ := (l.select_eq_ok_iff cfg input).mp ht
    simp only [chooseTarget] at hchoose
    split at hchoose
    · rename_i best hbest
      obtain rfl := Except.ok.inj hchoose
      obtain ⟨zn, hzn, node, pool, hsuits, rfl⟩ := (hcand best).mp (mem_of_mostAvailable hbest)
      refine ⟨zn, hzn, node, pool, hsuits, rfl, ?_⟩
      intro zn' hzn' node' pool' hsuits'
      have hle := le_mostAvailable hbest ((hcand _).mpr ⟨zn', hzn', node', pool', hsuits', rfl⟩)
      have hroom := hsuits.room
      have hroom' := hsuits'.room
      dsimp only at hle
      omega
    · cases hchoose
  refine ⟨⟨?_, ?_⟩, hchosen⟩
  · rintro ⟨t, ht⟩
    obtain ⟨zn, hzn, node, pool, hsuits, -⟩ := hchosen t ht
    exact ⟨zn, hzn, node, pool, hsuits⟩
  · rintro ⟨zn, hzn, node, pool, hsuits⟩
    have hmem := (hcand _).mpr ⟨zn, hzn, node, pool, hsuits, rfl⟩
    exact select_of_candidate hsuits.allowedIds_ne hmem

namespace Sample

/-- Two nodes with a zpool each, and nothing else going on. -/
def twoNodes : Listing where
  nodes := [Sample.node "n1" "10.0.0.1", Sample.node "n2" "10.0.0.2"]
  evacs := []
  zfsNodes := [zfsNode "n1", zfsNode "n2"]
  storageClass := fun _ => none

def moveFromN1 : SelectionInput where
  evacName := "pv1"
  spec := { pvName := "pv1" }
  sourceNodeId := "n1"
  sourcePool := "tank"
  capacityBytes := 2 ^ 30
  pv := pv "pv1" "c1" "vol1" requested
  groupExtraBytes := 0
  anchor := none
  placement := none

end Sample

theorem select_exact_sample : ∃ zn ∈ Sample.twoNodes.zfsNodes, ∃ node pool,
    Suitable {} Sample.twoNodes Sample.moveFromN1 zn node pool := by
  have hselected : Sample.twoNodes.select {} Sample.moveFromN1 = .ok ⟨"n2", "n2", "tank", ""⟩ := by
    decide +kernel
  exact (select_exact (by decide) (by decide) (by decide)).1.mp ⟨_, hselected⟩

end ZfsEvacuation
