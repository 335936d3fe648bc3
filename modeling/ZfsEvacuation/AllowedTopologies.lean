import ZfsEvacuation.TargetChoice
import Mathlib.Data.Fintype.EquivFin

/-!
# Topologies of a StorageClass

Kubernetes reads a list of topology terms as a disjunction of conjunctions over the labels
of a node. Target selection keeps one set of node ids of it. The two agree on every node
exactly if the topology has a certain form.
-/
namespace ZfsEvacuation
open ClientProgram Program Reservation

/-! ## What a topology says -/

namespace Topology

/-- The labels that a topology is evaluated on: the node-id key stands for the identity of
the node. -/
def label (nodeId : String) (labels : StrMap) (key : String) : Option String :=
  if key = nodeIdTopologyKey then some nodeId else labels.get key

def TermHolds (nodeId : String) (labels : StrMap) (term : List TopologyRequirement) : Prop :=
  ∀ e ∈ term, ∃ v, label nodeId labels e.key = some v ∧ v ∈ e.values

/-- Terms are alternatives, and no terms at all allow every node. Whether a term without
expressions allows every node or none is up to `emptyHolds`. -/
def Allows (emptyHolds : Bool) (topos : List (List TopologyRequirement)) (nodeId : String)
    (labels : StrMap) : Prop :=
  topos = [] ∨ ∃ term ∈ topos, (term = [] → emptyHolds = true) ∧ TermHolds nodeId labels term

/-- The set of ids that target selection keeps lets the node pass. -/
def Passes (topos : List (List TopologyRequirement)) (nodeId : String) : Prop :=
  ∀ ids, topologyIds topos = some ids → nodeId ∈ ids

def Mentions (topos : List (List TopologyRequirement)) : Prop :=
  ∃ term ∈ topos, ∃ e ∈ term, e.key = nodeIdTopologyKey

def Listed (topos : List (List TopologyRequirement)) (nodeId : String) : Prop :=
  ∃ term ∈ topos, ∃ e ∈ term, e.key = nodeIdTopologyKey ∧ nodeId ∈ e.values

/-- Two expressions of the term, or one without values, cannot both hold of any label. -/
def Contradictory (term : List TopologyRequirement) : Prop :=
  ∃ e ∈ term, ∀ v ∈ e.values, ∃ e' ∈ term, e'.key = e.key ∧ v ∉ e'.values

/-- The form in which one set of ids says the same as the topology: either nothing is asked
of the id and nothing is asked at all, or every term that can hold asks for the id, and every
id listed somewhere is enough for some term. -/
def Plain (emptyHolds : Bool) (topos : List (List TopologyRequirement)) : Prop :=
  (¬ Mentions topos ∧ (topos = [] ∨ (emptyHolds = true ∧ [] ∈ topos))) ∨
    (Mentions topos ∧ ¬ (emptyHolds = true ∧ [] ∈ topos) ∧
      (∀ term ∈ topos, term ≠ [] → (∀ e ∈ term, e.key ≠ nodeIdTopologyKey) →
        Contradictory term) ∧
      ∀ nodeId, Listed topos nodeId → ∃ term ∈ topos, term ≠ [] ∧
        ∀ e ∈ term, e.key = nodeIdTopologyKey ∧ nodeId ∈ e.values)

variable {emptyHolds : Bool} {topos : List (List TopologyRequirement)} {nodeId : String}
  {labels : StrMap} {term : List TopologyRequirement}

theorem passes_iff : Passes topos nodeId ↔ ¬ Mentions topos ∨ Listed topos nodeId := by
  have hexprs : (topos.flatten.filter fun e => e.key == nodeIdTopologyKey) = [] ↔
      ¬ Mentions topos := by
    simp only [Mentions, List.filter_eq_nil_iff, List.mem_flatten, beq_iff_eq]
    constructor
    · rintro h ⟨term, hterm, e, he, hkey⟩
      exact h e ⟨term, hterm, he⟩ hkey
    · rintro h e ⟨term, hterm, he⟩ hkey
      exact h ⟨term, hterm, e, he, hkey⟩
  have hlisted : nodeId ∈ (topos.flatten.filter fun e => e.key == nodeIdTopologyKey).flatMap
      (·.values) ↔ Listed topos nodeId := by
    simp only [Listed, List.mem_flatMap, List.mem_filter, List.mem_flatten, beq_iff_eq]
    constructor
    · rintro ⟨e, ⟨⟨term, hterm, he⟩, hkey⟩, hid⟩
      exact ⟨term, hterm, e, he, hkey, hid⟩
    · rintro ⟨term, hterm, e, he, hkey, hid⟩
      exact ⟨e, ⟨⟨term, hterm, he⟩, hkey⟩, hid⟩
  by_cases hmentions : Mentions topos
  · have hne : (topos.flatten.filter fun e => e.key == nodeIdTopologyKey).isEmpty = false := by
      rw [List.isEmpty_eq_false_iff]
      exact fun h => hexprs.mp h hmentions
    simp only [Passes, topologyIds, hne, Bool.false_eq_true, if_false, Option.some.injEq,
      forall_eq', hlisted, hmentions, not_true_eq_false, false_or]
  · have hempty : (topos.flatten.filter fun e => e.key == nodeIdTopologyKey).isEmpty = true :=
      List.isEmpty_iff.mpr (hexprs.mpr hmentions)
    simp only [Passes, topologyIds, hempty, if_true, hmentions, not_false_eq_true, true_or, iff_true]
    rintro ids ⟨⟩

/-- There is always an id that a topology does not list. -/
theorem exists_not_listed (topos : List (List TopologyRequirement)) : ∃ id, ¬ Listed topos id := by
  obtain ⟨id, hid⟩ := Infinite.exists_notMem_finset
    (topos.flatten.flatMap (·.values)).toFinset
  refine ⟨id, ?_⟩
  rintro ⟨term, hterm, e, he, -, hv⟩
  apply hid
  rw [List.mem_toFinset, List.mem_flatMap]
  exact ⟨e, List.mem_flatten.mpr ⟨term, hterm, he⟩, hv⟩

theorem get_map_key {α : Type} (key value : α → String) (l : List α) {a : α} (ha : a ∈ l) :
    ∃ b ∈ l, key b = key a ∧ StrMap.get (l.map fun x => (key x, value x)) (key a) =
      some (value b) := by
  induction l with
  | nil => cases ha
  | cons x l ih =>
    by_cases hkey : key a = key x
    · refine ⟨x, List.mem_cons_self, hkey.symm, ?_⟩
      simp [StrMap.get, hkey]
    · have hne : a ≠ x := fun h => hkey (h ▸ rfl)
      obtain ⟨b, hb, hbkey, hget⟩ := ih (List.mem_of_ne_of_mem hne ha)
      refine ⟨b, List.mem_cons_of_mem _ hb, hbkey, ?_⟩
      have hfalse : (key a == key x) = false := by simpa using hkey
      simpa [StrMap.get, List.lookup_cons, hfalse] using hget

/-- A term that does not ask for the id and does not contradict itself holds for some labels,
whatever the id. -/
theorem exists_termHolds (hother : ∀ e ∈ term, e.key ≠ nodeIdTopologyKey)
    (hpossible : ¬ Contradictory term) : ∃ labels, ∀ nodeId, TermHolds nodeId labels term := by
  have hcommon : ∀ e ∈ term, ∃ v ∈ e.values, ∀ e' ∈ term, e'.key = e.key → v ∈ e'.values := by
    intro e he
    by_contra hnone
    refine hpossible ⟨e, he, ?_⟩
    intro v hv
    by_contra hall
    refine hnone ⟨v, hv, ?_⟩
    intro e' he' hkey
    by_contra hnot
    exact hall ⟨e', he', hkey, hnot⟩
  choose! value hvalue hshared using hcommon
  refine ⟨term.map fun e => (e.key, value e), ?_⟩
  intro nodeId e he
  obtain ⟨b, hb, hkey, hget⟩ := get_map_key (·.key) value term he
  refine ⟨value b, ?_, hshared b hb e he hkey.symm⟩
  rw [label, if_neg (hother e he)]
  exact hget

theorem plain_of_agrees (h : ∀ nodeId labels, Passes topos nodeId ↔
    Allows emptyHolds topos nodeId labels) : Plain emptyHolds topos := by
  by_cases hmentions : Mentions topos
  · have hlisted : ∀ nodeId labels, Listed topos nodeId ↔
        Allows emptyHolds topos nodeId labels := by
      intro nodeId labels
      rw [← h nodeId labels, passes_iff]
      simp [hmentions]
    obtain ⟨fresh, hfresh⟩ := exists_not_listed topos
    have hempty : ¬ (emptyHolds = true ∧ [] ∈ topos) := by
      rintro ⟨hholds, hmem⟩
      refine hfresh ((hlisted fresh []).mpr (.inr ⟨[], hmem, fun _ => hholds, ?_⟩))
      intro e he
      cases he
    refine .inr ⟨hmentions, hempty, ?_, ?_⟩
    · intro term hterm hne hother
      by_contra hpossible
      obtain ⟨labels, hholds⟩ := exists_termHolds hother hpossible
      exact hfresh ((hlisted fresh labels).mpr
        (.inr ⟨term, hterm, fun hnil => absurd hnil hne, hholds fresh⟩))
    · intro nodeId hid
      rcases (hlisted nodeId []).mp hid with hnil | ⟨term, hterm, hempty', hholds⟩
      · obtain ⟨term, hterm, -⟩ := hmentions
        rw [hnil] at hterm
        cases hterm
      · refine ⟨term, hterm, fun hnil => hempty ⟨hempty' hnil, hnil ▸ hterm⟩, ?_⟩
        intro e he
        obtain ⟨v, hlabel, hv⟩ := hholds e he
        by_cases hkey : e.key = nodeIdTopologyKey
        · rw [label, if_pos hkey] at hlabel
          obtain rfl := Option.some.inj hlabel
          exact ⟨hkey, hv⟩
        · rw [label, if_neg hkey] at hlabel
          cases hlabel
  · refine .inl ⟨hmentions, ?_⟩
    have hall := (h "" []).mp (passes_iff.mpr (.inl hmentions))
    rcases hall with hnil | ⟨term, hterm, hempty, hholds⟩
    · exact .inl hnil
    · cases term with
      | nil => exact .inr ⟨hempty rfl, hterm⟩
      | cons e term =>
        obtain ⟨v, hlabel, -⟩ := hholds e List.mem_cons_self
        have hkey : e.key ≠ nodeIdTopologyKey := fun hkey =>
          hmentions ⟨_, hterm, e, List.mem_cons_self, hkey⟩
        rw [label, if_neg hkey] at hlabel
        cases hlabel

theorem agrees_of_plain (h : Plain emptyHolds topos) :
    Passes topos nodeId ↔ Allows emptyHolds topos nodeId labels := by
  rw [passes_iff]
  rcases h with ⟨hmentions, hfree⟩ | ⟨hmentions, hempty, hterms, hids⟩
  · refine iff_of_true (.inl hmentions) ?_
    rcases hfree with hnil | ⟨hholds, hmem⟩
    · exact .inl hnil
    · refine .inr ⟨[], hmem, fun _ => hholds, ?_⟩
      intro e he
      cases he
  · simp only [hmentions, not_true_eq_false, false_or]
    constructor
    · intro hlisted
      obtain ⟨term, hterm, hne, hall⟩ := hids nodeId hlisted
      refine .inr ⟨term, hterm, fun hnil => absurd hnil hne, ?_⟩
      intro e he
      obtain ⟨hkey, hv⟩ := hall e he
      exact ⟨nodeId, by rw [label, if_pos hkey], hv⟩
    · rintro (hnil | ⟨term, hterm, hempty', hholds⟩)
      · obtain ⟨term, hterm, -⟩ := hmentions
        rw [hnil] at hterm
        cases hterm
      · by_cases hasks : ∃ e ∈ term, e.key = nodeIdTopologyKey
        · obtain ⟨e, he, hkey⟩ := hasks
          obtain ⟨v, hlabel, hv⟩ := hholds e he
          rw [label, if_pos hkey] at hlabel
          obtain rfl := Option.some.inj hlabel
          exact ⟨term, hterm, e, he, hkey, hv⟩
        · have hother : ∀ e ∈ term, e.key ≠ nodeIdTopologyKey := fun e he hkey =>
            hasks ⟨e, he, hkey⟩
          have hne : term ≠ [] := fun hnil => hempty ⟨hempty' hnil, hnil ▸ hterm⟩
          obtain ⟨e, he, hall⟩ := hterms term hterm hne hother
          obtain ⟨v, hlabel, hv⟩ := hholds e he
          obtain ⟨e', he', hkey, hnot⟩ := hall v hv
          obtain ⟨v', hlabel', hv'⟩ := hholds e' he'
          rw [hkey, hlabel] at hlabel'
          obtain rfl := Option.some.inj hlabel'
          exact absurd hv' hnot

/-- The identity of a node is what its node-id label says. -/
theorem allows_cons : Allows emptyHolds topos nodeId ((nodeIdTopologyKey, nodeId) :: labels) ↔
    Allows emptyHolds topos nodeId labels := by
  have hlabel : label nodeId ((nodeIdTopologyKey, nodeId) :: labels) = label nodeId labels := by
    funext key
    unfold label
    split_ifs with hkey
    · rfl
    · have hfalse : (key == nodeIdTopologyKey) = false := by simpa using hkey
      simp [StrMap.get, List.lookup_cons, hfalse]
  unfold Allows TermHolds
  rw [hlabel]

end Topology

/-! ## What target selection makes of it -/

section Selection
variable (cfg : Config) (l : Listing) (input : SelectionInput) (zn : Obj .zfsNode)

/-- But for the topology, the node would be a candidate. -/
def OtherwiseFit : Prop :=
  ∃ c, .inl c ∈ nodeCandidates cfg input { l.view input with allowedIds := none } zn

/-- The selection gets as far as judging nodes, and this one is a candidate. -/
def Considered : Prop :=
  l.allowedIds input.pv ≠ some [] ∧ ∃ c, .inl c ∈ nodeCandidates cfg input (l.view input) zn

end Selection

variable {cfg : Config} {l : Listing} {input : SelectionInput} {zn : Obj .zfsNode}
  {topos : List (List TopologyRequirement)} {t : TargetInfo}

/-- The terms that the volume's StorageClass has; none without such a class. -/
def Listing.terms (l : Listing) (pv : Obj .pv) : List (List TopologyRequirement) :=
  (l.topologies pv).getD []

theorem allowedIds_eq (l : Listing) (pv : Obj .pv) :
    l.allowedIds pv = topologyIds (l.terms pv) := by
  unfold Listing.allowedIds Listing.terms
  cases l.topologies pv <;> rfl

/-- On the ground of the topology, a node is left out exactly if the ids do not let it pass. -/
theorem considered_iff : Considered cfg l input zn ↔
    OtherwiseFit cfg l input zn ∧ Topology.Passes (l.terms input.pv) zn.name := by
  have hids := allowedIds_eq l input.pv
  unfold Considered OtherwiseFit
  simp only [inl_mem_nodeCandidates]
  constructor
  · rintro ⟨-, c, h, hcand⟩
    refine ⟨⟨c, ⟨h.away, h.asked, rfl, h.node, h.idle⟩, hcand⟩, ?_⟩
    intro ids hsome
    have hallowed : ((l.allowedIds input.pv).any fun ids => !ids.contains zn.name) = false := h.allowed
    rw [hids, hsome] at hallowed
    simpa using hallowed
  · rintro ⟨⟨c, h, hcand⟩, hpasses⟩
    rw [hids]
    refine ⟨?_, c, ⟨h.away, h.asked, ?_, h.node, h.idle⟩, hcand⟩
    · intro hnone
      have hmem := hpasses [] hnone
      cases hmem
    · show ((l.allowedIds input.pv).any fun ids => !ids.contains zn.name) = false
      rw [hids]
      cases hsome : topologyIds (l.terms input.pv) with
      | none => rfl
      | some ids =>
        have hmem := hpasses ids hsome
        simpa using hmem

theorem considered_of_select (h : l.select cfg input = .ok t) :
    ∃ zn ∈ l.zfsNodes, zn.name = t.nodeId ∧ Considered cfg l input zn := by
  obtain ⟨hne, hchoose⟩ := (l.select_eq_ok_iff cfg input).mp h
  simp only [chooseTarget] at hchoose
  split at hchoose
  · rename_i best hbest
    obtain rfl := Except.ok.inj hchoose
    obtain ⟨zn, hzn, hin⟩ := mem_judged.mp (mem_of_mostAvailable hbest)
    obtain ⟨-, node, pool, -, -, -, rfl⟩ := inl_mem_nodeCandidates.mp hin
    exact ⟨zn, hzn, rfl, hne, _, hin⟩
  · cases hchoose

theorem select_of_considered (hzn : zn ∈ l.zfsNodes) (h : Considered cfg l input zn) :
    ∃ t, l.select cfg input = .ok t := by
  obtain ⟨hne, c, hin⟩ := h
  exact select_of_candidate hne (mem_judged.mpr ⟨zn, hzn, hin⟩)

/-- Target selection honours a topology: whatever else is in the cluster, it places a volume
on a node only if the topology allows the node, and it passes over an otherwise fit node
only if not. -/
structure Honours (emptyHolds : Bool) (topos : List (List TopologyRequirement)) : Prop where
  placed : ∀ (cfg : Config) (l : Listing) (input : SelectionInput) (t : TargetInfo),
    l.terms input.pv = topos → l.select cfg input = .ok t →
    ∀ node ∈ l.nodes, nodeIdOf node = t.nodeId →
      Topology.Allows emptyHolds topos t.nodeId node.metadata.labels
  spared : ∀ (cfg : Config) (l : Listing) (input : SelectionInput),
    l.terms input.pv = topos → ∀ zn ∈ l.zfsNodes, ∀ node ∈ l.nodes, nodeIdOf node = zn.name →
      Topology.Allows emptyHolds topos zn.name node.metadata.labels →
      OtherwiseFit cfg l input zn → Considered cfg l input zn

namespace Sample

def labelled (nodeId : String) (labels : StrMap) : Obj .node :=
  ⟨{ name := "n2", labels := (nodeIdTopologyKey, nodeId) :: labels },
    ({ conditions := [⟨"Ready", "True"⟩] } : Node)⟩

/-- A node of this identity with some labels, alone in its cluster, and a volume whose
StorageClass has the topology. -/
def oneNode (topos : List (List TopologyRequirement)) (nodeId : String) (labels : StrMap) :
    Listing where
  nodes := [labelled nodeId labels]
  evacs := []
  zfsNodes := [zfsNode nodeId]
  storageClass := fun _ => some ⟨{ name := "zfs" }, ({ allowedTopologies := some topos } : StorageClass)⟩

def classedMove (source : String) : SelectionInput where
  evacName := "pv1"
  spec := { pvName := "pv1" }
  sourceNodeId := source
  sourcePool := "tank"
  capacityBytes := 2 ^ 30
  pv := ⟨{ name := "pv1" }, ({ spec := some { storageClassName := some "zfs" } } : PersistentVolume)⟩
  groupExtraBytes := 0
  anchor := none
  placement := none

@[simp] theorem nodeIdOf_labelled (nodeId : String) (labels : StrMap) :
    nodeIdOf (labelled nodeId labels) = nodeId := by
  simp [nodeIdOf, labelled, StrMap.get]

theorem oneNode_fit {nodeId source : String} {labels : StrMap} (h : nodeId ≠ source) :
    OtherwiseFit {} (oneNode topos nodeId labels) (classedMove source) (zfsNode nodeId) := by
  have hcomponent : ((oneNode topos nodeId labels).view (classedMove source)).component = "tank" :=
    tank_component
  have hfound : ((oneNode topos nodeId labels).nodes.find? fun n => nodeIdOf n == nodeId) =
      some (labelled nodeId labels) := by
    simp [oneNode]
  have hroom : needBytes (classedMove source) ≤ freeBytes { name := "tank", free := some "100Gi" } := by
    have hany : needBytes (classedMove "") ≤ freeBytes { name := "tank", free := some "100Gi" } := by
      decide +kernel
    exact hany
  refine ⟨_, inl_mem_nodeCandidates.mpr ⟨⟨h, rfl, rfl, ⟨_, hfound, rfl, rfl, rfl⟩, rfl⟩,
    _, { name := "tank", free := some "100Gi" }, hfound, ?_, hroom, rfl⟩⟩
  simp [poolsOf, hcomponent, zfsNode]

end Sample

/-- Where a topology is not of the plain form, some node is treated otherwise than it says,
even in a cluster that has no other node. -/
theorem honours_iff {emptyHolds : Bool} :
    Honours emptyHolds topos ↔ Topology.Plain emptyHolds topos := by
  constructor
  · intro h
    refine Topology.plain_of_agrees fun nodeId labels => ?_
    obtain ⟨source, hsource⟩ := Infinite.exists_notMem_finset {nodeId}
    have hne : nodeId ≠ source := fun heq => hsource (by simp [heq])
    have hfit : OtherwiseFit {} (Sample.oneNode topos nodeId labels) (Sample.classedMove source)
        (Sample.zfsNode nodeId) := Sample.oneNode_fit hne
    have hterms : (Sample.oneNode topos nodeId labels).terms (Sample.classedMove source).pv = topos := rfl
    have hid := Sample.nodeIdOf_labelled nodeId labels
    rw [← Topology.allows_cons]
    constructor
    · intro hpasses
      have hconsidered := considered_iff.mpr ⟨hfit, hterms ▸ hpasses⟩
      obtain ⟨t, ht⟩ := select_of_considered List.mem_cons_self hconsidered
      obtain ⟨zn, hzn, hname, -⟩ := considered_of_select ht
      obtain rfl := List.mem_singleton.mp hzn
      have hnode : nodeId = t.nodeId := hname
      subst hnode
      exact h.placed _ _ _ t hterms ht _ List.mem_cons_self hid
    · intro hallows
      have hconsidered := h.spared _ _ _ hterms _ List.mem_cons_self _ List.mem_cons_self hid
        hallows hfit
      exact hterms ▸ (considered_iff.mp hconsidered).2
  · intro h
    refine ⟨fun cfg l input t hterms ht node hnode hid => ?_,
      fun cfg l input hterms zn hzn node hnode hid hallows hfit => ?_⟩
    · obtain ⟨zn, -, hname, hconsidered⟩ := considered_of_select ht
      have hpasses := (considered_iff.mp hconsidered).2
      rw [hterms, hname] at hpasses
      exact (Topology.agrees_of_plain h).mp hpasses
    · refine considered_iff.mpr ⟨hfit, ?_⟩
      rw [hterms]
      exact (Topology.agrees_of_plain h).mpr hallows

namespace Sample

/-- The class allows n2 in zone a only; the node n2 is in zone b. -/
def zoned : Listing :=
  oneNode [[⟨nodeIdTopologyKey, ["n2"]⟩, ⟨"topology.kubernetes.io/zone", ["a"]⟩]] "n2"
    [("topology.kubernetes.io/zone", "b")]

end Sample

theorem not_honours : ∃ t, Sample.zoned.select {} (Sample.classedMove "n1") = .ok t ∧
    t.nodeId = "n2" ∧ ∀ emptyHolds, ¬ Topology.Allows emptyHolds
      (Sample.zoned.terms (Sample.classedMove "n1").pv) "n2"
        [("topology.kubernetes.io/zone", "b")] := by
  have hselected : Sample.zoned.select {} (Sample.classedMove "n1") =
      .ok ⟨"n2", "n2", "tank", ""⟩ := by decide +kernel
  refine ⟨_, hselected, rfl, ?_⟩
  rintro emptyHolds (hnil | ⟨term, hterm, -, hholds⟩)
  · cases hnil
  · obtain rfl := List.mem_singleton.mp hterm
    obtain ⟨v, hlabel, hv⟩ := hholds ⟨"topology.kubernetes.io/zone", ["a"]⟩ (by simp)
    revert hlabel hv
    simp only [Topology.label, nodeIdTopologyKey, StrMap.get]
    rintro ⟨⟩
    decide

end ZfsEvacuation
