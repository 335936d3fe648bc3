import ZfsEvacuation.EvacuationSystem

/-!
# Room for a co-location group

A leader is admitted to a node that has room for its whole group; its members follow one
after another. What the ledger and the members' own needs add up to at each turn decides
whether the node still takes the next one.
-/
namespace ZfsEvacuation.Reservation

/-! ## Bytes and needs -/

def bytesOf (ms : List ColocationMember) : Nat := (ms.map (·.capacityBytes)).sum

def needOf (headroom : Option Nat) (bytes : Nat) : Nat :=
  bytes + bytes * headroom.getD defaultHeadroomPercent / 100

theorem bytesOf_append (ms ms' : List ColocationMember) :
    bytesOf (ms ++ ms') = bytesOf ms + bytesOf ms' := by simp [bytesOf]

theorem bytesOf_cons (m : ColocationMember) (ms : List ColocationMember) :
    bytesOf (m :: ms) = m.capacityBytes + bytesOf ms := by simp [bytesOf]

theorem bytesOf_perm {ms ms' : List ColocationMember} (h : ms.Perm ms') : bytesOf ms = bytesOf ms' :=
  (h.map _).sum_nat

/-- Rounding down once leaves at least as much as rounding down twice. -/
theorem needOf_add (headroom : Option Nat) (a b : Nat) :
    needOf headroom a + needOf headroom b ≤ needOf headroom (a + b) := by
  unfold needOf
  rw [Nat.add_mul]
  generalize a * headroom.getD defaultHeadroomPercent = x
  generalize b * headroom.getD defaultHeadroomPercent = y
  omega

theorem le_needOf (headroom : Option Nat) (bytes : Nat) : bytes ≤ needOf headroom bytes :=
  Nat.le_add_right _ _

/-! ## The ledger -/

/-- What some of the evacuations keep reserved on one zpool of one node. -/
def reservedIn (evacName : String) (placed : List String) (evacs : List (Obj .evacuation))
    (nodeId pool : String) : Nat :=
  (((evacs.filterMap (reservation evacName placed)).filter
    fun r => r.1 = (nodeId, pool)).map (·.2)).sum

section Ledger
variable {evacName nodeId pool : String} {placed : List String}

theorem reservedIn_append (evacs evacs' : List (Obj .evacuation)) :
    reservedIn evacName placed (evacs ++ evacs') nodeId pool =
      reservedIn evacName placed evacs nodeId pool + reservedIn evacName placed evacs' nodeId pool := by
  simp [reservedIn]

theorem reservedIn_perm {evacs evacs' : List (Obj .evacuation)} (h : evacs.Perm evacs') :
    reservedIn evacName placed evacs nodeId pool = reservedIn evacName placed evacs' nodeId pool :=
  (((h.filterMap _).filter _).map _).sum_nat

/-- A member whose evacuation is completed, with the members it had left to place when it
chose its target. -/
structure Landed (nodeId pool : String) (m : ColocationMember) (left : List ColocationMember)
    (e : Obj .evacuation) : Prop where
  name : e.name = m.pvName
  status : ∃ st t c, statusOf e = some st ∧ st.phase = .completed ∧ st.target = some t ∧
    t.nodeId = nodeId ∧ poolComponent t.pool = pool ∧ st.colocation = some c ∧ c.members.Perm left

/-- The evacuations of the members that have moved, in the order they moved. -/
inductive Landings (nodeId pool : String) (left : List ColocationMember) :
    List ColocationMember → List (Obj .evacuation) → Prop
  | nil : Landings nodeId pool left [] []
  | cons (m : ColocationMember) (ms : List ColocationMember) (e : Obj .evacuation)
      (es : List (Obj .evacuation)) (head : Landed nodeId pool m (m :: ms ++ left) e)
      (tail : Landings nodeId pool left ms es) : Landings nodeId pool left (m :: ms) (e :: es)

theorem Landings.placedEvacs_eq {left moved : List ColocationMember} {es : List (Obj .evacuation)}
    (h : Landings nodeId pool left moved es) : placedEvacs es = moved.map (·.pvName) := by
  induction h with
  | nil => rfl
  | cons m ms e es head _ ih =>
    obtain ⟨st, t, c, hst, -, ht, -⟩ := head.status
    have hkeep : (statusOf e).any (·.target.isSome) = true := by simp [hst, ht]
    unfold placedEvacs at ih ⊢
    simp only [List.filter_cons, hkeep, if_true, List.map_cons, ih, head.name]

/-- A moved member reserves every member that is still to be placed, except the one that
is choosing. -/
theorem reservation_landed {m f : ColocationMember} {ms rest : List ColocationMember}
    {e : Obj .evacuation} (h : Landed nodeId pool m (m :: ms ++ f :: rest) e)
    (hnames : ((m :: ms ++ f :: rest).map (·.pvName)).Nodup)
    (hms : ∀ x ∈ ms, x.pvName ∈ placed) (hrest : ∀ x ∈ rest, x.pvName ∉ placed) :
    reservation f.pvName placed e = some ((nodeId, pool), bytesOf rest) := by
  obtain ⟨st, t, c, hst, hphase, ht, rfl, rfl, hc, hperm⟩ := h.status
  have hnames' : (m.pvName ∉ ms.map (·.pvName) ∧ m.pvName ≠ f.pvName ∧
      m.pvName ∉ rest.map (·.pvName)) ∧ f.pvName ∉ rest.map (·.pvName) := by
    simp only [List.cons_append, List.map_cons, List.map_append, List.nodup_cons,
      List.mem_append, List.mem_cons, not_or, List.nodup_append] at hnames
    exact ⟨hnames.1, hnames.2.2.1.1⟩
  obtain ⟨⟨hm, hmf, hmrest⟩, hf⟩ := hnames'
  have hkept : ((m :: ms ++ f :: rest).filter fun x => x.pvName ≠ e.name).filter (fun x =>
      x.pvName ≠ f.pvName ∧ ¬ placed.contains x.pvName) = rest := by
    have hnil : (ms.filter fun x => x.pvName ≠ e.name).filter (fun x =>
        x.pvName ≠ f.pvName ∧ ¬ placed.contains x.pvName) = [] := by
      refine List.filter_eq_nil_iff.mpr fun x hx => ?_
      have hmem := hms x (List.mem_of_mem_filter hx)
      simp [hmem]
    have hself : (rest.filter fun x => x.pvName ≠ e.name).filter (fun x =>
        x.pvName ≠ f.pvName ∧ ¬ placed.contains x.pvName) = rest := by
      rw [List.filter_filter]
      refine List.filter_eq_self.mpr fun x hx => ?_
      have hxf : x.pvName ≠ f.pvName := fun heq => hf (heq ▸ List.mem_map_of_mem hx)
      have hxm : x.pvName ≠ e.name := fun heq =>
        hmrest (h.name ▸ heq ▸ List.mem_map_of_mem hx)
      simp [hxf, hxm, hrest x hx]
    rw [List.cons_append, List.filter_cons_of_neg (by simp [h.name]), List.filter_append,
      List.filter_append, hnil, List.nil_append, List.filter_cons_of_pos (by simp [h.name, Ne.symm hmf]),
      List.filter_cons_of_neg (by simp), hself]
  have hbytes := bytesOf_perm ((hperm.filter fun x => x.pvName ≠ e.name).filter fun x =>
    x.pvName ≠ f.pvName ∧ ¬ placed.contains x.pvName)
  rw [hkept] at hbytes
  have hne : e.name ≠ f.pvName := h.name ▸ hmf
  simp only [reservation, hst, hne, hphase, reduceCtorEq, or_self, if_false, ht, hc, Option.map_some,
    if_true, Nat.zero_add]
  rw [← hbytes]
  rfl

theorem reservedIn_landings {f : ColocationMember} {rest moved : List ColocationMember}
    {es : List (Obj .evacuation)} (h : Landings nodeId pool (f :: rest) moved es)
    (hnames : ((moved ++ f :: rest).map (·.pvName)).Nodup)
    (hmoved : ∀ x ∈ moved, x.pvName ∈ placed) (hrest : ∀ x ∈ rest, x.pvName ∉ placed) :
    reservedIn f.pvName placed es nodeId pool = moved.length * bytesOf rest := by
  induction h with
  | nil => simp [reservedIn]
  | cons m ms e es head _ ih =>
    have hms : ∀ x ∈ ms, x.pvName ∈ placed := fun x hx => hmoved x (List.mem_cons_of_mem _ hx)
    have hhead := reservation_landed head hnames hms hrest
    have htail := ih (List.nodup_cons.mp hnames).2 hms
    have hone : reservedIn f.pvName placed [e] nodeId pool = bytesOf rest := by
      simp [reservedIn, hhead]
    rw [← List.singleton_append, reservedIn_append, hone, htail, List.length_cons, Nat.succ_mul, Nat.add_comm]

end Ledger

/-! ## The capacity check -/

/-- Everything but the capacity of its zpool speaks for the node. -/
structure Eligible (cfg : Config) (input : SelectionInput) (view : SelectionView)
    (zn : Obj .zfsNode) : Prop where
  away : zn.name ≠ input.sourceNodeId
  asked : ((input.spec.targetNode.or input.anchor).any fun e =>
    !matchesExplicit view.nodes e zn.name) = false
  allowed : (view.allowedIds.any fun ids => !ids.contains zn.name) = false
  node : ∃ node, (view.nodes.find? fun n => nodeIdOf n == zn.name) = some node ∧
    nodeIsReady node = true ∧ nodeHasEvacuateTaint node cfg.taintKey = false ∧
    (input.placement.any fun p => !p.admits node) = false
  idle : (busyTargets input.evacName view.evacs).contains zn.name = false

def poolsOf (zn : Obj .zfsNode) (component : String) : List ZfsPool :=
  let inventory : ZFSNode := zn.data
  inventory.pools.filter fun p => p.name == component

def freeBytes (pool : ZfsPool) : Nat := (pool.free.bind parseQuantityOrBytes).getD 0

/-- The node takes the volume. -/
def Admits (cfg : Config) (input : SelectionInput) (view : SelectionView) (zn : Obj .zfsNode) :
    Prop := ∃ c, Sum.inl c ∈ nodeCandidates cfg input view zn

/-- Of an eligible node with one such zpool, only the capacity check is left. -/
theorem poolAdmits_iff {cfg : Config} {input : SelectionInput} {view : SelectionView}
    {zn : Obj .zfsNode} {pool : ZfsPool} (h : Eligible cfg input view zn)
    (hpool : poolsOf zn view.component = [pool]) :
    Admits cfg input view zn ↔
      view.need ≤ freeBytes pool - reservedBytes input.evacName view.evacs zn.name view.component := by
  obtain ⟨node, hnode, hready, htaint, hplace⟩ := h.node
  have hname : pool.name = view.component := by
    have hmem : pool ∈ poolsOf zn view.component := hpool ▸ List.mem_singleton_self pool
    simpa using (List.mem_filter.mp hmem).2
  have hcand : nodeCandidates cfg input view zn =
      if view.need ≤ freeBytes pool - reservedBytes input.evacName view.evacs zn.name view.component then
        [.inl ⟨node.name, zn.name, subU128 (freeBytes pool)
          (reservedBytes input.evacName view.evacs zn.name view.component)⟩]
      else [.inr (zn.name ++ ": zpool " ++ view.component ++ " has " ++
        toString (freeBytes pool - reservedBytes input.evacName view.evacs zn.name view.component) ++
        " bytes free after reservations, need " ++ toString view.need)] := by
    unfold nodeCandidates
    simp only [poolsOf] at hpool
    simp only [if_neg h.away, h.asked, h.allowed, hnode, hready, htaint, h.idle, hplace, hpool,
      Bool.not_true, Bool.false_eq_true, if_false, List.isEmpty_cons, List.map_cons, List.map_nil,
      hname]
    have hfree : (pool.free.bind parseQuantityOrBytes).getD 0 = freeBytes pool := rfl
    rw [hfree]
    split_ifs <;> rfl
  unfold Admits
  rw [hcand]
  split_ifs with hfits
  · exact ⟨fun _ => hfits, fun _ => ⟨_, List.mem_singleton_self _⟩⟩
  · refine ⟨fun ⟨c, hc⟩ => ?_, fun hle => absurd hle hfits⟩
    cases List.mem_singleton.mp hc

/-! ## A member's turn -/

/-- What a claim of the consumer contributes to the group of the member that is choosing,
by whether its volume has already moved to the node. -/
structure Contributes (sourceNodeId nodeId : String) (moved : List ColocationMember)
    (f : ColocationMember) (rest : List ColocationMember) (of : ColocationMember → Contribution) :
    Prop where
  self : of f = .member f
  moved : ∀ m ∈ moved, ∃ info sibling, of m = contributionOf m.pvName sourceNodeId info sibling ∧
    info.ownerNodeId = nodeId ∧ ∀ e, sibling = some e → activeSibling e = false
  waiting : ∀ m ∈ rest, ∃ info sibling, of m = contributionOf m.pvName sourceNodeId info sibling ∧
    info.ownerNodeId = sourceNodeId ∧ volumeCapacity info = m.capacityBytes ∧
    ∀ e, sibling = some e → (specOf e).targetNode = none ∧ (statusOf e).bind (·.target) = none

/-- The group of the member that is choosing is made of those still to be placed. -/
theorem membersOf_contributions {sourceNodeId nodeId : String} {moved rest : List ColocationMember}
    {f : ColocationMember} {of : ColocationMember → Contribution} (haway : nodeId ≠ sourceNodeId)
    (h : Contributes sourceNodeId nodeId moved f rest of) :
    membersOf ((moved ++ f :: rest).map of) = f :: rest := by
  have hmoved : membersOf (moved.map of) = [] := by
    refine List.filterMap_eq_nil_iff.mpr fun c hc => ?_
    obtain ⟨m, hm, rfl⟩ := List.mem_map.mp hc
    obtain ⟨info, sibling, hof, howner, hover⟩ := h.moved m hm
    have hnone : sibling.filter activeSibling = none := by
      cases hs : sibling with
      | none => rfl
      | some e => simp [hover e hs]
    have howner' : info.ownerNodeId ≠ sourceNodeId := howner ▸ haway
    simp [hof, contributionOf, hnone, howner']
  have hrest : ∀ ms : List ColocationMember, (∀ m ∈ ms, of m = .member m) →
      membersOf (ms.map of) = ms := by
    intro ms hms
    induction ms with
    | nil => rfl
    | cons m ms ih =>
      have hm := hms m List.mem_cons_self
      have htail := ih fun x hx => hms x (List.mem_cons_of_mem _ hx)
      simp only [membersOf, List.map_cons, hm, List.filterMap_cons] at htail ⊢
      rw [htail]
  have hwaiting : ∀ m ∈ f :: rest, of m = .member m := by
    intro m hm
    rcases List.mem_cons.mp hm with rfl | hm
    · exact h.self
    · obtain ⟨info, sibling, hof, howner, hcap, hopen⟩ := h.waiting m hm
      rw [hof, contributionOf]
      cases hs : sibling.filter activeSibling with
      | none => simp [howner, hcap]
      | some e =>
        have he : sibling = some e := by
          cases hsib : sibling with
          | none => simp [hsib] at hs
          | some e' =>
            rw [hsib, Option.filter_some] at hs
            split_ifs at hs
            exact hs
        obtain ⟨htarget, hstatus⟩ := hopen e he
        simp [htarget, hstatus, howner, hcap]
  have hsplit : membersOf ((moved ++ f :: rest).map of) =
      membersOf (moved.map of) ++ membersOf ((f :: rest).map of) := by
    simp [membersOf]
  rw [hsplit, hmoved, hrest (f :: rest) hwaiting, List.nil_append]

/-- One member's turn to choose: the members before it are completed on the node, the
members after it wait, and the free bytes have shrunk by what has moved. Other evacuations
hold `held` bytes there. -/
structure Turn (cfg : Config) (headroom : Option Nat) (moved : List ColocationMember)
    (f : ColocationMember) (rest : List ColocationMember) (free held : Nat) where
  spec : ZFSEvacuationSpec
  source : SourceInfo
  pv : Obj .pv
  group : Group
  view : SelectionView
  zn : Obj .zfsNode
  pool : ZfsPool
  landed : List (Obj .evacuation)
  others : List (Obj .evacuation)
  claims : List ColocationMember
  of : ColocationMember → Contribution
  names : ((moved ++ f :: rest).map (·.pvName)).Nodup
  percent : spec.headroomPercent = headroom
  capacity : source.capacityBytes = f.capacityBytes
  consumer : claims.Perm (moved ++ f :: rest)
  contributes : Contributes source.nodeId zn.name moved f rest of
  members : group.members = membersOf (claims.map of)
  listing : view.evacs.Perm (landed ++ others)
  landings : Landings zn.name view.component (f :: rest) moved landed
  waiting : ∀ m ∈ f :: rest, m.pvName ∉ placedEvacs others
  holding : reservedIn f.pvName (placedEvacs view.evacs) others zn.name view.component = held
  need : view.need = needBytes (selectionInput f.pvName spec source pv (some group))
  eligible : Eligible cfg (selectionInput f.pvName spec source pv (some group)) view zn
  one : poolsOf zn view.component = [pool]
  shrunk : freeBytes pool + bytesOf moved = free

namespace Turn
variable {cfg : Config} {headroom : Option Nat} {moved rest : List ColocationMember}
  {f : ColocationMember} {free held : Nat}

def input (t : Turn cfg headroom moved f rest free held) : SelectionInput :=
  selectionInput f.pvName t.spec t.source t.pv (some t.group)

theorem members_perm (t : Turn cfg headroom moved f rest free held) :
    t.group.members.Perm (f :: rest) := by
  have hperm : (membersOf (t.claims.map t.of)).Perm (membersOf ((moved ++ f :: rest).map t.of)) :=
    (t.consumer.map t.of).filterMap _
  rw [t.members]
  rwa [membersOf_contributions t.eligible.away t.contributes] at hperm

/-- The need of the member that chooses is that of all members still to be placed. -/
theorem need_eq (t : Turn cfg headroom moved f rest free held) :
    t.view.need = needOf headroom (bytesOf (f :: rest)) := by
  have hnames : f.pvName ∉ rest.map (·.pvName) := by
    have hnodup := t.names
    rw [List.map_append, List.nodup_append, List.map_cons, List.nodup_cons] at hnodup
    exact hnodup.2.1.1
  have hrest : (f :: rest).filter (fun m => m.pvName ≠ f.pvName) = rest := by
    rw [List.filter_cons_of_neg (by simp)]
    refine List.filter_eq_self.mpr fun m hm => ?_
    have hne : m.pvName ≠ f.pvName := fun heq => hnames (heq ▸ List.mem_map_of_mem hm)
    simpa using hne
  have hextra : groupExtraBytes f.pvName (some t.group) = bytesOf rest := by
    have hperm := t.members_perm.filter fun m => m.pvName ≠ f.pvName
    rw [hrest] at hperm
    exact bytesOf_perm hperm
  rw [t.need, bytesOf_cons]
  simp only [needBytes, selectionInput, hextra, t.capacity, t.percent, needOf]

/-- Every moved member reserves the members after the one that chooses once more. -/
theorem reserved_eq (t : Turn cfg headroom moved f rest free held) :
    reservedBytes f.pvName t.view.evacs t.zn.name t.view.component =
      moved.length * bytesOf rest + held := by
  have hplaced : ∀ x, x ∈ placedEvacs t.view.evacs ↔
      x ∈ moved.map (·.pvName) ∨ x ∈ placedEvacs t.others := by
    intro x
    have hperm : (placedEvacs t.view.evacs).Perm (placedEvacs (t.landed ++ t.others)) :=
      (t.listing.filter _).map _
    rw [hperm.mem_iff, placedEvacs, List.filter_append, List.map_append, List.mem_append]
    exact or_congr (t.landings.placedEvacs_eq ▸ Iff.rfl) Iff.rfl
  have hmoved : ∀ x ∈ moved, x.pvName ∈ placedEvacs t.view.evacs := fun x hx =>
    (hplaced _).mpr (.inl (List.mem_map_of_mem hx))
  have hrest : ∀ x ∈ rest, x.pvName ∉ placedEvacs t.view.evacs := by
    intro x hx hmem
    rcases (hplaced _).mp hmem with hin | hin
    · have hdisjoint := t.names
      rw [List.map_append, List.nodup_append] at hdisjoint
      exact hdisjoint.2.2 _ hin _ (List.mem_map_of_mem (List.mem_cons_of_mem _ hx)) rfl
    · exact t.waiting x (List.mem_cons_of_mem _ hx) hin
  have hsum : reservedBytes f.pvName t.view.evacs t.zn.name t.view.component =
      reservedIn f.pvName (placedEvacs t.view.evacs) (t.landed ++ t.others) t.zn.name
        t.view.component := reservedIn_perm t.listing
  rw [hsum, reservedIn_append, reservedIn_landings t.landings t.names hmoved hrest, t.holding]

end Turn

/-- After a leader was admitted with its whole group, the node takes the next member exactly
when that member is the last one or the node also has room for the members after it once
for each member that has moved. -/
theorem admits_follower_iff {cfg : Config} {headroom : Option Nat}
    {moved rest : List ColocationMember} {f : ColocationMember} {free held : Nat}
    (t : Turn cfg headroom moved f rest free held)
    (hleader : needOf headroom (bytesOf (moved ++ f :: rest)) + held ≤ free) :
    Admits cfg t.input t.view t.zn ↔
      rest = [] ∨ bytesOf moved + needOf headroom (bytesOf (f :: rest)) +
        moved.length * bytesOf rest + held ≤ free := by
  have hfree := t.shrunk
  have htotal := needOf_add headroom (bytesOf moved) (bytesOf (f :: rest))
  have hmoved := le_needOf headroom (bytesOf moved)
  have hneed := le_needOf headroom (bytesOf (f :: rest))
  rw [bytesOf_append] at hleader
  have hadmits : Admits cfg t.input t.view t.zn ↔ t.view.need ≤ freeBytes t.pool -
      reservedBytes f.pvName t.view.evacs t.zn.name t.view.component := poolAdmits_iff t.eligible t.one
  rw [hadmits, t.need_eq, t.reserved_eq]
  by_cases hrest : rest = []
  · have hzero : moved.length * bytesOf rest = 0 := by simp [hrest, bytesOf]
    have hfits : needOf headroom (bytesOf (f :: rest)) ≤
        freeBytes t.pool - (moved.length * bytesOf rest + held) := by omega
    exact iff_of_true hfits (.inl hrest)
  · by_cases hnone : needOf headroom (bytesOf (f :: rest)) = 0
    · have hempty : bytesOf rest = 0 := by
        rw [bytesOf_cons] at hneed hnone
        omega
      rw [hempty, hnone]
      exact iff_of_true (Nat.zero_le _) (.inr (by omega))
    · constructor
      · intro hfits
        exact .inr (by omega)
      · rintro (hlast | hfits)
        · exact absurd hlast hrest
        · omega

/-! ## Groups of equal volumes -/

/-- A completed move to n2 by a member that had `left` still to place. -/
def completedMove (m : ColocationMember) (left : List ColocationMember) : Obj .evacuation :=
  ⟨{ name := m.pvName }, ({ spec := { pvName := m.pvName }
                            status := some
                              { phase := .completed
                                target := some ⟨"n2", "n2", "tank", "zevac-1"⟩
                                colocation := some { pod := "d/p", members := left } } } :
    ZFSEvacuation)⟩

theorem tank_component : poolComponent "tank" = "tank" := by decide +kernel

def vol (name : String) : ColocationMember := ⟨name, 100⟩

/-- The first volume is on n2 already. -/
def secondContribution (m : ColocationMember) : Contribution :=
  if m = vol "pv1" then .anchor ⟨"n2", m.pvName, "ZFSVolume owner"⟩ else .member m

theorem second_contributes {rest : List ColocationMember}
    (hnames : ((vol "pv1" :: vol "pv2" :: rest).map (·.pvName)).Nodup)
    (hcap : ∀ m ∈ rest, m.capacityBytes = 100) :
    Contributes "n1" "n2" [vol "pv1"] (vol "pv2") rest secondContribution := by
  refine ⟨by simp [secondContribution, vol], fun m hm => ?_, fun m hm => ?_⟩
  · obtain rfl := List.mem_singleton.mp hm
    refine ⟨{ ownerNodeId := "n2", poolName := "tank" }, none, ?_, rfl, fun e he => absurd he (by simp)⟩
    simp [secondContribution, contributionOf]
  · have hne : m ≠ vol "pv1" := by
      rintro rfl
      exact (List.nodup_cons.mp hnames).1 (List.mem_map_of_mem (List.mem_cons_of_mem _ hm))
    have hcapacity : volumeCapacity { ownerNodeId := "n1", poolName := "tank", capacity := some "100" } =
        m.capacityBytes := by
      rw [hcap m hm]
      decide +kernel
    refine ⟨_, none, ?_, rfl, hcapacity, fun e he => absurd he (by simp)⟩
    simp [secondContribution, hne, contributionOf, hcapacity]

/-- The turn of the second member, with `free` bytes left on n2 by the first one. -/
def secondTurn (rest : List ColocationMember) (free : Nat) (text : String)
    (hnames : ((vol "pv1" :: vol "pv2" :: rest).map (·.pvName)).Nodup)
    (hcap : ∀ m ∈ rest, m.capacityBytes = 100) (hfree : parseQuantityOrBytes text = some free) :
    Turn {} none [vol "pv1"] (vol "pv2") rest (free + 100) 0 :=
  let group : Group :=
    { pod := "d/p", placement := ⟨[], [], []⟩, members := vol "pv2" :: rest
      anchor := some ⟨"n2", "pv1", "ZFSVolume owner"⟩ }
  let source : SourceInfo := ⟨"n1", "n1", "tank", "vol2", 0, 100⟩
  let pv : Obj .pv := ⟨{ name := "pv2" }, ({} : PersistentVolume)⟩
  let spec : ZFSEvacuationSpec := { pvName := "pv2" }
  { spec, source, pv, group
    view :=
      { nodes := [Sample.node "n2" "10.0.0.2"]
        evacs := [completedMove (vol "pv1") (vol "pv1" :: vol "pv2" :: rest)]
        allowedIds := none, component := "tank"
        need := needBytes (selectionInput "pv2" spec source pv (some group)) }
    zn := ⟨{ name := "n2" }, ({ pools := [{ name := "tank", free := some text }] } : ZFSNode)⟩
    pool := { name := "tank", free := some text }
    landed := [completedMove (vol "pv1") (vol "pv1" :: vol "pv2" :: rest)]
    others := []
    claims := vol "pv1" :: vol "pv2" :: rest
    of := secondContribution
    names := hnames
    percent := rfl
    capacity := rfl
    consumer := List.Perm.refl _
    contributes := second_contributes hnames hcap
    members := (membersOf_contributions (by decide) (second_contributes hnames hcap)).symm
    listing := List.Perm.refl _
    landings := .cons _ _ _ _ ⟨rfl, _, _, _, rfl, rfl, rfl, rfl, tank_component, rfl,
      List.Perm.refl _⟩ .nil
    waiting := fun _ _ h => by cases h
    holding := rfl
    need := rfl
    eligible := ⟨by simp [selectionInput, Obj.name, source], rfl, rfl, ⟨_, rfl, rfl, rfl, rfl⟩, rfl⟩
    one := rfl
    shrunk := by simp [freeBytes, hfree, bytesOf, vol] }

/-- A group of two, whose second member is the last one. -/
def lastTurn : Turn {} none [vol "pv1"] (vol "pv2") [] 220 0 :=
  secondTurn [] 120 "120" (by decide) (by simp) (by decide +kernel)

/-- A group of three with so much room that its second member gets past both reservations of
the third one. -/
def roomyTurn : Turn {} none [vol "pv1"] (vol "pv2") [vol "pv3"] 420 0 :=
  secondTurn [vol "pv3"] 320 "320" (by decide) (by simp [vol]) (by decide +kernel)

theorem admits_second : Admits {} lastTurn.input lastTurn.view lastTurn.zn ∧
    Admits {} roomyTurn.input roomyTurn.view roomyTurn.zn :=
  ⟨(admits_follower_iff lastTurn (by decide)).mpr (.inl rfl),
    (admits_follower_iff roomyTurn (by decide)).mpr (.inr (by decide))⟩

/-- A group of three that just fits: 330 bytes were free when its leader was admitted. -/
def tightTurn : Turn {} none [vol "pv1"] (vol "pv2") [vol "pv3"] 330 0 :=
  secondTurn [vol "pv3"] 230 "230" (by decide) (by simp [vol]) (by decide +kernel)

theorem not_admits_follower : ¬ ∀ (cfg : Config) (headroom : Option Nat)
    (moved rest : List ColocationMember) (f : ColocationMember) (free held : Nat)
    (t : Turn cfg headroom moved f rest free held), moved ≠ [] →
    needOf headroom (bytesOf (moved ++ f :: rest)) + held ≤ free →
    Admits cfg t.input t.view t.zn := by
  intro h
  have hadmits := h {} none [vol "pv1"] [vol "pv3"] (vol "pv2") 330 0 tightTurn (by simp) (by decide)
  have hrefused : (nodeCandidates {} tightTurn.input tightTurn.view tightTurn.zn).all
      (fun c => c.isRight) = true := by decide +kernel
  obtain ⟨c, hc⟩ := hadmits
  cases List.all_eq_true.mp hrefused _ hc

end ZfsEvacuation.Reservation
