import ZfsEvacuation.AllowedTopologies
import Mathlib.Algebra.Order.BigOperators.Group.List

/-!
# A follower's place on its leader's node

A completed leader keeps its follower's bytes reserved, without the follower's headroom. An
outsider that is admitted beside this reservation may leave too little for the follower.
-/
namespace ZfsEvacuation.Reservation
open ClientProgram Program

/-! ## Shares of the ledger -/

/-- What one evacuation keeps reserved on one zpool of one node. -/
def share (evacName : String) (placed : List String) (nodeId pool : String) (e : Obj .evacuation) :
    Nat := reservedIn evacName placed [e] nodeId pool

section Shares
variable {evacName nodeId pool : String} {placed : List String} {e : Obj .evacuation}
  {st : ZFSEvacuationStatus} {t : TargetInfo}

theorem reservedIn_eq_sum (evacs : List (Obj .evacuation)) :
    reservedIn evacName placed evacs nodeId pool =
      (evacs.map (share evacName placed nodeId pool)).sum := by
  induction evacs with
  | nil => rfl
  | cons e evacs ih =>
    rw [← List.singleton_append, reservedIn_append, ih]
    simp [share]

/-- The members of a group that are still to be placed, without the one that chooses. -/
def groupLeft (evacName self : String) (placed : List String) (st : ZFSEvacuationStatus) : Nat :=
  match st.colocation with
  | none => 0
  | some c => bytesOf ((c.members.filter fun m => m.pvName ≠ self).filter fun m =>
      m.pvName ≠ evacName ∧ ¬ placed.contains m.pvName)

theorem share_self (h : e.name = evacName) : share evacName placed nodeId pool e = 0 := by
  have hnone : reservation evacName placed e = none := by
    unfold reservation
    cases statusOf e <;> simp [h]
  simp [share, reservedIn, hnone]

theorem share_untargeted (h : (statusOf e).bind (·.target) = none) :
    share evacName placed nodeId pool e = 0 := by
  have hnone : reservation evacName placed e = none := by
    unfold reservation
    cases hst : statusOf e with
    | none => rfl
    | some st =>
      rw [hst] at h
      have ht : st.target = none := h
      simp [ht]
  simp [share, reservedIn, hnone]

theorem share_failed (hst : statusOf e = some st) (h : st.phase = .failed) :
    share evacName placed nodeId pool e = 0 := by
  have hnone : reservation evacName placed e = none := by
    unfold reservation
    simp [hst, h]
  simp [share, reservedIn, hnone]

theorem share_elsewhere (hst : statusOf e = some st) (ht : st.target = some t)
    (h : ¬ (t.nodeId = nodeId ∧ poolComponent t.pool = pool)) :
    share evacName placed nodeId pool e = 0 := by
  by_cases hskip : e.name = evacName ∨ st.phase = .failed
  · rcases hskip with hname | hfailed
    · exact share_self hname
    · exact share_failed hst hfailed
  · have hsome : reservation evacName placed e = some ((t.nodeId, poolComponent t.pool),
        (if st.phase = .completed then 0 else capacityOfEvac st) +
          groupLeft evacName e.name placed st) := by
      unfold reservation groupLeft
      simp only [hst, hskip, if_false, ht, Option.map_some]
      rfl
    simp [share, reservedIn, hsome, h]

/-- The share of an evacuation that has this zpool as its target. -/
theorem share_here (hst : statusOf e = some st) (ht : st.target = some t) (hnode : t.nodeId = nodeId)
    (hpool : poolComponent t.pool = pool) (hname : e.name ≠ evacName) (hphase : st.phase ≠ .failed) :
    share evacName placed nodeId pool e =
      (if st.phase = .completed then 0 else capacityOfEvac st) +
        groupLeft evacName e.name placed st := by
  have hskip : ¬ (e.name = evacName ∨ st.phase = .failed) := by simp [hname, hphase]
  have hsome : reservation evacName placed e = some ((nodeId, pool),
      (if st.phase = .completed then 0 else capacityOfEvac st) +
        groupLeft evacName e.name placed st) := by
    unfold reservation groupLeft
    simp only [hst, hskip, if_false, ht, Option.map_some, hnode, hpool]
    rfl
  simp [share, reservedIn, hsome]

/-- The ways an evacuation can stand to a zpool. -/
theorem share_cases (nodeId pool : String) (e : Obj .evacuation) :
    (∀ evacName placed, share evacName placed nodeId pool e = 0) ∨
      ∃ st t, statusOf e = some st ∧ st.target = some t ∧ t.nodeId = nodeId ∧
        poolComponent t.pool = pool ∧ st.phase ≠ .failed := by
  cases hst : statusOf e with
  | none => exact .inl fun _ _ => share_untargeted (by simp [hst])
  | some st =>
    cases ht : st.target with
    | none => exact .inl fun _ _ => share_untargeted (by simp [hst, ht])
    | some t =>
      by_cases hhere : t.nodeId = nodeId ∧ poolComponent t.pool = pool
      · by_cases hfailed : st.phase = .failed
        · exact .inl fun _ _ => share_failed hst hfailed
        · exact .inr ⟨st, t, rfl, ht, hhere.1, hhere.2, hfailed⟩
      · exact .inl fun _ _ => share_elsewhere hst ht hhere

theorem bytesOf_filter_le {ms : List ColocationMember} {p q : ColocationMember → Bool}
    (h : ∀ m ∈ ms, p m = true → q m = true) : bytesOf (ms.filter p) ≤ bytesOf (ms.filter q) := by
  induction ms with
  | nil => exact Nat.le_refl _
  | cons m ms ih =>
    have htail := ih fun x hx => h x (List.mem_cons_of_mem _ hx)
    have hhead := h m List.mem_cons_self
    simp only [List.filter_cons]
    split_ifs with hp hq hq
    · rw [bytesOf_cons, bytesOf_cons]
      omega
    · exact absurd (hhead hp) hq
    · rw [bytesOf_cons]
      omega
    · exact htail

/-- A member that only the second condition keeps makes the difference. -/
theorem bytesOf_filter_add_le {ms : List ColocationMember} {p q : ColocationMember → Bool}
    (h : ∀ m ∈ ms, p m = true → q m = true) {x : ColocationMember} (hx : x ∈ ms)
    (hp : p x = false) (hq : q x = true) :
    bytesOf (ms.filter p) + x.capacityBytes ≤ bytesOf (ms.filter q) := by
  induction ms with
  | nil => cases hx
  | cons m ms ih =>
    have htail : ∀ y ∈ ms, p y = true → q y = true := fun y hy => h y (List.mem_cons_of_mem _ hy)
    have hhead := h m List.mem_cons_self
    rcases List.mem_cons.mp hx with rfl | hin
    · have hle := bytesOf_filter_le htail
      simp only [List.filter_cons, hp, hq, Bool.false_eq_true, if_false, if_true]
      rw [bytesOf_cons]
      omega
    · have hle := ih htail hin
      simp only [List.filter_cons]
      split_ifs with hp' hq' hq'
      · rw [bytesOf_cons, bytesOf_cons]
        omega
      · exact absurd (hhead hp') hq'
      · rw [bytesOf_cons]
        omega
      · exact hle

/-- A sum of shares that are nowhere smaller, and at one place larger by `d`. -/
theorem sum_add_le {α : Type} {l : List α} {p q : α → Nat} {d : Nat} {x : α}
    (h : ∀ y ∈ l, p y ≤ q y) (hx : x ∈ l) (hd : p x + d ≤ q x) :
    (l.map p).sum + d ≤ (l.map q).sum := by
  induction l with
  | nil => cases hx
  | cons y l ih =>
    have htail : ∀ z ∈ l, p z ≤ q z := fun z hz => h z (List.mem_cons_of_mem _ hz)
    have hhead := h y List.mem_cons_self
    simp only [List.map_cons, List.sum_cons]
    rcases List.mem_cons.mp hx with rfl | hin
    · have hle := List.sum_le_sum htail
      omega
    · have hle := ih htail hin
      omega

end Shares

/-! ## A waiting follower and an outsider -/

/-- A volume that is to be moved, with sizes in the integers of the source. -/
structure Claimant where
  capacity : Nat
  headroom : Option Nat
  capacity_lt : capacity < 2 ^ 64
  headroom_lt : headroom.getD defaultHeadroomPercent < 2 ^ 32

/-- What the volume asks for beyond its own bytes. -/
def Claimant.extra (c : Claimant) : Nat :=
  c.capacity * c.headroom.getD defaultHeadroomPercent / 100

theorem Claimant.extra_lt (c : Claimant) : c.extra < 2 ^ 96 := by
  have hproduct := Nat.mul_lt_mul'' c.capacity_lt c.headroom_lt
  have hdiv := Nat.div_le_self (c.capacity * c.headroom.getD defaultHeadroomPercent) 100
  unfold extra
  omega

/-- The selection is this volume's, and it takes no group along. -/
structure ChoosesFor (c : Claimant) (input : SelectionInput) : Prop where
  capacity : input.capacityBytes = c.capacity
  headroom : input.spec.headroomPercent = c.headroom
  alone : input.groupExtraBytes = 0

theorem ChoosesFor.need {c : Claimant} {input : SelectionInput} (h : ChoosesFor c input) :
    needBytes input = c.capacity + c.extra := by
  simp [needBytes, h.capacity, h.headroom, h.alone, Claimant.extra]

/-- A completed leader on a node lists the follower `f`, which has no target yet, with its
bytes; `u` belongs to no group. `evac` and `moved` are the outsider's evacuation before its
selection and after its end, `rest` the zpool after that. -/
structure Waiting (f u : Claimant) where
  cfg : Config
  before : Listing
  fInput : SelectionInput
  uInput : SelectionInput
  zn : Obj .zfsNode
  pool : ZfsPool
  rest : ZfsPool
  leader : Obj .evacuation
  evac : Obj .evacuation
  moved : Obj .evacuation
  follower : ChoosesFor f fInput
  outsider : ChoosesFor u uInput
  zpool : poolComponent (before.destPool fInput) = poolComponent (before.destPool uInput)
  zn_mem : zn ∈ before.zfsNodes
  zfsNames : (before.zfsNodes.map Obj.name).Nodup
  one : poolsOf zn (poolComponent (before.destPool uInput)) = [pool]
  names : (before.evacs.map Obj.name).Nodup
  leader_mem : leader ∈ before.evacs
  lists : ∃ st t c, statusOf leader = some st ∧ st.phase = .completed ∧ st.target = some t ∧
    t.nodeId = zn.name ∧ poolComponent t.pool = poolComponent (before.destPool uInput) ∧
    st.colocation = some c ∧ ⟨fInput.evacName, f.capacity⟩ ∈ c.members
  unplaced : fInput.evacName ∉ placedEvacs before.evacs
  evac_mem : evac ∈ before.evacs
  evac_name : evac.name = uInput.evacName
  choosing : (statusOf evac).bind (·.target) = none
  apart : uInput.evacName ≠ fInput.evacName
  unrelated : ∀ e ∈ before.evacs, ∀ st c, statusOf e = some st → st.colocation = some c →
    ∀ m ∈ c.members, m.pvName ≠ uInput.evacName
  moved_name : moved.name = uInput.evacName
  completed : ∃ st t, statusOf moved = some st ∧ st.phase = .completed ∧ st.target = some t ∧
    t.nodeId = zn.name ∧ poolComponent t.pool = poolComponent (before.destPool uInput) ∧
    st.colocation = none
  shrunk : freeBytes rest + u.capacity = freeBytes pool

namespace Waiting
variable {f u : Claimant} (s : Waiting f u)

def component : String := poolComponent (s.before.destPool s.uInput)

/-- The evacuations once the outsider has completed. -/
def later : List (Obj .evacuation) :=
  s.before.evacs.map fun e => if e.name = s.uInput.evacName then s.moved else e

/-- The capacity check of the follower's selection, on a zpool beside some evacuations. -/
def Fits (pool : ZfsPool) (evacs : List (Obj .evacuation)) : Prop :=
  needBytes s.fInput ≤ freeBytes pool -
    reservedBytes s.fInput.evacName evacs s.zn.name s.component

/-- Target selection admits the outsider to the node. -/
def Admitted : Prop := ∃ t, s.before.select s.cfg s.uInput = .ok t ∧ t.nodeId = s.zn.name

theorem placed_later (x : String) (hx : x ≠ s.uInput.evacName) :
    x ∈ placedEvacs s.later ↔ x ∈ placedEvacs s.before.evacs := by
  have hmoved : s.moved.name ≠ x := fun h => hx (h.symm.trans s.moved_name)
  simp only [placedEvacs, later, List.mem_map, List.mem_filter]
  constructor
  · rintro ⟨e, ⟨⟨e', he', rfl⟩, htarget⟩, hname⟩
    split_ifs at htarget hname with hu
    · exact absurd hname hmoved
    · exact ⟨e', ⟨he', htarget⟩, hname⟩
  · rintro ⟨e, ⟨he, htarget⟩, hname⟩
    have hne : e.name ≠ s.uInput.evacName := fun h => hx (hname.symm.trans h)
    refine ⟨e, ⟨⟨e, he, if_neg hne⟩, htarget⟩, hname⟩

/-- The members that a record holds for somebody are the same once the outsider is placed. -/
theorem groupLeft_later {e : Obj .evacuation} (he : e ∈ s.before.evacs) {st : ZFSEvacuationStatus}
    (hst : statusOf e = some st) (evacName : String) :
    groupLeft evacName e.name (placedEvacs s.later) st =
      groupLeft evacName e.name (placedEvacs s.before.evacs) st := by
  unfold groupLeft
  cases hc : st.colocation with
  | none => rfl
  | some c =>
    have hfilter : ((c.members.filter fun m => m.pvName ≠ e.name).filter fun m =>
        m.pvName ≠ evacName ∧ ¬ (placedEvacs s.later).contains m.pvName) =
        (c.members.filter fun m => m.pvName ≠ e.name).filter fun m =>
          m.pvName ≠ evacName ∧ ¬ (placedEvacs s.before.evacs).contains m.pvName := by
      refine List.filter_congr fun m hm => ?_
      have hplaced := s.placed_later m.pvName
        (s.unrelated e he st c hst hc m (List.mem_of_mem_filter hm))
      simp [hplaced]
    simp only [hfilter]

/-- The outsider's end releases nothing and holds nothing. -/
theorem reserved_later : reservedBytes s.fInput.evacName s.later s.zn.name s.component =
    reservedBytes s.fInput.evacName s.before.evacs s.zn.name s.component := by
  have hleft : reservedBytes s.fInput.evacName s.later s.zn.name s.component =
      (s.later.map (share s.fInput.evacName (placedEvacs s.later) s.zn.name s.component)).sum :=
    reservedIn_eq_sum _
  have hright : reservedBytes s.fInput.evacName s.before.evacs s.zn.name s.component =
      (s.before.evacs.map (share s.fInput.evacName (placedEvacs s.before.evacs) s.zn.name
        s.component)).sum := reservedIn_eq_sum _
  rw [hleft, hright]
  unfold later
  rw [List.map_map]
  congr 1
  refine List.map_congr_left fun e he => ?_
  by_cases hu : e.name = s.uInput.evacName
  · have hevac : e = s.evac :=
      List.inj_on_of_nodup_map s.names he s.evac_mem (hu.trans s.evac_name.symm)
    obtain ⟨st, t, hst, hphase, ht, hnode, hpool, hc⟩ := s.completed
    have hname : s.moved.name ≠ s.fInput.evacName := s.moved_name ▸ s.apart
    have hzpool : poolComponent t.pool = s.component := hpool
    rw [Function.comp, if_pos hu, hevac, share_untargeted s.choosing,
      share_here hst ht hnode hzpool hname (by simp [hphase])]
    simp [hphase, groupLeft, hc]
  · rw [Function.comp, if_neg hu]
    rcases share_cases s.zn.name s.component e with
      hzero | ⟨st, t, hst, ht, hnode, hpool, hphase⟩
    · rw [hzero, hzero]
    · by_cases hself : e.name = s.fInput.evacName
      · rw [share_self hself, share_self hself]
      · rw [share_here hst ht hnode hpool hself hphase, share_here hst ht hnode hpool hself hphase]
        have hgroup := s.groupLeft_later he hst s.fInput.evacName
        unfold later at hgroup
        rw [hgroup]

/-- A record holds against the outsider what it holds against the follower. -/
theorem groupLeft_le {e : Obj .evacuation} (he : e ∈ s.before.evacs) {st : ZFSEvacuationStatus}
    (hst : statusOf e = some st) :
    groupLeft s.fInput.evacName e.name (placedEvacs s.before.evacs) st ≤
      groupLeft s.uInput.evacName e.name (placedEvacs s.before.evacs) st := by
  unfold groupLeft
  cases hc : st.colocation with
  | none => exact Nat.le_refl _
  | some c =>
    refine bytesOf_filter_le fun m hm hkept => ?_
    have hne := s.unrelated e he st c hst hc m (List.mem_of_mem_filter hm)
    simp only [decide_eq_true_eq] at hkept ⊢
    exact ⟨hne, hkept.2⟩

theorem share_le {e : Obj .evacuation} (he : e ∈ s.before.evacs) :
    share s.fInput.evacName (placedEvacs s.before.evacs) s.zn.name s.component e ≤
      share s.uInput.evacName (placedEvacs s.before.evacs) s.zn.name s.component e := by
  by_cases hu : e.name = s.uInput.evacName
  · have hevac : e = s.evac :=
      List.inj_on_of_nodup_map s.names he s.evac_mem (hu.trans s.evac_name.symm)
    rw [hevac, share_untargeted s.choosing]
    exact Nat.zero_le _
  · rcases share_cases s.zn.name s.component e with
      hzero | ⟨st, t, hst, ht, hnode, hpool, hphase⟩
    · rw [hzero]
      exact Nat.zero_le _
    · by_cases hself : e.name = s.fInput.evacName
      · rw [share_self hself]
        exact Nat.zero_le _
      · rw [share_here hst ht hnode hpool hself hphase, share_here hst ht hnode hpool hu hphase]
        exact Nat.add_le_add_left (s.groupLeft_le he hst) _

/-- The leader holds the follower's bytes against the outsider. -/
theorem share_leader :
    share s.fInput.evacName (placedEvacs s.before.evacs) s.zn.name s.component s.leader +
      f.capacity ≤
        share s.uInput.evacName (placedEvacs s.before.evacs) s.zn.name s.component s.leader := by
  obtain ⟨st, t, c, hst, hphase, ht, hnode, hpool, hc, hmem⟩ := s.lists
  have hplaced : s.leader.name ∈ placedEvacs s.before.evacs := by
    refine List.mem_map_of_mem (List.mem_filter.mpr ⟨s.leader_mem, ?_⟩)
    simp [hst, ht]
  have hf : s.leader.name ≠ s.fInput.evacName := fun h => s.unplaced (h ▸ hplaced)
  have hu : s.leader.name ≠ s.uInput.evacName := by
    intro h
    have hevac : s.leader = s.evac :=
      List.inj_on_of_nodup_map s.names s.leader_mem s.evac_mem (h.trans s.evac_name.symm)
    have hnone := s.choosing
    rw [← hevac, hst] at hnone
    have hnot : st.target = none := hnone
    rw [ht] at hnot
    cases hnot
  have hzpool : poolComponent t.pool = s.component := hpool
  have hopen : st.phase ≠ .failed := by simp [hphase]
  rw [share_here hst ht hnode hzpool hf hopen, share_here hst ht hnode hzpool hu hopen]
  have hgroup : groupLeft s.fInput.evacName s.leader.name (placedEvacs s.before.evacs) st +
      f.capacity ≤ groupLeft s.uInput.evacName s.leader.name (placedEvacs s.before.evacs) st := by
    simp only [groupLeft, hc]
    refine bytesOf_filter_add_le (x := ⟨s.fInput.evacName, f.capacity⟩) (fun m hm hkept => ?_)
      (List.mem_filter.mpr ⟨hmem, by simpa using hf.symm⟩) (by simp) ?_
    · have hne := s.unrelated s.leader s.leader_mem st c hst hc m (List.mem_of_mem_filter hm)
      simp only [decide_eq_true_eq] at hkept ⊢
      exact ⟨hne, hkept.2⟩
    · simp [s.apart.symm, s.unplaced]
  omega

/-- Beside what is reserved against the follower, the follower's own bytes are reserved
against the outsider. -/
theorem reserved_outsider : reservedBytes s.fInput.evacName s.before.evacs s.zn.name s.component +
    f.capacity ≤ reservedBytes s.uInput.evacName s.before.evacs s.zn.name s.component := by
  have hleft : reservedBytes s.fInput.evacName s.before.evacs s.zn.name s.component =
      (s.before.evacs.map (share s.fInput.evacName (placedEvacs s.before.evacs) s.zn.name
        s.component)).sum := reservedIn_eq_sum _
  have hright : reservedBytes s.uInput.evacName s.before.evacs s.zn.name s.component =
      (s.before.evacs.map (share s.uInput.evacName (placedEvacs s.before.evacs) s.zn.name
        s.component)).sum := reservedIn_eq_sum _
  rw [hleft, hright]
  exact sum_add_le (fun e he => s.share_le he) s.leader_mem s.share_leader

/-- The outsider was admitted to what is free beside the reservations against it. -/
theorem Admitted.room {s : Waiting f u} (h : s.Admitted) :
    u.capacity + u.extra ≤ freeBytes s.pool -
      reservedBytes s.uInput.evacName s.before.evacs s.zn.name s.component := by
  obtain ⟨t, ht, hnode⟩ := h
  obtain ⟨zn, hzn, hname, -, c, hin⟩ := considered_of_select ht
  obtain rfl : zn = s.zn :=
    List.inj_on_of_nodup_map s.zfsNames hzn s.zn_mem (hname.trans hnode)
  obtain ⟨-, node, pool, -, hpool, hroom, -⟩ := inl_mem_nodeCandidates.mp hin
  have hone : poolsOf s.zn (s.before.view s.uInput).component = [s.pool] := s.one
  have hname : pool.name = s.component := by
    simpa [Listing.view, component] using (List.mem_filter.mp hpool).2
  rw [hone] at hpool
  obtain rfl := List.mem_singleton.mp hpool
  rw [hname] at hroom
  rw [← s.outsider.need]
  exact hroom

theorem keeps_place (hextra : u.capacity = 0 ∨ f.extra ≤ u.extra)
    (hfits : s.Fits s.pool s.before.evacs) (hadmitted : s.Admitted) : s.Fits s.rest s.later := by
  have hroom := hadmitted.room
  have hheld := s.reserved_outsider
  have hshrunk := s.shrunk
  unfold Fits at hfits ⊢
  rw [s.reserved_later, s.follower.need]
  rw [s.follower.need] at hfits
  omega

end Waiting

/-! ## A place that is just large enough -/

def tankOf (free : Nat) : ZfsPool := { name := "tank", free := some (toString free) }

theorem freeBytes_tankOf {free : Nat} (h : free < 2 ^ 128) : freeBytes (tankOf free) = free := by
  have hmax : maxU128 = 2 ^ 128 - 1 := rfl
  have hparse : parseQuantityOrBytes (toString free) = some free :=
    parseQuantityOrBytes_toString (by omega)
  show (parseQuantityOrBytes (toString free)).getD 0 = free
  rw [hparse]
  rfl

def choiceOf (name : String) (c : Claimant) : SelectionInput where
  evacName := name
  spec := { pvName := name, headroomPercent := c.headroom }
  sourceNodeId := "n1"
  sourcePool := "tank"
  capacityBytes := c.capacity
  pv := ⟨{ name }, ({} : PersistentVolume)⟩
  groupExtraBytes := 0
  anchor := none
  placement := none

/-- The move of pv1 to n2 is completed, pv2 is to follow, and pv3 is an outsider. -/
def listingOf (f : Claimant) (free : Nat) : Listing where
  nodes := [Sample.node "n2" "10.0.0.2"]
  evacs := [completedMove ⟨"pv1", 100⟩ [⟨"pv1", 100⟩, ⟨"pv2", f.capacity⟩],
    Sample.evacuation "pv3" .whenIdle]
  zfsNodes := [⟨{ name := "n2" }, ({ pools := [tankOf free] } : ZFSNode)⟩]
  storageClass := fun _ => none

def outsiderMoved : Obj .evacuation :=
  ⟨{ name := "pv3" }, ({ spec := { pvName := "pv3" }
                         status := some
                           { phase := .completed
                             target := some ⟨"n2", "n2", "tank", "zevac-3"⟩ } } : ZFSEvacuation)⟩

theorem listingOf_placed (f : Claimant) (free : Nat) :
    placedEvacs (listingOf f free).evacs = ["pv1"] := rfl

theorem freeBytes_shrunk {u : Claimant} {free : Nat} (hfree : free < 2 ^ 128)
    (hu : u.capacity ≤ free) :
    freeBytes (tankOf (free - u.capacity)) + u.capacity = freeBytes (tankOf free) := by
  rw [freeBytes_tankOf hfree, freeBytes_tankOf (by omega)]
  omega

/-- Both volumes go to the zpool tank; the outsider leaves `free - u.capacity`. -/
def waitingOf (f u : Claimant) (free : Nat) (hfree : free < 2 ^ 128) (hu : u.capacity ≤ free) :
    Waiting f u where
  cfg := {}
  before := listingOf f free
  fInput := choiceOf "pv2" f
  uInput := choiceOf "pv3" u
  zn := ⟨{ name := "n2" }, ({ pools := [tankOf free] } : ZFSNode)⟩
  pool := tankOf free
  rest := tankOf (free - u.capacity)
  leader := completedMove ⟨"pv1", 100⟩ [⟨"pv1", 100⟩, ⟨"pv2", f.capacity⟩]
  evac := Sample.evacuation "pv3" .whenIdle
  moved := outsiderMoved
  follower := ⟨rfl, rfl, rfl⟩
  outsider := ⟨rfl, rfl, rfl⟩
  zpool := rfl
  zn_mem := List.mem_singleton_self _
  zfsNames := List.nodup_singleton _
  one := by
    have htank : poolComponent ((listingOf f free).destPool (choiceOf "pv3" u)) = "tank" :=
      tank_component
    rw [htank]
    simp [poolsOf, tankOf]
  names := by
    show ["pv1", "pv3"].Nodup
    decide
  leader_mem := List.mem_cons_self
  lists := ⟨_, _, _, rfl, rfl, rfl, rfl, rfl, rfl, by simp [choiceOf]⟩
  unplaced := by
    rw [listingOf_placed]
    show "pv2" ∉ ["pv1"]
    decide
  evac_mem := List.mem_cons_of_mem _ (List.mem_singleton_self _)
  evac_name := rfl
  choosing := rfl
  apart := by
    show "pv3" ≠ "pv2"
    decide
  unrelated := by
    intro e he st c hst hc m hm
    rcases List.mem_cons.mp he with rfl | he
    · obtain rfl := Option.some.inj hst
      obtain rfl := Option.some.inj hc
      rcases List.mem_cons.mp hm with rfl | hm
      · show "pv1" ≠ "pv3"
        decide
      · obtain rfl := List.mem_singleton.mp hm
        show "pv2" ≠ "pv3"
        decide
    · obtain rfl := List.mem_singleton.mp he
      cases hst
  moved_name := rfl
  completed := ⟨_, _, rfl, rfl, rfl, rfl, rfl, rfl⟩
  shrunk := freeBytes_shrunk hfree hu

section Tight
variable {f u : Claimant} {free : Nat} {hfree : free < 2 ^ 128} {hu : u.capacity ≤ free}

theorem waitingOf_share (evacName : String) (hname : evacName ≠ "pv1") :
    reservedBytes evacName (listingOf f free).evacs "n2" "tank" =
      bytesOf (([⟨"pv1", 100⟩, ⟨"pv2", f.capacity⟩].filter fun m => m.pvName ≠ "pv1").filter
        fun m => m.pvName ≠ evacName ∧ ¬ ["pv1"].contains m.pvName) := by
  have hsum : reservedBytes evacName (listingOf f free).evacs "n2" "tank" =
      ((listingOf f free).evacs.map (share evacName (placedEvacs (listingOf f free).evacs) "n2"
        "tank")).sum := reservedIn_eq_sum _
  have hleader : share evacName ["pv1"] "n2" "tank"
      (completedMove ⟨"pv1", 100⟩ [⟨"pv1", 100⟩, ⟨"pv2", f.capacity⟩]) = 0 +
        bytesOf (([⟨"pv1", 100⟩, ⟨"pv2", f.capacity⟩].filter fun m => m.pvName ≠ "pv1").filter
          fun m => m.pvName ≠ evacName ∧ ¬ ["pv1"].contains m.pvName) :=
    share_here (e := completedMove ⟨"pv1", 100⟩ [⟨"pv1", 100⟩, ⟨"pv2", f.capacity⟩])
      (t := ⟨"n2", "n2", "tank", "zevac-1"⟩) rfl rfl rfl tank_component hname.symm
      (fun h => Phase.noConfusion h)
  have hevac : share evacName ["pv1"] "n2" "tank" (Sample.evacuation "pv3" .whenIdle) = 0 :=
    share_untargeted rfl
  rw [hsum, listingOf_placed]
  simp only [listingOf, List.map_cons, List.map_nil, List.sum_cons, List.sum_nil, hleader, hevac]
  omega

theorem waitingOf_fits_before (h : f.capacity + f.extra ≤ free) :
    (waitingOf f u free hfree hu).Fits (tankOf free) (listingOf f free).evacs := by
  have hheld : reservedBytes "pv2" (listingOf f free).evacs "n2" "tank" = 0 := by
    rw [waitingOf_share "pv2" (by decide)]
    simp [bytesOf]
  have hcomponent : (waitingOf f u free hfree hu).component = "tank" := tank_component
  unfold Waiting.Fits
  rw [(waitingOf f u free hfree hu).follower.need, freeBytes_tankOf hfree, hcomponent]
  show _ ≤ free - reservedBytes "pv2" (listingOf f free).evacs "n2" "tank"
  omega

theorem waitingOf_admitted (h : u.capacity + u.extra + f.capacity ≤ free) :
    (waitingOf f u free hfree hu).Admitted := by
  have hheld : reservedBytes "pv3" (listingOf f free).evacs "n2" "tank" = f.capacity := by
    rw [waitingOf_share "pv3" (by decide)]
    simp [bytesOf]
  have hneed : needBytes (choiceOf "pv3" u) = u.capacity + u.extra :=
    (waitingOf f u free hfree hu).outsider.need
  have hroom : needBytes (choiceOf "pv3" u) ≤ freeBytes (tankOf free) -
      reservedBytes "pv3" (listingOf f free).evacs "n2" "tank" := by
    rw [hheld, freeBytes_tankOf hfree, hneed]
    omega
  have hfound : ((listingOf f free).nodes.find? fun n => nodeIdOf n == "n2") =
      some (Sample.node "n2" "10.0.0.2") := rfl
  have hconsidered : Considered {} (listingOf f free) (choiceOf "pv3" u)
      (waitingOf f u free hfree hu).zn := by
    refine ⟨by rintro ⟨⟩, _, inl_mem_nodeCandidates.mpr ⟨⟨?_, rfl, rfl, ⟨_, hfound, rfl, rfl, rfl⟩,
      rfl⟩, _, tankOf free, hfound, ?_, hroom, rfl⟩⟩
    · show "n2" ≠ "n1"
      decide
    · have hone : poolsOf (waitingOf f u free hfree hu).zn
          ((listingOf f free).view (choiceOf "pv3" u)).component = [tankOf free] :=
        (waitingOf f u free hfree hu).one
      rw [hone]
      exact List.mem_singleton_self _
  obtain ⟨t, ht⟩ := select_of_considered (waitingOf f u free hfree hu).zn_mem hconsidered
  obtain ⟨zn, hzn, hname, -⟩ := considered_of_select ht
  obtain rfl := List.mem_singleton.mp hzn
  exact ⟨t, ht, hname.symm⟩

theorem waitingOf_fits_after_iff : (waitingOf f u free hfree hu).Fits (tankOf (free - u.capacity))
    (waitingOf f u free hfree hu).later ↔ f.capacity + f.extra ≤ free - u.capacity := by
  have hheld : reservedBytes "pv2" (listingOf f free).evacs "n2" "tank" = 0 := by
    rw [waitingOf_share "pv2" (by decide)]
    simp [bytesOf]
  have hlater := (waitingOf f u free hfree hu).reserved_later
  have hcomponent : (waitingOf f u free hfree hu).component = "tank" := tank_component
  rw [hcomponent] at hlater
  have hzero : reservedBytes (waitingOf f u free hfree hu).fInput.evacName
      (waitingOf f u free hfree hu).later (waitingOf f u free hfree hu).zn.name "tank" = 0 :=
    hlater.trans hheld
  unfold Waiting.Fits
  rw [(waitingOf f u free hfree hu).follower.need, freeBytes_tankOf (by omega), hcomponent, hzero]
  rfl

end Tight

/-- However much is free, the follower keeps its place beside an outsider exactly if the
outsider had to show at least as many bytes of headroom as the follower has to. -/
theorem keeps_place_iff (f u : Claimant) :
    (∀ s : Waiting f u, s.Fits s.pool s.before.evacs → s.Admitted → s.Fits s.rest s.later) ↔
      u.capacity = 0 ∨ f.extra ≤ u.extra := by
  constructor
  · intro h
    by_contra hgap
    obtain ⟨hsome, hless⟩ := not_or.mp hgap
    have hf := f.capacity_lt
    have hu := u.capacity_lt
    have hfextra := f.extra_lt
    have huextra := u.extra_lt
    -- As little as both checks before the move ask for.
    obtain ⟨free, hfollower, houtsider, hleast⟩ : ∃ free, f.capacity + f.extra ≤ free ∧
        u.capacity + u.extra + f.capacity ≤ free ∧
        (free = f.capacity + f.extra ∨ free = u.capacity + u.extra + f.capacity) := by
      rcases Nat.le_total (f.capacity + f.extra) (u.capacity + u.extra + f.capacity) with hle | hle
      · exact ⟨_, hle, Nat.le_refl _, .inr rfl⟩
      · exact ⟨_, Nat.le_refl _, hle, .inl rfl⟩
    have hafter := h (waitingOf f u free (by omega) (by omega)) (waitingOf_fits_before hfollower)
      (waitingOf_admitted houtsider)
    have hfits := waitingOf_fits_after_iff.mp hafter
    omega
  · intro hextra s hfits hadmitted
    exact s.keeps_place hextra hfits hadmitted

/-- A follower with the default headroom and an outsider without any, of 1000 bytes each. -/
def cautious : Claimant := ⟨1000, none, by decide, by decide⟩

def bold : Claimant := ⟨1000, some 0, by decide, by decide⟩

theorem not_keeps_place : ∃ s : Waiting cautious bold,
    s.Fits s.pool s.before.evacs ∧ s.Admitted ∧ ¬ s.Fits s.rest s.later := by
  refine ⟨waitingOf cautious bold 2000 (by decide) (by decide), ?_, ?_, ?_⟩
  · exact waitingOf_fits_before (by decide)
  · exact waitingOf_admitted (by decide)
  · intro hfits
    have hle := waitingOf_fits_after_iff.mp hfits
    revert hle
    decide

end ZfsEvacuation.Reservation
