import ZfsEvacuation.FollowerPlace
import ZfsEvacuation.SourceLast
import ZfsEvacuation.StatusShape

/-!
# The ledger and the volumes it counts

Every byte that the ledger reserves is held for one volume, by the volume's own evacuation or
by a record that lists it as a member still to be placed. Where no two records list the same
volume, no volume is counted twice.
-/
namespace ZfsEvacuation
open ClientProgram Program GuardedRun

/-! ## Entries of the ledger -/

/-- Bytes that are held for one volume on a zpool. -/
structure Hold where
  volume : String
  nodeId : String
  pool : String
  bytes : Nat

def groupMembers (st : ZFSEvacuationStatus) : List ColocationMember :=
  (st.colocation.map (·.members)).getD []

/-- The evacuation holds something on its target. -/
def Holder (e : Obj .evacuation) : Prop :=
  (viewStatus e).target.isSome = true ∧ (viewStatus e).phase ≠ .failed

instance (e : Obj .evacuation) : Decidable (Holder e) := inferInstanceAs (Decidable (_ ∧ _))

/-- Members of the group that a record still counts while `evacName` chooses. -/
def membersLeft (evacName : String) (placed : List String) (e : Obj .evacuation) :
    List ColocationMember :=
  ((groupMembers (viewStatus e)).filter fun m => m.pvName ≠ e.name).filter fun m =>
    m.pvName ≠ evacName ∧ ¬ placed.contains m.pvName

def ownHold (e : Obj .evacuation) (t : TargetInfo) : List Hold :=
  if (viewStatus e).phase = .completed then []
  else [⟨e.name, t.nodeId, poolComponent t.pool, capacityOfEvac (viewStatus e)⟩]

/-- What one evacuation holds while `evacName` chooses. -/
def holdsOf (evacName : String) (placed : List String) (e : Obj .evacuation) : List Hold :=
  match (viewStatus e).target with
  | none => []
  | some t =>
    if e.name = evacName ∨ (viewStatus e).phase = .failed then []
    else ownHold e t ++ (membersLeft evacName placed e).map fun m =>
      ⟨m.pvName, t.nodeId, poolComponent t.pool, m.capacityBytes⟩

def holds (evacName : String) (evacs : List (Obj .evacuation)) : List Hold :=
  evacs.flatMap (holdsOf evacName (placedEvacs evacs))

/-- The bytes held on one zpool of one node. -/
def heldIn (hs : List Hold) (nodeId pool : String) : Nat :=
  ((hs.filter fun h => h.nodeId = nodeId ∧ h.pool = pool).map (·.bytes)).sum

section Ledger
variable {evacName nodeId pool : String} {placed : List String} {e : Obj .evacuation}

theorem heldIn_append (hs hs' : List Hold) :
    heldIn (hs ++ hs') nodeId pool = heldIn hs nodeId pool + heldIn hs' nodeId pool := by
  simp [heldIn]

theorem heldIn_members (t : TargetInfo) (ms : List ColocationMember) :
    heldIn (ms.map fun m => ⟨m.pvName, t.nodeId, poolComponent t.pool, m.capacityBytes⟩) nodeId
        pool =
      if t.nodeId = nodeId ∧ poolComponent t.pool = pool then Reservation.bytesOf ms else 0 := by
  induction ms with
  | nil => simp [heldIn, Reservation.bytesOf]
  | cons m ms ih =>
    rw [List.map_cons, ← List.singleton_append, heldIn_append, ih]
    split_ifs with hhere
    · rw [Reservation.bytesOf_cons]
      simp [heldIn, hhere]
    · simp [heldIn, hhere]

theorem viewStatus_of_statusOf {st : ZFSEvacuationStatus} (h : statusOf e = some st) :
    viewStatus e = st := by rw [viewStatus, h]; rfl

/-- What an evacuation reserves is what it holds. -/
theorem share_eq (e : Obj .evacuation) :
    Reservation.share evacName placed nodeId pool e =
      heldIn (holdsOf evacName placed e) nodeId pool := by
  cases hst : statusOf e with
  | none =>
    have hview : viewStatus e = {} := by rw [viewStatus, hst]; rfl
    rw [Reservation.share_untargeted (by simp [hst])]
    simp [holdsOf, hview, heldIn]
  | some st =>
    have hview := viewStatus_of_statusOf hst
    cases ht : st.target with
    | none =>
      rw [Reservation.share_untargeted (by simp [hst, ht])]
      simp [holdsOf, hview, ht, heldIn]
    | some t =>
      by_cases hskip : e.name = evacName ∨ st.phase = .failed
      · have hnil : holdsOf evacName placed e = [] := by simp [holdsOf, hview, ht, hskip]
        rw [hnil]
        rcases hskip with hname | hfailed
        · rw [Reservation.share_self hname]
          rfl
        · rw [Reservation.share_failed hst hfailed]
          rfl
      · have hholds : holdsOf evacName placed e = ownHold e t ++
            (membersLeft evacName placed e).map fun m =>
              ⟨m.pvName, t.nodeId, poolComponent t.pool, m.capacityBytes⟩ := by
          simp [holdsOf, hview, ht, hskip]
        obtain ⟨hname, hphase⟩ := not_or.mp hskip
        rw [hholds, heldIn_append, heldIn_members]
        by_cases hhere : t.nodeId = nodeId ∧ poolComponent t.pool = pool
        · rw [Reservation.share_here hst ht hhere.1 hhere.2 hname hphase, if_pos hhere]
          have hgroup : Reservation.groupLeft evacName e.name placed st =
              Reservation.bytesOf (membersLeft evacName placed e) := by
            unfold Reservation.groupLeft membersLeft groupMembers
            rw [hview]
            cases st.colocation <;> rfl
          have hown : heldIn (ownHold e t) nodeId pool =
              if st.phase = .completed then 0 else capacityOfEvac st := by
            unfold ownHold
            rw [hview]
            split_ifs <;> simp [heldIn, hhere]
          rw [hgroup, hown]
        · have hown : heldIn (ownHold e t) nodeId pool = 0 := by
            unfold ownHold
            split_ifs <;> simp [heldIn, hhere]
          rw [Reservation.share_elsewhere hst ht hhere, if_neg hhere, hown]

theorem reservedBytes_eq (evacs : List (Obj .evacuation)) :
    reservedBytes evacName evacs nodeId pool = heldIn (holds evacName evacs) nodeId pool := by
  have hshares : reservedBytes evacName evacs nodeId pool =
      (evacs.map (Reservation.share evacName (placedEvacs evacs) nodeId pool)).sum :=
    Reservation.reservedIn_eq_sum evacs
  rw [hshares, holds]
  clear hshares
  generalize placedEvacs evacs = placed
  induction evacs with
  | nil => rfl
  | cons e es ih => rw [List.map_cons, List.sum_cons, List.flatMap_cons, heldIn_append, share_eq, ih]

/-! ## Volumes listed by several records -/

/-- The record of another evacuation lists the volume. -/
def Lists (e : Obj .evacuation) (v : String) : Prop :=
  Holder e ∧ e.name ≠ v ∧ v ∈ (groupMembers (viewStatus e)).map (·.pvName)

def timesListed (st : ZFSEvacuationStatus) (v : String) : Nat :=
  ((groupMembers st).map (·.pvName)).count v

/-- At most one record lists the volume, and that one once. -/
structure ListedOnce (evacs : List (Obj .evacuation)) (v : String) : Prop where
  one : ∀ e ∈ evacs, ∀ f ∈ evacs, Lists e v → Lists f v → e.name = f.name
  once : ∀ e ∈ evacs, Lists e v → timesListed (viewStatus e) v ≤ 1

theorem mem_placedEvacs {evacs : List (Obj .evacuation)} {v : String} :
    v ∈ placedEvacs evacs ↔
      ∃ e ∈ evacs, e.name = v ∧ (viewStatus e).target.isSome = true := by
  unfold placedEvacs
  simp only [List.mem_map, List.mem_filter]
  have hview : ∀ e : Obj .evacuation, (statusOf e).any (·.target.isSome) =
      (viewStatus e).target.isSome := by
    intro e
    rw [viewStatus]
    cases statusOf e <;> rfl
  constructor
  · rintro ⟨e, ⟨he, ht⟩, hname⟩
    exact ⟨e, he, hname, hview e ▸ ht⟩
  · rintro ⟨e, he, hname, ht⟩
    exact ⟨e, ⟨he, (hview e).symm ▸ ht⟩, hname⟩

/-- An evacuation holds its own volume, or a member that nobody has placed. -/
theorem hold_cases {h : Hold} (hmem : h ∈ holdsOf evacName placed e) :
    ∃ t, (viewStatus e).target = some t ∧ Holder e ∧ h.volume ≠ evacName ∧ h.nodeId = t.nodeId ∧
      h.pool = poolComponent t.pool ∧
      (h.volume = e.name ∧ (viewStatus e).phase ≠ .completed ∧
          h.bytes = capacityOfEvac (viewStatus e) ∨
        ∃ m ∈ groupMembers (viewStatus e), h.volume = m.pvName ∧ h.bytes = m.capacityBytes ∧
          Lists e m.pvName ∧ m.pvName ∉ placed) := by
  unfold holdsOf at hmem
  cases ht : (viewStatus e).target with
  | none => simp [ht] at hmem
  | some t =>
    simp only [ht] at hmem
    split_ifs at hmem with hskip
    · cases hmem
    obtain ⟨hname, hphase⟩ := not_or.mp hskip
    have hholder : Holder e := ⟨Option.isSome_of_eq_some ht, hphase⟩
    rcases List.mem_append.mp hmem with hown | hlisted
    · unfold ownHold at hown
      split_ifs at hown with hcompleted
      · cases hown
      · obtain rfl := List.mem_singleton.mp hown
        exact ⟨t, rfl, hholder, hname, rfl, rfl, .inl ⟨rfl, hcompleted, rfl⟩⟩
    · obtain ⟨m, hm, rfl⟩ := List.mem_map.mp hlisted
      simp only [membersLeft, List.mem_filter, decide_eq_true_eq] at hm
      obtain ⟨⟨hin, hself⟩, hchooser, hplaced⟩ := hm
      have hlists : Lists e m.pvName := ⟨hholder, Ne.symm hself, List.mem_map_of_mem hin⟩
      exact ⟨t, rfl, hholder, hchooser, rfl, rfl,
        .inr ⟨m, hin, rfl, rfl, hlists, by simpa using hplaced⟩⟩

/-- The volumes of an evacuation's entries. -/
theorem volume_cases {v : String} (h : v ∈ (holdsOf evacName placed e).map (·.volume)) :
    Holder e ∧ (v = e.name ∨ Lists e v ∧ v ∉ placed) := by
  obtain ⟨hold, hmem, rfl⟩ := List.mem_map.mp h
  obtain ⟨t, -, hholder, -, -, -, ⟨hown, -⟩ | ⟨m, -, hvolume, -, hlists, hplaced⟩⟩ :=
    hold_cases hmem
  · exact ⟨hholder, .inl hown⟩
  · exact ⟨hholder, .inr (hvolume ▸ ⟨hlists, hplaced⟩)⟩

theorem nodup_membersLeft
    (h : ∀ v, Lists e v → v ∉ placed → timesListed (viewStatus e) v ≤ 1) (hholder : Holder e) :
    ((membersLeft evacName placed e).map (·.pvName)).Nodup := by
  rw [List.nodup_iff_count_le_one]
  intro v
  by_cases hv : v ∈ (membersLeft evacName placed e).map (·.pvName)
  · have hsub : ((membersLeft evacName placed e).map (·.pvName)).Sublist
        ((groupMembers (viewStatus e)).map (·.pvName)) :=
      (List.filter_sublist.trans List.filter_sublist).map _
    obtain ⟨m, hm, rfl⟩ := List.mem_map.mp hv
    simp only [membersLeft, List.mem_filter, decide_eq_true_eq] at hm
    obtain ⟨⟨hmem, hself⟩, -, hplaced⟩ := hm
    exact (hsub.count_le _).trans (h _ ⟨hholder, Ne.symm hself, List.mem_map_of_mem hmem⟩
      (by simpa using hplaced))
  · rw [List.count_eq_zero_of_not_mem hv]
    exact Nat.zero_le _

/-- Where volumes that are still to be placed are listed once, each is counted once. -/
theorem nodup_holds {evacs : List (Obj .evacuation)} (hnames : (evacs.map Obj.name).Nodup)
    (h : ∀ v, v ∉ placedEvacs evacs → ListedOnce evacs v) :
    ((holds evacName evacs).map (·.volume)).Nodup := by
  unfold holds
  rw [List.map_flatMap, List.nodup_flatMap]
  constructor
  · intro e he
    cases ht : (viewStatus e).target with
    | none => simp [holdsOf, ht]
    | some t =>
      by_cases hskip : e.name = evacName ∨ (viewStatus e).phase = .failed
      · simp [holdsOf, ht, hskip]
      have hholder : Holder e := ⟨Option.isSome_of_eq_some ht, (not_or.mp hskip).2⟩
      have hplaced : e.name ∈ placedEvacs evacs :=
        mem_placedEvacs.mpr ⟨e, he, rfl, hholder.1⟩
      have hleft : ((membersLeft evacName (placedEvacs evacs) e).map (·.pvName)).Nodup :=
        nodup_membersLeft (fun v hv hunplaced => (h v hunplaced).once e he hv) hholder
      have hvolumes : (holdsOf evacName (placedEvacs evacs) e).map (·.volume) =
          (ownHold e t).map (·.volume) ++
            (membersLeft evacName (placedEvacs evacs) e).map (·.pvName) := by
        simp [holdsOf, ht, hskip]
      rw [hvolumes, List.nodup_append]
      refine ⟨?_, hleft, ?_⟩
      · unfold ownHold
        split_ifs <;> simp
      · intro v hv v' hv' heq
        unfold ownHold at hv
        split_ifs at hv
        · cases hv
        · have hname : v = e.name := by simpa using hv
          obtain ⟨m, hm, rfl⟩ := List.mem_map.mp hv'
          simp only [membersLeft, List.mem_filter, decide_eq_true_eq] at hm
          exact hm.1.2 (heq.symm.trans hname)
  · refine (List.pairwise_map.mp hnames).imp_of_mem fun {e f} he hf hne => ?_
    intro v hv hv'
    obtain ⟨hholder, hcase⟩ := volume_cases hv
    obtain ⟨hholder', hcase'⟩ := volume_cases hv'
    have hplaced := mem_placedEvacs.mpr ⟨e, he, rfl, hholder.1⟩
    have hplaced' := mem_placedEvacs.mpr ⟨f, hf, rfl, hholder'.1⟩
    rcases hcase with rfl | ⟨hlists, hunplaced⟩ <;> rcases hcase' with hv' | ⟨hlists', hunplaced'⟩
    · exact hne hv'
    · exact hunplaced' hplaced
    · exact hunplaced (hv' ▸ hplaced')
    · exact hne ((h v hunplaced).one e he f hf hlists hlists')

end Ledger

/-! ## Recording a target -/

/-- The status up to what a merge patch keeps of the group. -/
def record (st : ZFSEvacuationStatus) : ZFSEvacuationStatus × Option (List ColocationMember) :=
  (st.core, st.colocation.map (·.members))

theorem record_mergeStatus (old : Option ZFSEvacuationStatus) (w : ZFSEvacuationStatus) :
    record (mergeStatus old w) = record w := by
  unfold record
  rw [core_mergeStatus]
  unfold mergeStatus
  split
  · rename_i o n _ hn
    rw [hn]
    rfl
  · rfl

theorem groupMembers_congr {st st' : ZFSEvacuationStatus} (h : record st = record st') :
    groupMembers st = groupMembers st' := by
  have hmembers := congrArg Prod.snd h
  simp only [record] at hmembers
  rw [groupMembers, hmembers, groupMembers]

/-- Only a selection sets the target and the group. -/
theorem Writes.placing {cfg : Config} {view : Obj .evacuation} {tr : Trace}
    {st w : ZFSEvacuationStatus} (h : Writes cfg view tr st w) :
    w.target = st.target ∧ groupMembers w = groupMembers st ∨
      st.phase = .targetSelecting ∧ w.phase = .transferring := by
  cases h with
  | selected _ _ _ _ _ hp _ _ _ => exact .inr ⟨hp, rfl⟩
  | _ => exact .inl ⟨rfl, rfl⟩

theorem phase_of_failed {p : Phase} (h : Relation.ReflTransGen Phase.Next .failed p) :
    p = .failed := by
  induction h with
  | refl => rfl
  | tail _ hnext ih =>
    subst ih
    cases hnext with
    | forward _ _ i hp hq => cases hp
    | aborting _ hp _ => cases hp
    | failed _ hp _ => cases hp

namespace System
variable {cfg : Config} {s s' : System} {a : SysAction} {n v : String}

/-- The status with which this step records the target of an evacuation. -/
def selects (s : System) : SysAction → Option (String × ZFSEvacuationStatus)
  | .call n _ => (s.running.get n).bind fun r => match r.prog with
    | .call (.patch .evacuation _ (.status w)) _ =>
      if w.phase = .transferring ∧ r.status.phase = .targetSelecting then some (n, w) else none
    | _ => none
  | _ => none

/-- Who holds something after a step held it before, or records its target with this step. -/
theorem holder_step (hx : StatusSound cfg s) (hrec : AllAwareOf record s)
    (hg : StatusCurrent s a) (h : step cfg s a = some s') {e' : Obj .evacuation}
    (he' : s'.world.get .evacuation ⟨"", n⟩ = some e') (hholder : Holder e') :
    ∃ e, s.world.get .evacuation ⟨"", n⟩ = some e ∧ e'.metadata.uid = e.metadata.uid ∧
      (Holder e ∧ groupMembers (viewStatus e') = groupMembers (viewStatus e) ∨
        (viewStatus e).target = none ∧ ∃ w, selects s a = some (n, w) ∧
          groupMembers (viewStatus e') = groupMembers w) := by
  rcases status_after record_mergeStatus hx.contracted hrec hg h he' with
    ⟨e, he, huid, hcase⟩ | ⟨-, hfresh, -, -⟩
  · refine ⟨e, he, huid, ?_⟩
    have hopen : (viewStatus e).phase ≠ .failed := by
      intro hfailed
      rcases hx.continues hg h he' with ⟨e₁, he₁, -, -, hlater⟩ | ⟨hfresh, -, -⟩
      · obtain rfl := Option.some.inj (he.symm.trans he₁)
        exact hholder.2 (phase_of_failed (hfailed ▸ hlater.phase))
      · rw [Holder, hfresh] at hholder
        cases hholder.1
    rcases hcase with hsame | ⟨st, w, hwrite⟩
    · exact .inl ⟨⟨hsame ▸ hholder.1, hopen⟩, by rw [hsame]⟩
    · obtain ⟨r, o, next, rfl, hr, hprog, hknows, hwrites⟩ := hwrite.caller
      have hold : (viewStatus e).core = st.core := congrArg Prod.fst hwrite.old
      have hnew : (viewStatus e').core = w.core := congrArg Prod.fst hwrite.new
      have htarget := target_congr hold
      have htarget' := target_congr hnew
      have hphase := phase_congr hold
      rcases hwrites.placing with ⟨hkept, hmembers⟩ | ⟨hselecting, htransferring⟩
      · refine .inl ⟨⟨?_, hopen⟩, ?_⟩
        · rw [htarget, ← hkept, ← htarget']
          exact hholder.1
        · rw [groupMembers_congr hwrite.new, hmembers, groupMembers_congr hwrite.old]
      · refine .inr ⟨(hx.tracked n e he).unplaced ?_, w, ?_, groupMembers_congr hwrite.new⟩
        · rw [hphase, hselecting]
          rfl
        · have hstatus : r.status = st := hknows.eq
          simp [selects, hr, hprog, htransferring, hstatus, hselecting]
  · rw [Holder, hfresh] at hholder
    cases hholder.1

/-! ## What must not happen -/

/-- The stored evacuations. -/
def stored (s : System) : List (Obj .evacuation) := s.world.list .evacuation {}

theorem mem_stored (hg : Grounded cfg s) {e : Obj .evacuation} :
    e ∈ s.stored ↔ s.world.get .evacuation ⟨"", e.name⟩ = some e := by
  rw [stored, World.mem_list]
  constructor
  · intro he
    have hns := hg.clusterScoped e (hg.recorded.stored _ e he)
    have hkey : e.key = ⟨"", e.name⟩ := by rw [Obj.key, ObjectMeta.key, hns, Obj.name]
    rwa [← hkey]
  · intro he
    rwa [(evac_key_name he).1]

theorem nodup_stored (hg : Grounded cfg s) : (s.stored.map Obj.name).Nodup := by
  have hkeys : (s.stored.map Obj.key).Nodup :=
    (s.world.objects .evacuation).nodup.sublist (List.filter_sublist.map _)
  rw [List.Nodup, List.pairwise_map] at hkeys ⊢
  refine hkeys.imp_of_mem fun {e f} he hf hne hname => hne ?_
  rw [(evac_key_name ((mem_stored hg).mp he)).1, (evac_key_name ((mem_stored hg).mp hf)).1, hname]

/-- The volume of this PV is on the node. -/
def volumeOn (cfg : Config) (w : World) (nodeId pvName : String) : Bool :=
  ((w.get .pv ⟨"", pvName⟩).bind fun pv => (pvSpec pv).bind (·.csi)).any fun csi =>
    (w.get .zfsVolume ⟨cfg.openebsNs, csi.volumeHandle⟩).any fun zv =>
      let data : ZFSVolume := zv.data
      data.spec.ownerNodeId = nodeId

/-- The evacuation of this PV is completed and still there. -/
def Moved (s : System) (v : String) : Prop :=
  ∃ e ∈ s.stored, e.name = v ∧ (viewStatus e).phase = .completed

/-- A member of the recorded group is still where it is to be moved from, or its evacuation
is completed; and if it is still to be placed, it is listed here only, and once. -/
structure MemberApart (cfg : Config) (s : System) (n : String) (w : ZFSEvacuationStatus)
    (v : String) : Prop where
  unmoved : Moved s v ∨ (w.source.any fun source => volumeOn cfg s.world source.nodeId v) = true
  alone : v ∉ placedEvacs s.stored →
    timesListed w v ≤ 1 ∧ ∀ e ∈ s.stored, e.name ≠ n → ¬ Lists e v

/-- The groups that are recorded with a target overlap with no other record. -/
def GroupsApart (cfg : Config) (s : System) (a : SysAction) : Prop :=
  ∀ x, selects s a = some x → ∀ v ∈ (groupMembers x.2).map (·.pvName), v ≠ x.1 →
    MemberApart cfg s x.1 x.2 v

/-- An evacuation with a target disappears with this step. -/
def Leaves (cfg : Config) (s : System) (a : SysAction) (e : Obj .evacuation) : Prop :=
  (viewStatus e).target.isSome = true ∧
    ((step cfg s a).any fun s' => (s'.world.get .evacuation ⟨"", e.name⟩).isNone) = true

/-- A completed evacuation stays while its volume is listed, and another one with a target
while it is listed twice. -/
def LeavesUnlisted (cfg : Config) (s : System) (a : SysAction) : Prop :=
  ∀ e ∈ s.stored, Leaves cfg s a e →
    ((viewStatus e).phase = .completed → ∀ f ∈ s.stored, ¬ Lists f e.name) ∧
      ListedOnce s.stored e.name

/-- Steps that keep the records of groups apart. -/
structure LedgerApart (cfg : Config) (s : System) (a : SysAction) : Prop where
  current : Current s a
  groups : GroupsApart cfg s a
  leaves : LeavesUnlisted cfg s a

theorem LedgerApart.status (h : LedgerApart cfg s a) : StatusCurrent s a :=
  ⟨h.current.1.statuses, h.current.2⟩

/-! ## What happened to a listed volume -/

/-- The evacuation `e` records its target together with `v`, which is on its source node. -/
def RecordsOnNode (cfg : Config) (e : Obj .evacuation) (v : String) (u : System)
    (a : SysAction) : Prop :=
  ∃ e₀ w source, u.world.get .evacuation ⟨"", e.name⟩ = some e₀ ∧
    e₀.metadata.uid = e.metadata.uid ∧ selects u a = some (e.name, w) ∧
    v ∈ (groupMembers w).map (·.pvName) ∧ w.source = some source ∧
    volumeOn cfg u.world source.nodeId v = true

/-- The evacuation of `v` is completed while `e` has its target. -/
def MovedWhile (e : Obj .evacuation) (v : String) (u : System) (_ : SysAction) : Prop :=
  ∃ e₀ x, u.world.get .evacuation ⟨"", e.name⟩ = some e₀ ∧
    e₀.metadata.uid = e.metadata.uid ∧ (viewStatus e₀).target.isSome = true ∧
    u.world.get .evacuation ⟨"", v⟩ = some x ∧ (viewStatus x).phase = .completed

/-- A volume that is still to be copied to a zpool of a node: by its own evacuation, which goes
on, or by one that is still to be placed and has not moved since another evacuation recorded it
for this place, when it was on the source node. -/
inductive ToCopy (cfg : Config) (as : List SysAction) (s : System) (h : Hold) : Prop
  | own (e : Obj .evacuation) (t : TargetInfo) (mem : e ∈ s.stored) (volume : h.volume = e.name)
      (target : (viewStatus e).target = some t) (node : h.nodeId = t.nodeId)
      (pool : h.pool = poolComponent t.pool) (failed : (viewStatus e).phase ≠ .failed)
      (completed : (viewStatus e).phase ≠ .completed)
      (bytes : h.bytes = capacityOfEvac (viewStatus e))
  | listed (e : Obj .evacuation) (t : TargetInfo) (m : ColocationMember) (mem : e ∈ s.stored)
      (target : (viewStatus e).target = some t) (node : h.nodeId = t.nodeId)
      (pool : h.pool = poolComponent t.pool) (failed : (viewStatus e).phase ≠ .failed)
      (member : m ∈ groupMembers (viewStatus e)) (volume : h.volume = m.pvName)
      (bytes : h.bytes = m.capacityBytes) (unplaced : h.volume ∉ placedEvacs s.stored)
      (recorded : Happened (step cfg) init (RecordsOnNode cfg e h.volume) as)
      (unmoved : ¬ Happened (step cfg) init (MovedWhile e h.volume) as) : ToCopy cfg as s h

/-- What the ledger reserves while `n` chooses is made up of one amount for each of some
different volumes, none of them its own, that are still to be copied. -/
def CountsOnce (cfg : Config) (as : List SysAction) (s : System) (n : String) : Prop :=
  ∃ hs : List Hold, (hs.map (·.volume)).Nodup ∧
    (∀ h ∈ hs, h.volume ≠ n ∧ ToCopy cfg as s h) ∧
    ∀ nodeId pool, reservedBytes n s.stored nodeId pool ≤ heldIn hs nodeId pool

/-! ## The invariant -/

/-- What the runs keep: each volume that is still to be placed is listed once, and a listed
one has not moved, or its evacuation is still there. -/
structure LedgerSound (cfg : Config) (as : List SysAction) (s : System) : Prop where
  grounded : Grounded cfg s
  status : StatusSound cfg s
  aware : AllAwareOf record s
  listed : ∀ v, v ∉ placedEvacs s.stored → ListedOnce s.stored v
  recorded : ∀ e ∈ s.stored, ∀ v, Lists e v →
    Happened (step cfg) init (RecordsOnNode cfg e v) as ∨ Moved s v
  unmoved : ∀ e ∈ s.stored, ∀ v, Lists e v →
    Happened (step cfg) init (MovedWhile e v) as → Moved s v

theorem placed_of_moved (hx : StatusSound cfg s) (hg : Grounded cfg s) (h : Moved s v) :
    v ∈ placedEvacs s.stored := by
  obtain ⟨e, he, hname, hphase⟩ := h
  have htracked := hx.tracked _ e ((mem_stored hg).mp he)
  obtain ⟨t, ht, -⟩ := htracked.target (by rw [hphase]; rfl)
  exact mem_placedEvacs.mpr ⟨e, he, hname, Option.isSome_of_eq_some ht⟩

/-- A selection leaves the other evacuations as they are. -/
theorem get_of_selects (hc : Contracted cfg s) (h : step cfg s a = some s')
    {w : ZFSEvacuationStatus} (hsel : selects s a = some (n, w)) (hv : v ≠ n) :
    s'.world.get .evacuation ⟨"", v⟩ = s.world.get .evacuation ⟨"", v⟩ := by
  cases step_cases h with
  | env e => cases hsel
  | start => cases hsel
  | crash => cases hsel
  | call m o r c next hr hprog _ =>
    simp only [selects, hr, Option.bind_some, hprog] at hsel
    split at hsel
    · rename_i key w' next' hcall
      cases hcall
      split_ifs at hsel
      obtain ⟨rfl, rfl⟩ := Prod.mk.inj (Option.some.inj hsel)
      obtain ⟨st, -, hkey, -⟩ := hc.allowed hr hprog
      have hother : (⟨"", v⟩ : Key) ≠ key := by
        rw [hkey, evacKey, name_of_running hr]
        intro heq
        exact hv (congrArg Key.name heq)
      rw [world_proceed]
      rcases World.after_cases s.world o (.patch .evacuation key (.status w')) with
        ⟨heq, -⟩ | heq
      · exact congrArg (·.get .evacuation ⟨"", v⟩) heq
      · exact (congrArg (·.get .evacuation ⟨"", v⟩) heq).trans
          (World.get_patch_other s.world fun _ => hother)
    · cases hsel

/-- An evacuation with a target keeps it, or leaves. -/
theorem placed_step (hx : StatusSound cfg s) (hg : Grounded cfg s) (hg' : Grounded cfg s')
    (hl : StatusCurrent s a) (h : step cfg s a = some s') {e : Obj .evacuation}
    (he : e ∈ s.stored) (ht : (viewStatus e).target.isSome = true) :
    Leaves cfg s a e ∨ ∃ e' ∈ s'.stored, e'.name = e.name ∧
      Later (viewStatus e) (viewStatus e') := by
  cases hget : s'.world.get .evacuation ⟨"", e.name⟩ with
  | none => exact .inl ⟨ht, by simp [h, hget]⟩
  | some e' =>
    refine .inr ⟨e', ?_, (evac_key_name hget).2, ?_⟩
    · rw [mem_stored hg', (evac_key_name hget).2]
      exact hget
    · have hstored := (mem_stored hg).mp he
      rcases hx.continues hl h hget with ⟨e₀, he₀, -, -, hlater⟩ | ⟨hfresh, huid, -⟩
      · obtain rfl := Option.some.inj (hstored.symm.trans he₀)
        exact hlater
      · rcases status_after core_mergeStatus hx.contracted hx.aware hl h hget with
          ⟨e₀, he₀, huid₀, -⟩ | ⟨hnone, -, -, -⟩
        · have hlt := hx.older _ e₀ he₀
          rw [← huid₀, huid] at hlt
          exact absurd hlt (Nat.lt_irrefl _)
        · rw [hstored] at hnone
          cases hnone

theorem moved_step (hx : StatusSound cfg s) (hg : Grounded cfg s) (hg' : Grounded cfg s')
    (hl : StatusCurrent s a) (h : step cfg s a = some s') (hm : Moved s v) :
    Moved s' v ∨ ∃ e ∈ s.stored, e.name = v ∧ (viewStatus e).phase = .completed ∧
      Leaves cfg s a e := by
  obtain ⟨e, he, hname, hphase⟩ := hm
  obtain ⟨t, ht, -⟩ := (hx.tracked _ e ((mem_stored hg).mp he)).target (by rw [hphase]; rfl)
  rcases placed_step hx hg hg' hl h he (Option.isSome_of_eq_some ht) with
    hleaves | ⟨e', he', hname', hlater⟩
  · exact .inr ⟨e, he, hname, hphase, hleaves⟩
  · exact .inl ⟨e', he', hname'.trans hname, phase_of_completed (hphase ▸ hlater.phase)⟩

/-- Where a listing comes from: it was there before, or is recorded with this step. -/
theorem lists_step {as : List SysAction} (hx : LedgerSound cfg as s) (hg : StatusCurrent s a)
    (hg' : Grounded cfg s') (h : step cfg s a = some s') {e' : Obj .evacuation}
    (he' : e' ∈ s'.stored) (hlists : Lists e' v) :
    ∃ e ∈ s.stored, e.name = e'.name ∧ e'.metadata.uid = e.metadata.uid ∧
      (Lists e v ∧ timesListed (viewStatus e') v = timesListed (viewStatus e) v ∨
        (viewStatus e).target = none ∧ ∃ w, selects s a = some (e'.name, w) ∧
          v ∈ (groupMembers w).map (·.pvName) ∧
          timesListed (viewStatus e') v = timesListed w v) := by
  obtain ⟨hholder, hself, hmem⟩ := hlists
  obtain ⟨e, he, huid, hcase⟩ :=
    holder_step hx.status hx.aware hg h ((mem_stored hg').mp he') hholder
  have hname : e.name = e'.name := (evac_key_name he).2
  refine ⟨e, (mem_stored hx.grounded).mpr (hname ▸ he), hname, huid, ?_⟩
  rcases hcase with ⟨hbefore, hmembers⟩ | ⟨hnone, w, hsel, hmembers⟩
  · rw [hmembers] at hmem
    refine .inl ⟨⟨hbefore, hname ▸ hself, hmem⟩, ?_⟩
    rw [timesListed, hmembers, timesListed]
  · rw [hmembers] at hmem
    refine .inr ⟨hnone, w, hsel, hmem, ?_⟩
    rw [timesListed, hmembers, timesListed]

theorem listedOnce_step {as : List SysAction} (hx : LedgerSound cfg as s)
    (hg : LedgerApart cfg s a) (hg' : Grounded cfg s') (h : step cfg s a = some s')
    (hv : v ∉ placedEvacs s'.stored) : ListedOnce s'.stored v := by
  have hcarry : ListedOnce s.stored v → (∀ e' ∈ s'.stored, Lists e' v → ∀ w,
      selects s a = some (e'.name, w) → v ∉ (groupMembers w).map (·.pvName)) →
      ListedOnce s'.stored v := by
    intro honce hnone
    have hold : ∀ e' ∈ s'.stored, Lists e' v → ∃ e ∈ s.stored, e.name = e'.name ∧ Lists e v ∧
        timesListed (viewStatus e') v = timesListed (viewStatus e) v := by
      intro e' he' hlists
      obtain ⟨e, he, hname, -, ⟨hbefore, htimes⟩ | ⟨-, w, hsel, hmem, -⟩⟩ :=
        lists_step hx hg.status hg' h he' hlists
      · exact ⟨e, he, hname, hbefore, htimes⟩
      · exact absurd hmem (hnone e' he' hlists w hsel)
    constructor
    · intro e' he' f' hf' hlists hlists'
      obtain ⟨e, he, hname, hbefore, -⟩ := hold e' he' hlists
      obtain ⟨f, hf, hname', hbefore', -⟩ := hold f' hf' hlists'
      exact hname.symm.trans ((honce.one e he f hf hbefore hbefore').trans hname')
    · intro e' he' hlists
      obtain ⟨e, he, -, hbefore, htimes⟩ := hold e' he' hlists
      rw [htimes]
      exact honce.once e he hbefore
  by_cases hplaced : v ∈ placedEvacs s.stored
  · -- the evacuation that had placed the volume leaves with this step
    obtain ⟨x, hxs, rfl, hxt⟩ := mem_placedEvacs.mp hplaced
    rcases placed_step hx.status hx.grounded hg' hg.status h hxs hxt with
      hleaves | ⟨x', hxs', hname, hlater⟩
    · refine hcarry (hg.leaves x hxs hleaves).2 fun e' _ hlists w hsel => ?_
      have hsame := get_of_selects hx.grounded.contracted h hsel hlists.2.1.symm
      obtain ⟨-, hgone⟩ := hleaves
      rw [h] at hgone
      have hgone' : (s'.world.get .evacuation ⟨"", x.name⟩).isNone = true := hgone
      rw [hsame, (mem_stored hx.grounded).mp hxs] at hgone'
      cases hgone'
    · obtain ⟨t, ht⟩ := Option.isSome_iff_exists.mp hxt
      exact absurd (mem_placedEvacs.mpr ⟨x', hxs', hname,
        Option.isSome_of_eq_some (hlater.target t ht)⟩) hv
  · by_cases hnew : ∃ e' ∈ s'.stored, Lists e' v ∧
        ∃ w, selects s a = some (e'.name, w) ∧ v ∈ (groupMembers w).map (·.pvName)
    · -- the group that is recorded now lists the volume once, and no other record lists it
      obtain ⟨e', he', hlists, w, hsel, hmem⟩ := hnew
      obtain ⟨htimes, hothers⟩ := (hg.groups _ hsel v hmem hlists.2.1.symm).alone hplaced
      have hname : ∀ f' ∈ s'.stored, Lists f' v → f'.name = e'.name := by
        intro f' hf' hflists
        obtain ⟨f, hf, hfname, -, ⟨hbefore, -⟩ | ⟨-, w', hsel', -⟩⟩ :=
          lists_step hx hg.status hg' h hf' hflists
        · by_contra hne
          exact hothers f hf (hfname.symm ▸ hne) hbefore
        · rw [hsel] at hsel'
          exact (congrArg Prod.fst (Option.some.inj hsel')).symm
      constructor
      · intro f' hf' g' hg'' hflists hglists
        exact (hname f' hf' hflists).trans (hname g' hg'' hglists).symm
      · intro f' hf' hflists
        obtain ⟨f, hf, hfname, -, ⟨hbefore, htimes'⟩ | ⟨-, w', hsel', -, htimes'⟩⟩ :=
          lists_step hx hg.status hg' h hf' hflists
        · rw [htimes']
          exact (hx.listed v hplaced).once f hf hbefore
        · rw [hname f' hf' hflists, hsel] at hsel'
          obtain rfl := (Prod.mk.inj (Option.some.inj hsel')).2
          rw [htimes']
          exact htimes
    · exact hcarry (hx.listed v hplaced) fun e' he' hlists w hsel hmem =>
        hnew ⟨e', he', hlists, w, hsel, hmem⟩

/-- A volume that has moved stays placed while it is listed. -/
theorem moved_kept {as : List SysAction} (hx : LedgerSound cfg as s) (hg : LedgerApart cfg s a)
    (hg' : Grounded cfg s') (h : step cfg s a = some s') {e' : Obj .evacuation}
    (he' : e' ∈ s'.stored) (hlists : Lists e' v) (hm : Moved s v) : Moved s' v := by
  rcases moved_step hx.status hx.grounded hg' hg.status h hm with
    hkept | ⟨x, hxs, rfl, hphase, hleaves⟩
  · exact hkept
  · obtain ⟨e, he, -, -, ⟨hbefore, -⟩ | ⟨-, w, hsel, -⟩⟩ :=
      lists_step hx hg.status hg' h he' hlists
    · exact absurd hbefore ((hg.leaves x hxs hleaves).1 hphase e he)
    · have hsame := get_of_selects hx.grounded.contracted h hsel hlists.2.1.symm
      obtain ⟨-, hgone⟩ := hleaves
      rw [h] at hgone
      have hgone' : (s'.world.get .evacuation ⟨"", x.name⟩).isNone = true := hgone
      rw [hsame, (mem_stored hx.grounded).mp hxs] at hgone'
      cases hgone'

theorem recordedOnNode_step {as : List SysAction} (hrun : runList (step cfg) init as = some s)
    (hx : LedgerSound cfg as s) (hg : LedgerApart cfg s a) (hg' : Grounded cfg s')
    (h : step cfg s a = some s') {e' : Obj .evacuation} (he' : e' ∈ s'.stored)
    (hlists : Lists e' v) :
    Happened (step cfg) init (RecordsOnNode cfg e' v) (as ++ [a]) ∨ Moved s' v := by
  obtain ⟨e, he, hname, huid, ⟨hbefore, -⟩ | ⟨-, w, hsel, hmem, -⟩⟩ :=
    lists_step hx hg.status hg' h he' hlists
  · rcases hx.recorded e he v hbefore with hpast | hm
    · refine .inl (Happened.append ?_ [a])
      obtain ⟨bs, b, cs, u, heq, hu, e₀, w, source, hget, huid₀, hrest⟩ := hpast
      exact ⟨bs, b, cs, u, heq, hu, e₀, w, source, hname ▸ hget, huid₀.trans huid.symm,
        hname ▸ hrest⟩
    · exact .inr (moved_kept hx hg hg' h he' hlists hm)
  · rcases (hg.groups _ hsel v hmem hlists.2.1.symm).unmoved with hm | hon
    · exact .inr (moved_kept hx hg hg' h he' hlists hm)
    · obtain ⟨source, hs, hon⟩ := (Option.any_eq_true ..).mp hon
      have hget := (mem_stored hx.grounded).mp he
      exact .inl (Happened.now hrun ⟨e, w, source, hname ▸ hget, huid.symm, hsel, hmem, hs, hon⟩)

/-- An evacuation that has no target has never had one. -/
theorem untargeted_before {as : List SysAction} (hrun : Run (step cfg) (LedgerApart cfg) init as s)
    {e : Obj .evacuation} (he : s.world.get .evacuation ⟨"", e.name⟩ = some e)
    (hnone : (viewStatus e).target = none) {e' : Obj .evacuation} (hname : e.name = e'.name)
    (huid : e'.metadata.uid = e.metadata.uid) :
    ¬ Happened (step cfg) init (MovedWhile e' v) as := by
  rintro ⟨bs, b, cs, u, rfl, hu, e₀, x, hget, huid₀, ht, -, -⟩
  obtain ⟨t, hbefore, hafter⟩ := hrun.split
  obtain rfl : t = u := Option.some.inj (hbefore.runList_eq.symm.trans hu)
  have hstatus : ∀ {as s t}, Run (step cfg) (LedgerApart cfg) s as t →
      Run (step cfg) StatusCurrent s as t := fun hr => hr.mono fun _ _ hg => hg.status
  have hlater := later_run (statusSound_run (hstatus hbefore)) (hstatus hafter)
    (hname.symm ▸ hget) he (huid.symm.trans huid₀.symm)
  obtain ⟨target, htarget⟩ := Option.isSome_iff_exists.mp ht
  rw [hlater.target target htarget] at hnone
  cases hnone

theorem unmoved_step {as : List SysAction} (hrun : Run (step cfg) (LedgerApart cfg) init as s)
    (hx : LedgerSound cfg as s) (hg : LedgerApart cfg s a) (hg' : Grounded cfg s')
    (h : step cfg s a = some s') {e' : Obj .evacuation} (he' : e' ∈ s'.stored)
    (hlists : Lists e' v)
    (hm : Happened (step cfg) init (MovedWhile e' v) (as ++ [a])) : Moved s' v := by
  obtain ⟨e, he, hname, huid, hcase⟩ := lists_step hx hg.status hg' h he' hlists
  have hget := (mem_stored hx.grounded).mp he
  refine moved_kept hx hg hg' h he' hlists ?_
  rcases Happened.last hrun.runList_eq hm with hpast | ⟨e₀, x, hget₀, -, ht, hxs, hphase⟩
  · rcases hcase with ⟨hbefore, -⟩ | ⟨hnone, -⟩
    · refine hx.unmoved e he v hbefore ?_
      obtain ⟨bs, b, cs, u, heq, hu, e₀, x, hget₀, huid₀, hrest⟩ := hpast
      exact ⟨bs, b, cs, u, heq, hu, e₀, x, hname.symm ▸ hget₀, huid₀.trans huid, hrest⟩
    · exact absurd hpast (untargeted_before hrun hget hnone hname huid)
  · exact ⟨x, (mem_stored hx.grounded).mpr ((evac_key_name hxs).2.symm ▸ hxs),
      (evac_key_name hxs).2, hphase⟩

theorem ledgerSound_run {as : List SysAction} (h : Run (step cfg) (LedgerApart cfg) init as s) :
    LedgerSound cfg as s := by
  have hgrounded : ∀ {as s}, Run (step cfg) (LedgerApart cfg) init as s → Grounded cfg s :=
    fun hr => grounded_run (fun _ _ hg => hg.current.1) hr
  induction h with
  | start =>
    constructor
    · exact hgrounded .start
    · exact statusSound_init
    · intro n r e hr
      cases hr
    · intro v _
      constructor
      · intro e he
        cases he
      · intro e he
        cases he
    · intro e he
      cases he
    · intro e he
      cases he
  | snoc hrun hg hstep hx =>
    have hg' := hgrounded (hrun.snoc hg hstep)
    constructor
    · exact hg'
    · exact hx.status.step hg.status hstep
    · exact allAwareOf_step record_mergeStatus hx.status.contracted hx.aware hg.status.1
        hg.status.2 hstep
    · exact fun v hv => listedOnce_step hx hg hg' hstep hv
    · exact fun e he v hlists => recordedOnNode_step hrun.runList_eq hx hg hg' hstep he hlists
    · exact fun e he v hlists hm => unmoved_step hrun hx hg hg' hstep he hlists hm

/-- In every run that keeps the records of groups apart, the ledger counts each volume once. -/
theorem counted_once (cfg : Config) (as : List SysAction) (s : System) (n : String)
    (h : Run (step cfg) (LedgerApart cfg) init as s) : CountsOnce cfg as s n := by
  have hx := ledgerSound_run h
  refine ⟨holds n s.stored, nodup_holds (nodup_stored hx.grounded) hx.listed, ?_, ?_⟩
  · intro hold hmem
    obtain ⟨e, he, hin⟩ := List.mem_flatMap.mp hmem
    obtain ⟨t, ht, hholder, hother, hnode, hpool, hcase⟩ := hold_cases hin
    refine ⟨hother, ?_⟩
    rcases hcase with ⟨hown, hcompleted, hbytes⟩ | ⟨m, hm, hvolume, hbytes, hlists, hplaced⟩
    · exact .own e t he hown ht hnode hpool hholder.2 hcompleted hbytes
    · have hunmoved : ¬ Moved s hold.volume := fun hm =>
        hplaced (hvolume ▸ placed_of_moved hx.status hx.grounded hm)
      rw [← hvolume] at hlists hplaced
      exact .listed e t m he ht hnode hpool hholder.2 hm hvolume hbytes hplaced
        ((hx.recorded e he _ hlists).resolve_right hunmoved)
        fun hmoved => hunmoved (hx.unmoved e he _ hlists hmoved)
  · intro nodeId pool
    exact (reservedBytes_eq s.stored).le

/-! ## A leader and a follower that list a third volume -/

/-- A never-scheduled pod with three claims. -/
def consumer : Obj .pod :=
  ⟨{ ns := "d", name := "p" },
    ({ volumes := [{ name := "a", persistentVolumeClaim := some "c1" },
        { name := "b", persistentVolumeClaim := some "c2" },
        { name := "c", persistentVolumeClaim := some "c3" }] } : Pod)⟩

def drainedNode : Obj .node :=
  ⟨{ name := "n1" },
    ({ unschedulable := some true
       conditions := [⟨"Ready", "True"⟩]
       addresses := [⟨"InternalIP", "10.0.0.1"⟩] } : Node)⟩

open Sample (reconcilesOf seconds volumeOnFirst)

/-- Three volumes of one pod and a fourth one. -/
def groupSetup : List SysAction :=
  [ .env (.create .node drainedNode), .env (.create .node (Sample.node "n2" "10.0.0.2")),
    .env (.create .zfsNode (Sample.zfsNode "n2")) ] ++ ["1", "2", "3", "4"].flatMap volumeOnFirst ++
  [ .env (.create .evacuation (Sample.evacuation "pv1" .whenClaimed)),
    .env (.create .evacuation (Sample.evacuation "pv2" .whenClaimed)),
    .env (.create .evacuation (Sample.evacuation "pv4" .whenIdle)), .env (.create .pod consumer) ]

def sourceDestroyed : SysAction :=
  .env (.update .zfsVolume ⟨{ ns := "openebs", name := "vol1" },
    ({ spec := { ownerNodeId := "n1", poolName := "tank" } } : ZFSVolume)⟩)

/-- The fourth volume waits for its target, and the first one chooses n2. -/
def leaderChosen : List SysAction :=
  groupSetup ++ reconcilesOf "pv4" [(2, 7), (4, 5), (5, 4), (6, 7)] ++ [seconds 100] ++
    reconcilesOf "pv4" [(7, 7)] ++ [seconds 100] ++
    reconcilesOf "pv4" [(8, 6)] ++ reconcilesOf "pv1" [(0, 7), (11, 5), (12, 4), (13, 7)] ++
    [seconds 100] ++ reconcilesOf "pv1" [(14, 8)] ++ [seconds 100] ++
    reconcilesOf "pv1" [(15, 7), (16, 23)]

/-- The first volume moves to n2. -/
def leaderMoved : List SysAction :=
  leaderChosen ++ reconcilesOf "pv1" [(17, 11)] ++
    [.env (.relay "pv1" ⟨1, 2, 0, 0, false, true⟩)] ++ reconcilesOf "pv1" [(18, 8)] ++
    [ Sample.restoreReport "pv1-evacr-a1" Sample.newHandle "n2" bkpStatusDone,
      Sample.backupReport "pv1-evac-a1" "vol1" "n1" "zevac-a1-0000" bkpStatusDone ] ++
    reconcilesOf "pv1" [(18, 8), (19, 5)] ++
    [Sample.volumeReport Sample.newHandle "n2" zfsStatusReady] ++
    reconcilesOf "pv1" [(19, 4), (20, 7), (21, 5), (21, 2)] ++ [Sample.replacementBound] ++
    reconcilesOf "pv1" [(21, 3), (22, 5)] ++ transferTornDown ++ reconcilesOf "pv1" [(23, 6)] ++
    [snapshotReport [zfsFinalizer]] ++ reconcilesOf "pv1" [(24, 6)] ++ [snapshotReport []] ++
    reconcilesOf "pv1" [(26, 9)] ++ [sourceDestroyed] ++ reconcilesOf "pv1" [(27, 11)]

/-- The second volume follows it. -/
def leaderFollowed : List SysAction :=
  leaderMoved ++ reconcilesOf "pv2" [(1, 7), (31, 5), (32, 4), (33, 7)] ++ [seconds 100] ++
    reconcilesOf "pv2" [(34, 8)] ++ [seconds 100] ++ reconcilesOf "pv2" [(35, 7), (36, 23)]

/-- Two volumes of 1 GiB are still to be copied to n2, and 3 GiB are reserved. -/
def countedTwice (s : System) : Bool :=
  (s.stored.all fun e =>
    ((viewStatus e).target.isNone || (viewStatus e).phase == .completed ||
      (["pv2", "pv3"].contains e.name && capacityOfEvac (viewStatus e) == 2 ^ 30)) &&
    (groupMembers (viewStatus e)).all fun m => m.capacityBytes == 2 ^ 30 &&
      (["pv2", "pv3"].contains m.pvName || (placedEvacs s.stored).contains m.pvName)) &&
  reservedBytes "pv4" s.stored "n2" "tank" == 3 * 2 ^ 30

theorem heldIn_le {hs : List Hold} {bytes : Nat} (h : ∀ x ∈ hs, x.bytes = bytes)
    (nodeId pool : String) : heldIn hs nodeId pool ≤ hs.length * bytes := by
  induction hs with
  | nil => simp [heldIn]
  | cons x xs ih =>
    have htail := ih fun y hy => h y (List.mem_cons_of_mem _ hy)
    have hhead := h x List.mem_cons_self
    rw [List.length_cons, Nat.succ_mul]
    by_cases hx : x.nodeId = nodeId ∧ x.pool = pool
    · simp only [heldIn, List.filter_cons, hx, and_self, decide_true, if_true, List.map_cons,
        List.sum_cons, hhead] at htail ⊢
      omega
    · simp only [heldIn, List.filter_cons, hx, decide_false, Bool.false_eq_true, if_false]
        at htail ⊢
      omega

theorem not_countsOnce {as : List SysAction} (h : countedTwice s = true) :
    ¬ CountsOnce cfg as s "pv4" := by
  rintro ⟨hs, hnodup, hcopy, hle⟩
  simp only [countedTwice, Bool.and_eq_true, List.all_eq_true, Bool.or_eq_true, beq_iff_eq,
    List.contains_iff_mem, Option.isNone_iff_eq_none] at h
  obtain ⟨hall, hreserved⟩ := h
  have hentry : ∀ x ∈ hs, x.volume ∈ ["pv2", "pv3"] ∧ x.bytes = 2 ^ 30 := by
    intro x hx
    cases (hcopy x hx).2 with
    | own e t mem volume target _ _ _ completed bytes =>
      rcases (hall e mem).1 with (hnone | hcompleted) | ⟨hname, hcapacity⟩
      · rw [target] at hnone
        cases hnone
      · exact absurd hcompleted completed
      · exact ⟨volume ▸ hname, bytes.trans hcapacity⟩
    | listed e t m mem _ _ _ _ member volume bytes unplaced _ _ =>
      obtain ⟨hcapacity, hname | hplaced⟩ := (hall e mem).2 m member
      · exact ⟨volume ▸ hname, bytes.trans hcapacity⟩
      · exact absurd (volume ▸ hplaced) unplaced
  have hlength : hs.length ≤ 2 := by
    have hsub : hs.map (·.volume) ⊆ ["pv2", "pv3"] := by
      intro v hv
      obtain ⟨x, hx, rfl⟩ := List.mem_map.mp hv
      exact (hentry x hx).1
    have hle := (hnodup.subperm hsub).length_le
    rwa [List.length_map] at hle
  have hheld := heldIn_le (fun x hx => (hentry x hx).2) "n2" "tank"
  have hbound := hle "n2" "tank"
  rw [hreserved] at hbound
  omega

theorem not_counted_once : ¬ ∀ (cfg : Config) (as : List SysAction) (s : System) (n : String),
    Run (step cfg) Current init as s → CountsOnce cfg as s n := by
  intro hall
  obtain ⟨s, hrun, hs⟩ := Run.exists_of_runList (p := countedTwice)
    (show (runList (guarded (step Sample.config) Current) init leaderFollowed).any _ = true
      by decide +kernel)
  exact not_countsOnce hs (hall Sample.config leaderFollowed s "pv4" hrun)

instance (e : Obj .evacuation) : Decidable (Lists e v) := inferInstanceAs (Decidable (_ ∧ _))

instance (evacs : List (Obj .evacuation)) : Decidable (ListedOnce evacs v) :=
  decidable_of_iff ((∀ e ∈ evacs, ∀ f ∈ evacs, Lists e v → Lists f v → e.name = f.name) ∧
      ∀ e ∈ evacs, Lists e v → timesListed (viewStatus e) v ≤ 1)
    ⟨fun ⟨hone, honce⟩ => ⟨hone, honce⟩, fun ⟨hone, honce⟩ => ⟨hone, honce⟩⟩

instance : Decidable (Moved s v) := inferInstanceAs (Decidable (∃ e ∈ _, _))

instance (w : ZFSEvacuationStatus) : Decidable (MemberApart cfg s n w v) :=
  decidable_of_iff ((Moved s v ∨ (w.source.any fun source =>
        volumeOn cfg s.world source.nodeId v) = true) ∧
      (v ∉ placedEvacs s.stored →
        timesListed w v ≤ 1 ∧ ∀ e ∈ s.stored, e.name ≠ n → ¬ Lists e v))
    ⟨fun ⟨hunmoved, halone⟩ => ⟨hunmoved, halone⟩, fun ⟨hunmoved, halone⟩ => ⟨hunmoved, halone⟩⟩

instance (e : Obj .evacuation) : Decidable (Leaves cfg s a e) :=
  inferInstanceAs (Decidable (_ ∧ _))

instance : Decidable (GroupsApart cfg s a) :=
  inferInstanceAs (Decidable (∀ x, selects s a = some x →
    ∀ v ∈ (groupMembers x.2).map (fun m : ColocationMember => m.pvName), v ≠ x.1 →
      MemberApart cfg s x.1 x.2 v))

instance : Decidable (LedgerApart cfg s a) :=
  decidable_of_iff (Current s a ∧ GroupsApart cfg s a ∧
      ∀ e ∈ s.stored, Leaves cfg s a e →
        ((viewStatus e).phase = .completed → ∀ f ∈ s.stored, ¬ Lists f e.name) ∧
          ListedOnce s.stored e.name)
    ⟨fun ⟨hcurrent, hgroups, hleaves⟩ => ⟨hcurrent, hgroups, hleaves⟩,
      fun ⟨hcurrent, hgroups, hleaves⟩ => ⟨hcurrent, hgroups, hleaves⟩⟩

/-- A leader with two members holds three volumes on n2 against a fourth one. -/
theorem counted_once_leader : ∃ s, Run (step Sample.config) (LedgerApart Sample.config) init
      leaderChosen s ∧ Sample.phaseOf s "pv4" = some .targetSelecting ∧
    reservedBytes "pv4" s.stored "n2" "tank" = 3 * 2 ^ 30 ∧
      CountsOnce Sample.config leaderChosen s "pv4" := by
  obtain ⟨s, hrun, hs⟩ := Run.exists_of_runList
    (p := fun s : System => Sample.phaseOf s "pv4" == some .targetSelecting &&
      reservedBytes "pv4" s.stored "n2" "tank" == 3 * 2 ^ 30)
    (show (runList (guarded (step Sample.config) (LedgerApart Sample.config)) init
      leaderChosen).any _ = true by decide +kernel)
  obtain ⟨hphase, hreserved⟩ := Bool.and_eq_true_iff.mp hs
  exact ⟨s, hrun, beq_iff_eq.mp hphase, beq_iff_eq.mp hreserved,
    counted_once Sample.config leaderChosen s "pv4" hrun⟩

end System

end ZfsEvacuation
