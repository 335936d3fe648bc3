import ZfsEvacuation.GroupVolumes
import ZfsEvacuation.PrepareSound
import ZfsEvacuation.TargetChoice
import Mathlib.Algebra.Order.BigOperators.Group.List

/-!
# Capacities from the text to the ledger

A capacity is narrowed to 64 bits when it is recorded, without a check. From there on all sums,
the product with the headroom and the difference are exact as far as they fit 128 bits.
-/
namespace ZfsEvacuation
open ClientProgram Program Reservation

/-! ## Checked arithmetic -/

section Checked
variable {a b n : Nat}

/-- A 128-bit addition; none where it overflows. -/
def addU128 (a b : Nat) : Option Nat := if a + b < 2 ^ 128 then some (a + b) else none

def mulU128 (a b : Nat) : Option Nat := if a * b < 2 ^ 128 then some (a * b) else none

def sumU128 (l : List Nat) : Option Nat := l.foldlM addU128 0

theorem addU128_eq_some_iff : addU128 a b = some n ↔ n = a + b ∧ a + b < 2 ^ 128 := by
  unfold addU128
  split_ifs with h
  · rw [Option.some.injEq, eq_comm, and_iff_left h]
  · simp only [h, and_false]

theorem mulU128_eq_some_iff : mulU128 a b = some n ↔ n = a * b ∧ a * b < 2 ^ 128 := by
  unfold mulU128
  split_ifs with h
  · rw [Option.some.injEq, eq_comm, and_iff_left h]
  · simp only [h, and_false]

/-- A fold of steps that each add an amount, or overflow, is exact if the total fits. -/
theorem foldlM_eq_some_iff {α : Type} {step : Nat → α → Option Nat} {amount : α → Nat}
    (hstep : ∀ a x n, a < 2 ^ 128 → (step a x = some n ↔ n = a + amount x ∧ a + amount x < 2 ^ 128))
    {l : List α} (ha : a < 2 ^ 128) :
    l.foldlM step a = some n ↔ n = a + (l.map amount).sum ∧ a + (l.map amount).sum < 2 ^ 128 := by
  induction l generalizing a with
  | nil =>
    rw [List.foldlM_nil, List.map_nil, List.sum_nil, Nat.add_zero, and_iff_left ha]
    exact ⟨fun h => (Option.some.inj h).symm, fun h => congrArg some h.symm⟩
  | cons x l ih =>
    rw [List.foldlM_cons, List.map_cons, List.sum_cons, ← Nat.add_assoc]
    constructor
    · intro h
      obtain ⟨b, hb, hrest⟩ := Option.bind_eq_some_iff.mp h
      obtain ⟨rfl, hfits⟩ := (hstep a x b ha).mp hb
      exact (ih hfits).mp hrest
    · rintro ⟨rfl, htotal⟩
      have hfits : a + amount x < 2 ^ 128 := by omega
      refine Option.bind_eq_some_iff.mpr ⟨a + amount x, (hstep a x _ ha).mpr ⟨rfl, hfits⟩, ?_⟩
      exact (ih hfits).mpr ⟨rfl, htotal⟩

theorem sumU128_eq_some_iff {l : List Nat} : sumU128 l = some n ↔ n = l.sum ∧ l.sum < 2 ^ 128 := by
  have hstep : ∀ a x n : Nat, a < 2 ^ 128 →
      (addU128 a x = some n ↔ n = a + id x ∧ a + id x < 2 ^ 128) :=
    fun _ _ _ _ => addU128_eq_some_iff
  have hfold : l.foldlM addU128 0 = some n ↔
      n = 0 + (l.map id).sum ∧ 0 + (l.map id).sum < 2 ^ 128 :=
    foldlM_eq_some_iff hstep (show 0 < 2 ^ 128 by omega)
  simpa [sumU128] using hfold

end Checked

/-! ## What target selection computes -/

section Selection
variable (evacName : String) (evacs : List (Obj .evacuation))

/-- The bytes that the volume and its group need, with every operation checked. -/
def needU128 (capacity : Nat) (extras : List Nat) (headroom : Nat) : Option Nat := do
  let extra ← sumU128 extras
  let bytes ← addU128 capacity extra
  let product ← mulU128 bytes headroom
  addU128 bytes (product / 100)

/-- The members of another evacuation's group that it still holds space for. -/
def heldMembers (placed : List String) (e : Obj .evacuation) (c : ColocationStatus) : List Nat :=
  ((c.members.filter fun m => m.pvName ≠ e.name).filter fun m =>
    m.pvName ≠ evacName ∧ ¬ placed.contains m.pvName).map (·.capacityBytes)

/-- The evacuation's own capacity, until it is completed. -/
def ownU128 (st : ZFSEvacuationStatus) (held : Nat) : Option Nat :=
  if st.phase = .completed then some held else addU128 held (capacityOfEvac st)

def groupU128 (e : Obj .evacuation) (st : ZFSEvacuationStatus) (held : Nat) : Option Nat :=
  match st.colocation with
  | none => some held
  | some c => do
    let group ← sumU128 (heldMembers evacName (placedEvacs evacs) e c)
    addU128 held group

/-- One evacuation's entry in a slot of the ledger. -/
def reserveU128 (slot : String × String) (held : Nat) (e : Obj .evacuation) : Option Nat :=
  match statusOf e with
  | none => some held
  | some st =>
    if e.name = evacName ∨ st.phase = .failed then some held
    else match st.target with
    | none => some held
    | some t =>
      if (t.nodeId, poolComponent t.pool) ≠ slot then some held
      else ownU128 st held >>= groupU128 evacName evacs e st

def ledgerU128 (slot : String × String) : Option Nat :=
  evacs.foldlM (reserveU128 evacName evacs slot) 0

/-- The space left in a pool that has enough of it, with a subtraction that may underflow. -/
def availableU128 (free res need : Nat) : Option (Option Nat) :=
  if need ≤ free - res then if res ≤ free then some (some (free - res)) else none
  else some none

def groupAmount (e : Obj .evacuation) (st : ZFSEvacuationStatus) : Nat :=
  match st.colocation with
  | none => 0
  | some c => (heldMembers evacName (placedEvacs evacs) e c).sum

/-- What an evacuation adds to a slot. -/
def amountIn (slot : String × String) (e : Obj .evacuation) : Nat :=
  match reservation evacName (placedEvacs evacs) e with
  | none => 0
  | some r => if r.1 = slot then r.2 else 0

section Entry
variable {evacName evacs} {e : Obj .evacuation} {st : ZFSEvacuationStatus} {held n : Nat}

theorem ownU128_eq_some_iff (hheld : held < 2 ^ 128) : ownU128 st held = some n ↔
    n = held + (if st.phase = .completed then 0 else capacityOfEvac st) ∧
      held + (if st.phase = .completed then 0 else capacityOfEvac st) < 2 ^ 128 := by
  unfold ownU128
  by_cases hdone : st.phase = .completed
  · rw [if_pos hdone, if_pos hdone, Nat.add_zero, and_iff_left hheld, Option.some.injEq, eq_comm]
  · rw [if_neg hdone, if_neg hdone, addU128_eq_some_iff]

theorem groupU128_eq_some_iff (hheld : held < 2 ^ 128) :
    groupU128 evacName evacs e st held = some n ↔
      n = held + groupAmount evacName evacs e st ∧
        held + groupAmount evacName evacs e st < 2 ^ 128 := by
  unfold groupU128 groupAmount
  cases st.colocation with
  | none =>
    simp only
    rw [Nat.add_zero, and_iff_left hheld, Option.some.injEq, eq_comm]
  | some c =>
    simp only
    constructor
    · intro h
      obtain ⟨group, hgroup, hadd⟩ := Option.bind_eq_some_iff.mp h
      obtain ⟨rfl, -⟩ := sumU128_eq_some_iff.mp hgroup
      exact addU128_eq_some_iff.mp hadd
    · rintro ⟨rfl, hfits⟩
      refine Option.bind_eq_some_iff.mpr ⟨_, sumU128_eq_some_iff.mpr ⟨rfl, by omega⟩, ?_⟩
      exact addU128_eq_some_iff.mpr ⟨rfl, hfits⟩

/-- First the capacity of the evacuation itself, then what its group still needs. -/
theorem ownThenGroup_iff (hheld : held < 2 ^ 128) :
    ownU128 st held >>= groupU128 evacName evacs e st = some n ↔
      n = held + ((if st.phase = .completed then 0 else capacityOfEvac st) +
          groupAmount evacName evacs e st) ∧
        held + ((if st.phase = .completed then 0 else capacityOfEvac st) +
          groupAmount evacName evacs e st) < 2 ^ 128 := by
  rw [← Nat.add_assoc]
  constructor
  · intro h
    obtain ⟨m, hm, hrest⟩ := Option.bind_eq_some_iff.mp h
    obtain ⟨rfl, hfits⟩ := (ownU128_eq_some_iff hheld).mp hm
    exact (groupU128_eq_some_iff hfits).mp hrest
  · rintro ⟨rfl, hfits⟩
    refine Option.bind_eq_some_iff.mpr ⟨_, (ownU128_eq_some_iff hheld).mpr ⟨rfl, by omega⟩, ?_⟩
    exact (groupU128_eq_some_iff (by omega)).mpr ⟨rfl, hfits⟩

end Entry

theorem reserveU128_eq_some_iff (slot : String × String) (held : Nat) (e : Obj .evacuation)
    (n : Nat) (hheld : held < 2 ^ 128) :
    reserveU128 evacName evacs slot held e = some n ↔
      n = held + amountIn evacName evacs slot e ∧ held + amountIn evacName evacs slot e < 2 ^ 128 := by
  have hkeep : some held = some n ↔ n = held + 0 ∧ held + 0 < 2 ^ 128 := by
    rw [Option.some.injEq, eq_comm, Nat.add_zero, and_iff_left hheld]
  unfold reserveU128 amountIn reservation
  cases statusOf e with
  | none => exact hkeep
  | some st =>
    simp only
    by_cases hskip : e.name = evacName ∨ st.phase = .failed
    · rw [if_pos hskip, if_pos hskip]
      exact hkeep
    · rw [if_neg hskip, if_neg hskip]
      cases st.target with
      | none => exact hkeep
      | some t =>
        simp only [Option.map_some]
        by_cases hslot : (t.nodeId, poolComponent t.pool) = slot
        · rw [if_neg (not_not.mpr hslot), if_pos hslot]
          exact ownThenGroup_iff hheld
        · rw [if_pos hslot, if_neg hslot]
          exact hkeep

theorem sum_amountIn (slot : String × String) :
    (evacs.map (amountIn evacName evacs slot)).sum =
      reservedBytes evacName evacs slot.1 slot.2 := by
  have hsum : ∀ l : List (Obj .evacuation), (l.map (amountIn evacName evacs slot)).sum =
      (((l.filterMap (reservation evacName (placedEvacs evacs))).filter
        fun r => r.1 = slot).map (·.2)).sum := by
    intro l
    induction l with
    | nil => rfl
    | cons e l ih =>
      rw [List.map_cons, List.sum_cons, ih, List.filterMap_cons, amountIn]
      cases reservation evacName (placedEvacs evacs) e with
      | none => simp
      | some r =>
        simp only [List.filter_cons, decide_eq_true_eq]
        split_ifs <;> simp
  exact hsum evacs

theorem ledgerU128_eq_some_iff (slot : String × String) (n : Nat) :
    ledgerU128 evacName evacs slot = some n ↔
      n = reservedBytes evacName evacs slot.1 slot.2 ∧
        reservedBytes evacName evacs slot.1 slot.2 < 2 ^ 128 := by
  have hfold := foldlM_eq_some_iff (n := n) (l := evacs)
    (reserveU128_eq_some_iff evacName evacs slot) (show 0 < 2 ^ 128 by omega)
  rwa [Nat.zero_add, sum_amountIn] at hfold

theorem needU128_eq_some_iff (capacity : Nat) (extras : List Nat) (headroom n : Nat) :
    needU128 capacity extras headroom = some n ↔
      n = capacity + extras.sum + (capacity + extras.sum) * headroom / 100 ∧
        (capacity + extras.sum) * headroom < 2 ^ 128 ∧
        capacity + extras.sum + (capacity + extras.sum) * headroom / 100 < 2 ^ 128 := by
  constructor
  · intro h
    obtain ⟨extra, hextra, hrest⟩ := Option.bind_eq_some_iff.mp h
    obtain ⟨rfl, -⟩ := sumU128_eq_some_iff.mp hextra
    obtain ⟨bytes, hbytes, hrest⟩ := Option.bind_eq_some_iff.mp hrest
    obtain ⟨rfl, -⟩ := addU128_eq_some_iff.mp hbytes
    obtain ⟨product, hproduct, hrest⟩ := Option.bind_eq_some_iff.mp hrest
    obtain ⟨rfl, hfits⟩ := mulU128_eq_some_iff.mp hproduct
    obtain ⟨rfl, hneed⟩ := addU128_eq_some_iff.mp hrest
    exact ⟨rfl, hfits, hneed⟩
  · rintro ⟨rfl, hfits, hneed⟩
    refine Option.bind_eq_some_iff.mpr ⟨_, sumU128_eq_some_iff.mpr ⟨rfl, by omega⟩, ?_⟩
    refine Option.bind_eq_some_iff.mpr ⟨_, addU128_eq_some_iff.mpr ⟨rfl, by omega⟩, ?_⟩
    refine Option.bind_eq_some_iff.mpr ⟨_, mulU128_eq_some_iff.mpr ⟨rfl, hfits⟩, ?_⟩
    exact addU128_eq_some_iff.mpr ⟨rfl, hneed⟩

/-- Whoever needs something is never told of space that is not there. -/
theorem availableU128_eq {free res need : Nat} (hneed : 1 ≤ need) :
    availableU128 free res need = some (if need ≤ free - res then some (free - res) else none) := by
  unfold availableU128
  split_ifs with hroom hle
  · rfl
  · omega
  · rfl

/-- Every operation of a target selection has its exact result. -/
structure ExactSelection (capacity : Nat) (extras : List Nat) (headroom : Nat) : Prop where
  need : needU128 capacity extras headroom =
    some (capacity + extras.sum + (capacity + extras.sum) * headroom / 100)
  ledger : ∀ slot, ledgerU128 evacName evacs slot =
    some (reservedBytes evacName evacs slot.1 slot.2)
  available : ∀ (pool : ZfsPool) (slot : String × String),
    let need := capacity + extras.sum + (capacity + extras.sum) * headroom / 100
    let res := reservedBytes evacName evacs slot.1 slot.2
    availableU128 (freeBytes pool) res need =
      some (if need ≤ freeBytes pool - res then some (freeBytes pool - res) else none)

/-- The sums and the product fit 128 bits. -/
structure FitsU128 (capacity : Nat) (extras : List Nat) (headroom : Nat) : Prop where
  product : (capacity + extras.sum) * headroom < 2 ^ 128
  need : capacity + extras.sum + (capacity + extras.sum) * headroom / 100 < 2 ^ 128
  ledger : ∀ slot : String × String, reservedBytes evacName evacs slot.1 slot.2 < 2 ^ 128

theorem exactSelection_iff {capacity : Nat} (hcapacity : 1 ≤ capacity) (extras : List Nat)
    (headroom : Nat) : ExactSelection evacName evacs capacity extras headroom ↔
      FitsU128 evacName evacs capacity extras headroom := by
  constructor
  · intro h
    obtain ⟨-, hproduct, hneed⟩ := (needU128_eq_some_iff ..).mp h.need
    exact ⟨hproduct, hneed, fun slot => ((ledgerU128_eq_some_iff ..).mp (h.ledger slot)).2⟩
  · intro h
    refine ⟨(needU128_eq_some_iff ..).mpr ⟨rfl, h.product, h.need⟩, fun slot => ?_, ?_⟩
    · exact (ledgerU128_eq_some_iff ..).mpr ⟨rfl, h.ledger slot⟩
    · exact fun pool slot => availableU128_eq (by omega)

/-- What is recorded of an evacuation are 64-bit capacities of a bounded number of volumes. -/
structure Bounded (e : Obj .evacuation) : Prop where
  capacity : ∀ st, statusOf e = some st → capacityOfEvac st < 2 ^ 64
  members : ∀ st c, statusOf e = some st → st.colocation = some c →
    c.members.length < 2 ^ 31 ∧ ∀ m ∈ c.members, m.capacityBytes < 2 ^ 64

theorem sum_le_of_few {l : List Nat} {k b : Nat} (hlen : l.length ≤ k) (h : ∀ x ∈ l, x ≤ b) :
    l.sum ≤ k * b :=
  calc l.sum ≤ l.length • b := List.sum_le_card_nsmul l b h
    _ ≤ k * b := Nat.mul_le_mul_right b hlen

theorem heldMembers_sum_le {placed : List String} {e : Obj .evacuation} {c : ColocationStatus}
    (hlen : c.members.length < 2 ^ 31) (h : ∀ m ∈ c.members, m.capacityBytes < 2 ^ 64) :
    (heldMembers evacName placed e c).sum ≤ 2 ^ 31 * 2 ^ 64 := by
  have hsub : (((c.members.filter fun m => m.pvName ≠ e.name).filter fun m =>
      m.pvName ≠ evacName ∧ ¬ placed.contains m.pvName)).Sublist c.members :=
    List.filter_sublist.trans List.filter_sublist
  refine sum_le_of_few ?_ fun x hx => ?_
  · rw [heldMembers, List.length_map]
    exact Nat.le_of_lt (Nat.lt_of_le_of_lt hsub.length_le hlen)
  · obtain ⟨m, hm, rfl⟩ := List.mem_map.mp hx
    exact Nat.le_of_lt (h m (hsub.subset hm))

theorem amountIn_le {e : Obj .evacuation} (h : Bounded e) (slot : String × String) :
    amountIn evacName evacs slot e ≤ 2 ^ 64 + 2 ^ 31 * 2 ^ 64 := by
  unfold amountIn reservation
  cases hst : statusOf e with
  | none => simp
  | some st =>
    simp only
    by_cases hskip : e.name = evacName ∨ st.phase = .failed
    · rw [if_pos hskip]
      simp
    · rw [if_neg hskip]
      cases st.target with
      | none => simp
      | some t =>
        simp only [Option.map_some]
        have hown : (if st.phase = .completed then 0 else capacityOfEvac st) ≤ 2 ^ 64 := by
          have hlt := h.capacity st hst
          split_ifs <;> omega
        have hgroup : groupAmount evacName evacs e st ≤ 2 ^ 31 * 2 ^ 64 := by
          unfold groupAmount
          cases hc : st.colocation with
          | none => simp
          | some c =>
            obtain ⟨hlen, hcaps⟩ := h.members st c hst hc
            exact heldMembers_sum_le evacName hlen hcaps
        by_cases hslot : (t.nodeId, poolComponent t.pool) = slot
        · rw [if_pos hslot]
          exact Nat.add_le_add hown hgroup
        · rw [if_neg hslot]
          exact Nat.zero_le _

/-- With fewer than 2 ^ 31 volumes and evacuations nothing overflows. -/
theorem fitsU128_of_few {capacity : Nat} {extras : List Nat} {headroom : Nat}
    (hcapacity : capacity < 2 ^ 64) (hextras : ∀ x ∈ extras, x < 2 ^ 64)
    (hlen : extras.length < 2 ^ 31) (hheadroom : headroom < 2 ^ 32)
    (hevacs : ∀ e ∈ evacs, Bounded e) (hcount : evacs.length < 2 ^ 31) :
    FitsU128 evacName evacs capacity extras headroom := by
  have hsum : extras.sum ≤ 2 ^ 31 * 2 ^ 64 :=
    sum_le_of_few (Nat.le_of_lt hlen) fun x hx => Nat.le_of_lt (hextras x hx)
  have hbytes : capacity + extras.sum < 2 ^ 96 := by omega
  have hproduct : (capacity + extras.sum) * headroom < 2 ^ 96 * 2 ^ 32 :=
    Nat.mul_lt_mul'' hbytes hheadroom
  refine ⟨by omega, by omega, fun slot => ?_⟩
  have htotal : (evacs.map (amountIn evacName evacs slot)).sum ≤
      2 ^ 31 * (2 ^ 64 + 2 ^ 31 * 2 ^ 64) := by
    refine sum_le_of_few (by simpa using Nat.le_of_lt hcount) fun x hx => ?_
    obtain ⟨e, he, rfl⟩ := List.mem_map.mp hx
    exact amountIn_le evacName evacs (hevacs e he) slot
  rw [sum_amountIn] at htotal
  omega

end Selection

/-! ## What is recorded -/

/-- A status that is written gives the evacuation up, or the bytes it records are right for the
volume that was read. -/
def RecordsCapacity (cfg : Config) (right : VolumeInfo → Nat → Prop) (tr : Trace) (call : Call) :
    Prop :=
  ∀ key st', call = .patch .evacuation key (.status st') → st'.phase = .failed ∨
    ∃ source m zv, st'.source = some source ∧
      sawEvent .zfsVolume ⟨cfg.openebsNs, source.volumeHandle⟩ (some ⟨m, zv⟩) ∈ tr ∧
      right (zv : ZFSVolume).spec source.capacityBytes

/-- Of a volume with this capacity, `pending` records these bytes or gives up. -/
def PendingKeeps (text : String) (c : Nat) : Prop :=
  ∀ cfg evac st, Follows (RecordsCapacity cfg fun info n => info.capacity = some text → n = c)
    (fun _ _ => True) [] (pending cfg evac st)

/-- Of a volume with this capacity, `resolve` records these bytes. -/
def ResolveKeeps (text : String) (c : Nat) : Prop :=
  ∀ w cfg pvName r sourceNodeId pods g,
    exec (World.serve w) (resolve cfg pvName r sourceNodeId pods) () = (.ok (some g), ()) →
    ∀ m ∈ g.members, ∀ info, volumeOf w cfg m.pvName = some info → info.capacity = some text →
      m.capacityBytes = c

section Recorded
variable {cfg : Config} {right : VolumeInfo → Nat → Prop} {tr : Trace} {text : String} {c : Nat}

theorem volumeCapacity_eq_mod {info : VolumeInfo} (h : parseQuantityOrBytes text = some c)
    (hinfo : info.capacity = some text) : volumeCapacity info = c % 2 ^ 64 := by
  rw [volumeCapacity, hinfo, Option.bind_some, h, Option.getD_some]

theorem recordsCapacity_reads : ReadsAllowed (RecordsCapacity cfg right) where
  get _ _ _ _ _ h := by cases h
  list _ _ _ _ _ h := by cases h

theorem recordsCapacity_failed {key : Key} {st : ZFSEvacuationStatus} (h : st.phase = .failed) :
    RecordsCapacity cfg right tr (.patch .evacuation key (.status st)) := by
  intro key' st' heq
  cases heq
  exact .inl h

theorem pending_records (evac : Obj .evacuation) (st : ZFSEvacuationStatus) :
    Follows (RecordsCapacity cfg fun info n => n = volumeCapacity info) (fun _ _ => True) []
      (pending cfg evac st) := by
  have hfail : ∀ {tr msg}, Follows (RecordsCapacity cfg fun info n => n = volumeCapacity info)
      (fun _ _ => True) tr (fail evac.name st msg) :=
    follows_fail (recordsCapacity_failed rfl)
  have hr : ReadsAllowed (RecordsCapacity cfg fun info n => n = volumeCapacity info) :=
    recordsCapacity_reads
  simp only [pending, bind_eq, follows_bind, follows_getOpt]
  refine ⟨hr.get _ _ _, fun pv => ?_⟩
  cases pv with
  | none => exact hfail
  | some pv =>
    simp only
    cases evacuableHandle ((pvSpec pv).getD {}) with
    | error msg => exact hfail
    | ok handle =>
      cases boundClaim ((pvSpec pv).getD {}) with
      | error msg => exact hfail
      | ok claim =>
        simp only [follows_bind, follows_getOpt]
        refine ⟨hr.get _ _ _, fun pvc => ?_⟩
        cases pvc with
        | none => exact hfail
        | some pvc =>
          simp only
          split_ifs
          · exact hfail
          · exact hfail
          simp only [follows_bind, follows_getOpt]
          refine ⟨hr.get _ _ _, fun zv => ?_⟩
          cases zv with
          | none => exact hfail
          | some zv =>
            simp only
            cases volumeRefusal zv with
            | some msg => exact hfail
            | none =>
              simp only [follows_bind, follows_listObjs]
              refine ⟨hr.list _ _ _, fun snaps => ?_⟩
              by_cases hsnaps : (!snaps.isEmpty) = true
              · rw [if_pos hsnaps]
                exact hfail
              rw [if_neg hsnaps]
              simp only [follows_bind]
              refine follows_nodeById hr fun tr' srcNode hext => ?_
              cases srcNode with
              | none => exact hfail
              | some srcNode =>
                simp only
                split_ifs
                · exact hfail
                refine follows_advance fun key st' heq => .inr ?_
                cases heq
                exact ⟨_, zv.metadata, zv.data, rfl, hext.mono (by simp), rfl⟩

theorem pendingKeeps_of_lt (h : parseQuantityOrBytes text = some c) (hc : c < 2 ^ 64) :
    PendingKeeps text c := by
  intro cfg evac st
  refine follows_weaken (pending_records evac st) fun tr call hcall key st' heq => ?_
  rcases hcall key st' heq with hfailed | ⟨source, m, zv, hsource, hsaw, hbytes⟩
  · exact .inl hfailed
  · refine .inr ⟨source, m, zv, hsource, hsaw, fun hcapacity => ?_⟩
    rw [hbytes, volumeCapacity_eq_mod h hcapacity, Nat.mod_eq_of_lt hc]

theorem member_capacity {w : World} {ns pvName sourceNodeId : String} {pod : Obj .pod}
    {m : ColocationMember} (h : m ∈ membersOf (contributionsOf w cfg ns pvName sourceNodeId pod)) :
    ∃ info, volumeOf w cfg m.pvName = some info ∧ m.capacityBytes = volumeCapacity info := by
  obtain ⟨c, hc, hmember⟩ := List.mem_filterMap.mp h
  obtain ⟨claim, -, hclaim⟩ := List.mem_filterMap.mp hc
  obtain ⟨pv, -, hpv⟩ := Option.bind_eq_some_iff.mp hclaim
  obtain ⟨info, hinfo, rfl⟩ := Option.map_eq_some_iff.mp hpv
  have hcase : contributionAt w pvName sourceNodeId pv info = .member ⟨pv, volumeCapacity info⟩ ∨
      ∃ a, contributionAt w pvName sourceNodeId pv info = .anchor a := by
    unfold contributionAt
    split_ifs
    · exact .inl rfl
    · rcases contributionOf_cases w sourceNodeId pv info with ⟨-, a, ha, -⟩ | ⟨-, hm⟩
      · exact .inr ⟨a, ha⟩
      · exact .inl hm
  rcases hcase with heq | ⟨a, heq⟩
  · rw [heq] at hmember
    obtain rfl := Option.some.inj hmember
    exact ⟨info, hinfo, rfl⟩
  · rw [heq] at hmember
    cases hmember

theorem resolveKeeps_of_lt (h : parseQuantityOrBytes text = some c) (hc : c < 2 ^ 64) :
    ResolveKeeps text c := by
  intro w cfg pvName r sourceNodeId pods g hg m hm info hinfo hcapacity
  cases hpod : (unscheduledPods pods).head? with
  | none =>
    unfold resolve at hg
    rw [hpod] at hg
    cases hg
  | some pod =>
    rw [exec_resolve w cfg pvName sourceNodeId hpod] at hg
    obtain rfl := Option.some.inj (Except.ok.inj (congrArg Prod.fst hg))
    obtain ⟨info', hinfo', hbytes⟩ := member_capacity hm
    obtain rfl := Option.some.inj (hinfo.symm.trans hinfo')
    rw [hbytes, volumeCapacity_eq_mod h hcapacity, Nat.mod_eq_of_lt hc]

def sizedInfo (text : String) : VolumeInfo where
  ownerNodeId := "node-a"
  poolName := "tank"
  capacity := some text

/-- One claim with a volume of this capacity. -/
def sizedCluster (text : String) : World :=
  (((({} : World).store (pvcBoundTo "data" "pv-data")).store (zfsPv "pv-data")).store
    (⟨{ ns := "openebs", name := "pv-data" }, ({ spec := sizedInfo text } : ZFSVolume)⟩ :
      Obj .zfsVolume))

theorem volumeOf_sizedCluster (text : String) :
    volumeOf (sizedCluster text) {} "pv-data" = some (sizedInfo text) := rfl

theorem contributions_sizedCluster (text : String) :
    contributionsOf (sizedCluster text) {} "db" "pv-data" "node-a" (dbConsumer ["data"]) =
      [.member ⟨"pv-data", volumeCapacity (sizedInfo text)⟩] := by
  have hbound : boundPv (sizedCluster text) "db" "data" = some "pv-data" := rfl
  have hclaim : contribution (sizedCluster text) {} "db" "pv-data" "node-a" "data" =
      some (.member ⟨"pv-data", volumeCapacity (sizedInfo text)⟩) := by
    rw [contribution, hbound, Option.bind_some, volumeOf_sizedCluster, Option.map_some,
      contributionAt, if_pos rfl]
  have hnames : podPvcNames (dbConsumer ["data"]) = ["data"] := rfl
  rw [contributionsOf, hnames, List.filterMap_cons, hclaim]
  rfl

theorem lt_of_resolveKeeps (h : parseQuantityOrBytes text = some c) (hkeeps : ResolveKeeps text c) :
    c < 2 ^ 64 := by
  have hg : exec (sizedCluster text).serve (resolve {} "pv-data" dataClaim "node-a"
      [dbConsumer ["data"]]) () = (.ok (some (groupOf "db" (dbConsumer ["data"])
        (contributionsOf (sizedCluster text) {} "db" "pv-data" "node-a" (dbConsumer ["data"])))),
          ()) := exec_resolve _ _ _ _ rfl
  rw [contributions_sizedCluster] at hg
  have hkept : volumeCapacity (sizedInfo text) = c :=
    hkeeps _ _ _ _ _ _ _ hg ⟨"pv-data", volumeCapacity (sizedInfo text)⟩
      List.mem_cons_self (sizedInfo text) (volumeOf_sizedCluster text) rfl
  rw [volumeCapacity_eq_mod h rfl] at hkept
  have hlt := Nat.mod_lt c (show 2 ^ 64 > 0 by omega)
  omega

theorem keeps_iff (h : parseQuantityOrBytes text = some c) :
    PendingKeeps text c ∧ ResolveKeeps text c ↔ c < 2 ^ 64 :=
  ⟨fun hkeeps => lt_of_resolveKeeps h hkeeps.2,
    fun hc => ⟨pendingKeeps_of_lt h hc, resolveKeeps_of_lt h hc⟩⟩

end Recorded

/-! ## Capacities are exact -/

/-- The capacities of the group's other members. -/
def extrasOf (name : String) (group : Option Group) : List Nat :=
  match group with
  | none => []
  | some g => (g.members.filter fun m => m.pvName ≠ name).map (·.capacityBytes)

theorem capacities_exact_iff {text : String} {c : Nat} (h : parseQuantityOrBytes text = some c)
    (name : String) (spec : ZFSEvacuationSpec) (source : SourceInfo) (group : Option Group)
    (evacs : List (Obj .evacuation)) (hcapacity : 1 ≤ source.capacityBytes) :
    (PendingKeeps text c ∧ ResolveKeeps text c) ∧
        ExactSelection name evacs source.capacityBytes (extrasOf name group)
          (spec.headroomPercent.getD defaultHeadroomPercent) ↔
      c < 2 ^ 64 ∧ FitsU128 name evacs source.capacityBytes (extrasOf name group)
        (spec.headroomPercent.getD defaultHeadroomPercent) :=
  and_congr (keeps_iff h) (exactSelection_iff name evacs hcapacity _ _)

/-- The leader of a group of three, which holds its own space and that of the other two. -/
def trioLeader : Obj .evacuation :=
  ⟨{ name := "pv-2" }, ({ spec := { pvName := "pv-2" }
                          status := some
                            { phase := .transferring
                              source := some ⟨"node-a", "node-a", "tank", "pv-2", 2, 7⟩
                              target := some ⟨"node-b", "node-b", "tank", "zevac-1"⟩
                              colocation := some
                                { pod := "db/p"
                                  members := [⟨"pv-1", 10⟩, ⟨"pv-2", 7⟩, ⟨"pv-3", 5⟩] } } } :
    ZFSEvacuation)⟩

theorem bounded_trioLeader : Bounded trioLeader := by
  constructor
  · rintro st ⟨rfl⟩
    decide
  · rintro st c ⟨rfl⟩ ⟨rfl⟩
    decide

/-- The other two, one of which chooses its target now. -/
def trioGroup : Group where
  pod := "db/p"
  placement := ⟨[], [], []⟩
  members := [⟨"pv-1", 10⟩, ⟨"pv-3", 5⟩]
  anchor := some ⟨"node-b", "pv-2", "status.target"⟩

theorem capacities_exact_ten_bytes : (PendingKeeps "10" 10 ∧ ResolveKeeps "10" 10) ∧
    ExactSelection "pv-1" [trioLeader] 10 [5] 10 := by
  have hfits : FitsU128 "pv-1" [trioLeader] 10 [5] 10 :=
    fitsU128_of_few "pv-1" [trioLeader] (by omega) (by simp) (by simp) (by omega)
      (by simp [bounded_trioLeader]) (by simp)
  exact (capacities_exact_iff (show parseQuantityOrBytes "10" = some 10 by decide +kernel) "pv-1"
    { pvName := "pv-1" } ⟨"node-a", "node-a", "tank", "pv-1", 1, 10⟩ (some trioGroup) [trioLeader]
    (by simp)).mpr ⟨by omega, hfits⟩

/-- Of seventeen exbibytes one is recorded. -/
theorem seventeen_exbibytes_recorded_as_one :
    parseQuantityOrBytes "17Ei" = some (17 * 2 ^ 60) ∧
      volumeCapacity (sizedInfo "17Ei") = 2 ^ 60 ∧ ¬ ResolveKeeps "17Ei" (17 * 2 ^ 60) := by
  have hparse : parseQuantityOrBytes "17Ei" = some (17 * 2 ^ 60) := by decide +kernel
  refine ⟨hparse, ?_, fun hkeeps => ?_⟩
  · rw [volumeCapacity_eq_mod hparse rfl]
    omega
  · have hlt := lt_of_resolveKeeps hparse hkeeps
    omega

end ZfsEvacuation
