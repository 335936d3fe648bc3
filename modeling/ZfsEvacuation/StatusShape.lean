import ZfsEvacuation.CommitRecord
import ZfsEvacuation.AttachLockHolding
import Mathlib.Logic.Relation

/-!
# The shape of a status

Which fields a status has on record in which phase, what a single write may do to them, and
what the record of a later status keeps of an earlier one.
-/
namespace ZfsEvacuation
open ClientProgram Program GuardedRun

/-- The place of a phase on the way forward. -/
def Phase.rank : Phase → Option Nat
  | .pending => some 0
  | .guarding => some 1
  | .retaining => some 2
  | .locking => some 3
  | .quiescing => some 4
  | .targetSelecting => some 5
  | .transferring => some 6
  | .adopting => some 7
  | .committing => some 8
  | .swapping => some 9
  | .cleaningUp => some 10
  | .completed => some 11
  | .aborting | .failed => none

/-- The phase `q` is on the way forward, at `p` or behind it. -/
def Phase.reached (p q : Phase) : Bool :=
  match p.rank, q.rank with
  | some i, some j => i ≤ j
  | _, _ => false

/-- The moves of the phase: one place forward, or off the way before the commit. -/
inductive Phase.Next : Phase → Phase → Prop
  | forward (p q : Phase) (i : Nat) (hp : p.rank = some i) (hq : q.rank = some (i + 1)) : Next p q
  | aborting (p : Phase) (hp : Phase.reached .pending p = true) (hc : p.committed = false) :
      Next p .aborting
  | failed (p : Phase) (hp : Phase.reached .pending p = true) (hc : p.committed = false) :
      Next p .failed
  | gaveUp : Next .aborting .failed

theorem phase_of_completed {p : Phase} (h : Relation.ReflTransGen Phase.Next .completed p) :
    p = .completed := by
  induction h with
  | refl => rfl
  | @tail _ q _ hnext ih =>
    subst ih
    cases hnext with
    | forward _ _ i hp hq =>
      obtain rfl := Option.some.inj hp
      cases q <;> cases hq
    | aborting _ _ hc => cases hc
    | failed _ _ hc => cases hc

/-- What a status has on record, by its phase. -/
structure Shape (st : ZFSEvacuationStatus) : Prop where
  committed : CommitConsistent st
  source : Phase.reached .guarding st.phase = true →
    ∃ source, st.source = some source ∧ 0 < source.capacityBytes
  pvcRef : Phase.reached .guarding st.phase = true → st.pvcRef.isSome = true
  lockedAt : Phase.reached .quiescing st.phase = true → st.lockedAt.isSome = true
  target : Phase.reached .transferring st.phase = true →
    ∃ target, st.target = some target ∧ target.newVolumeHandle ≠ ""
  transfer : Phase.reached .adopting st.phase = true → st.transfer.isSome = true
  manifests : Phase.reached .swapping st.phase = true →
    st.oldPvManifest.isSome = true ∧ st.newPvManifest.isSome = true

/-- What has been recorded stays, and the phase has only moved forward or off the way. -/
structure Later (st st' : ZFSEvacuationStatus) : Prop where
  phase : Relation.ReflTransGen Phase.Next st.phase st'.phase
  source : ∀ x, st.source = some x → st'.source = some x
  pvcRef : ∀ x, st.pvcRef = some x → st'.pvcRef = some x
  policy : ∀ x, st.originalReclaimPolicy = some x → st'.originalReclaimPolicy = some x
  target : ∀ x, st.target = some x → st'.target = some x
  oldManifest : ∀ x, st.oldPvManifest = some x → st'.oldPvManifest = some x
  newManifest : ∀ x, st.newPvManifest = some x → st'.newPvManifest = some x

theorem Later.refl (st : ZFSEvacuationStatus) : Later st st :=
  ⟨.refl, fun _ h => h, fun _ h => h, fun _ h => h, fun _ h => h, fun _ h => h, fun _ h => h⟩

theorem Later.trans {st st' st'' : ZFSEvacuationStatus} (h : Later st st') (h' : Later st' st'') :
    Later st st'' where
  phase := h.phase.trans h'.phase
  source x hx := h'.source x (h.source x hx)
  pvcRef x hx := h'.pvcRef x (h.pvcRef x hx)
  policy x hx := h'.policy x (h.policy x hx)
  target x hx := h'.target x (h.target x hx)
  oldManifest x hx := h'.oldManifest x (h.oldManifest x hx)
  newManifest x hx := h'.newManifest x (h.newManifest x hx)

/-- The shape together with what is not on record yet. -/
structure Tracked (st : ZFSEvacuationStatus) : Prop extends Shape st where
  unstarted : st.phase = .pending →
    st.source = none ∧ st.pvcRef = none ∧ st.originalReclaimPolicy = none
  unplaced : st.phase.reached .targetSelecting = true → st.target = none
  unswapped : st.committed = false → st.oldPvManifest = none ∧ st.newPvManifest = none
  placed : st.target.isSome = true → st.source.isSome = true

/-- A status without anything on record. -/
theorem tracked_default : Tracked {} where
  committed := rfl
  source h := by cases h
  pvcRef h := by cases h
  lockedAt h := by cases h
  target h := by cases h
  transfer h := by cases h
  manifests h := by cases h
  unstarted _ := ⟨rfl, rfl, rfl⟩
  unplaced _ := rfl
  unswapped _ := ⟨rfl, rfl⟩
  placed h := by cases h

/-- The group of a status is no part of the record. -/
theorem tracked_core (st : ZFSEvacuationStatus) : Tracked st.core ↔ Tracked st :=
  ⟨fun ⟨⟨hc, hs, hr, hl, ht, hx, hm⟩, hu, hn, hw, hp⟩ =>
      ⟨⟨hc, hs, hr, hl, ht, hx, hm⟩, hu, hn, hw, hp⟩,
    fun ⟨⟨hc, hs, hr, hl, ht, hx, hm⟩, hu, hn, hw, hp⟩ =>
      ⟨⟨hc, hs, hr, hl, ht, hx, hm⟩, hu, hn, hw, hp⟩⟩

theorem tracked_congr {st st' : ZFSEvacuationStatus} (h : st.core = st'.core) :
    Tracked st ↔ Tracked st' := by
  rw [← tracked_core, h, tracked_core]

theorem target_congr {st st' : ZFSEvacuationStatus} (h : st.core = st'.core) :
    st.target = st'.target := by
  have hcore := congrArg ZFSEvacuationStatus.target h
  exact hcore

theorem later_core (st st' : ZFSEvacuationStatus) : Later st.core st'.core ↔ Later st st' :=
  ⟨fun ⟨hp, hs, hr, ho, ht, hm, hn⟩ => ⟨hp, hs, hr, ho, ht, hm, hn⟩,
    fun ⟨hp, hs, hr, ho, ht, hm, hn⟩ => ⟨hp, hs, hr, ho, ht, hm, hn⟩⟩

theorem later_of_core {st st' : ZFSEvacuationStatus} (h : st.core = st'.core) : Later st st' := by
  rw [← later_core, h]
  exact Later.refl _

/-! ## What a write does to the record -/

/-- Moves that ask for nothing new on record. -/
inductive Phase.Calm : Phase → Phase → Prop
  | same (p : Phase) : Calm p p
  | retaining : Calm .guarding .retaining
  | locking : Calm .retaining .locking
  | targetSelecting : Calm .quiescing .targetSelecting
  | committing : Calm .adopting .committing
  | cleaningUp : Calm .swapping .cleaningUp
  | completed : Calm .cleaningUp .completed
  | aborting (p : Phase) (hp : Phase.reached .pending p = true) (hc : p.committed = false) :
      Calm p .aborting
  | failed (p : Phase) (hp : Phase.reached .pending p = true) (hc : p.committed = false) :
      Calm p .failed
  | gaveUp : Calm .aborting .failed

theorem Phase.Calm.moves {p q : Phase} (h : Phase.Calm p q) :
    Relation.ReflTransGen Phase.Next p q := by
  cases h with
  | same => exact .refl
  | aborting _ hp hc => exact .single (.aborting _ hp hc)
  | failed _ hp hc => exact .single (.failed _ hp hc)
  | gaveUp => exact .single .gaveUp
  | retaining => exact .single (.forward _ _ 1 rfl rfl)
  | locking => exact .single (.forward _ _ 2 rfl rfl)
  | targetSelecting => exact .single (.forward _ _ 4 rfl rfl)
  | committing => exact .single (.forward _ _ 7 rfl rfl)
  | cleaningUp => exact .single (.forward _ _ 9 rfl rfl)
  | completed => exact .single (.forward _ _ 10 rfl rfl)

theorem Phase.Calm.committed {p q : Phase} (h : Phase.Calm p q) : q.committed = p.committed := by
  cases h with
  | aborting _ _ hc => exact hc.symm
  | failed _ _ hc => exact hc.symm
  | _ => rfl

/-- The places at which something new has to be on record. -/
def milestones : List Phase := [.guarding, .quiescing, .transferring, .adopting, .swapping]

theorem Phase.Calm.reached {p q m : Phase} (h : Phase.Calm p q) (hm : m ∈ milestones)
    (hq : m.reached q = true) : m.reached p = true := by
  cases h with
  | same => exact hq
  | aborting | failed | gaveUp =>
    simp only [Phase.reached, Phase.rank] at hq
    split at hq <;> simp_all
  | retaining | locking | targetSelecting | committing | cleaningUp | completed =>
    revert hq
    revert m
    decide

theorem Phase.Calm.unplaced {p q : Phase} (h : Phase.Calm p q)
    (hq : q.reached .targetSelecting = true) : p.reached .targetSelecting = true := by
  cases h with
  | same => exact hq
  | aborting | failed | gaveUp => cases hq
  | retaining | locking | targetSelecting => rfl
  | committing | cleaningUp | completed => cases hq

theorem Phase.Calm.pending {p : Phase} (h : Phase.Calm p .pending) : p = .pending := by
  cases h with
  | same => rfl

/-- A write that leaves the record alone. -/
structure Kept (st w : ZFSEvacuationStatus) : Prop where
  calm : Phase.Calm st.phase w.phase
  committed : w.committed = st.committed
  source : w.source = st.source
  pvcRef : w.pvcRef = st.pvcRef
  policy : w.originalReclaimPolicy = st.originalReclaimPolicy
  target : w.target = st.target
  oldManifest : w.oldPvManifest = st.oldPvManifest
  newManifest : w.newPvManifest = st.newPvManifest
  lockedAt : w.lockedAt = st.lockedAt
  transfer : st.transfer.isSome = true → w.transfer.isSome = true

theorem Kept.later {st w : ZFSEvacuationStatus} (h : Kept st w) : Later st w where
  phase := h.calm.moves
  source _ hx := h.source.trans hx
  pvcRef _ hx := h.pvcRef.trans hx
  policy _ hx := h.policy.trans hx
  target _ hx := h.target.trans hx
  oldManifest _ hx := h.oldManifest.trans hx
  newManifest _ hx := h.newManifest.trans hx

theorem Kept.tracked {st w : ZFSEvacuationStatus} (h : Kept st w) (hst : Tracked st) :
    Tracked w where
  committed := by rw [CommitConsistent, h.committed, h.calm.committed, hst.committed]
  source hp := by
    rw [h.source]
    exact hst.source (h.calm.reached (by decide) hp)
  pvcRef hp := by
    rw [h.pvcRef]
    exact hst.pvcRef (h.calm.reached (by decide) hp)
  lockedAt hp := by
    rw [h.lockedAt]
    exact hst.lockedAt (h.calm.reached (by decide) hp)
  target hp := by
    rw [h.target]
    exact hst.target (h.calm.reached (by decide) hp)
  transfer hp := h.transfer (hst.transfer (h.calm.reached (by decide) hp))
  manifests hp := by
    rw [h.oldManifest, h.newManifest]
    exact hst.manifests (h.calm.reached (by decide) hp)
  unstarted hp := by
    rw [h.source, h.pvcRef, h.policy]
    exact hst.unstarted (Phase.Calm.pending (hp ▸ h.calm))
  unplaced hp := by
    rw [h.target]
    exact hst.unplaced (h.calm.unplaced hp)
  unswapped hc := by
    rw [h.oldManifest, h.newManifest]
    exact hst.unswapped (h.committed.symm.trans hc)
  placed ht := by
    rw [h.source]
    exact hst.placed (by rwa [← h.target])

/-- A write leaves the record alone, or is one of the five that add to it. -/
inductive Recording (st : ZFSEvacuationStatus) : ZFSEvacuationStatus → Prop
  | kept (w : ZFSEvacuationStatus) (h : Kept st w) : Recording st w
  | accepted (r : PvcRef) (source : SourceInfo) (policy : Option String)
      (h : st.phase = .pending) (capacity : 0 < source.capacityBytes) :
      Recording st { st with
        pvcRef := some r
        source := some source
        originalReclaimPolicy := policy
        phase := .guarding
        message := none }
  | locked (lockedAt : Nat) (h : st.phase = .locking) :
      Recording st { st with lockedAt := some lockedAt, phase := .quiescing, message := none }
  | selected (c : Option ColocationStatus) (target : TargetInfo) (h : st.phase = .targetSelecting)
      (handle : target.newVolumeHandle ≠ "") :
      Recording st { st with
        colocation := c, target := some target, phase := .transferring, message := none }
  | copied (t : TransferStatus) (h : st.phase = .transferring) :
      Recording st { st with transfer := some t, phase := .adopting, message := none }
  | committed (old new : ObjectMeta × PersistentVolume) (h : st.phase = .committing) :
      Recording st { st with
        oldPvManifest := some old
        newPvManifest := some new
        committed := true
        phase := .swapping
        message := none }

namespace Recording
variable {st w : ZFSEvacuationStatus}

theorem later (h : Recording st w) (hst : Tracked st) : Later st w := by
  cases h with
  | kept _ h => exact h.later
  | accepted r source policy hp _ =>
    obtain ⟨hs, hr, ho⟩ := hst.unstarted hp
    have hnext : Phase.Next st.phase .guarding := hp ▸ .forward _ _ 0 rfl rfl
    refine ⟨.single hnext, ?_, ?_, ?_, fun _ h => h, fun _ h => h, fun _ h => h⟩
    · intro x hx
      rw [hs] at hx
      cases hx
    · intro x hx
      rw [hr] at hx
      cases hx
    · intro x hx
      rw [ho] at hx
      cases hx
  | locked lockedAt hp =>
    have hnext : Phase.Next st.phase .quiescing := hp ▸ .forward _ _ 3 rfl rfl
    exact ⟨.single hnext, fun _ h => h, fun _ h => h, fun _ h => h, fun _ h => h, fun _ h => h,
      fun _ h => h⟩
  | selected c target hp _ =>
    have hnone : st.target = none := hst.unplaced (by rw [hp]; rfl)
    have hnext : Phase.Next st.phase .transferring := hp ▸ .forward _ _ 5 rfl rfl
    refine ⟨.single hnext, fun _ h => h, fun _ h => h, fun _ h => h, ?_, fun _ h => h,
      fun _ h => h⟩
    intro x hx
    rw [hnone] at hx
    cases hx
  | copied t hp =>
    have hnext : Phase.Next st.phase .adopting := hp ▸ .forward _ _ 6 rfl rfl
    exact ⟨.single hnext, fun _ h => h, fun _ h => h, fun _ h => h, fun _ h => h, fun _ h => h,
      fun _ h => h⟩
  | committed old new hp =>
    have hfalse : st.committed = false := by
      rw [hst.committed, hp]
      rfl
    obtain ⟨hold, hnew⟩ := hst.unswapped hfalse
    have hnext : Phase.Next st.phase .swapping := hp ▸ .forward _ _ 8 rfl rfl
    refine ⟨.single hnext, fun _ h => h, fun _ h => h, fun _ h => h, fun _ h => h, ?_, ?_⟩
    · intro x hx
      rw [hold] at hx
      cases hx
    · intro x hx
      rw [hnew] at hx
      cases hx

theorem tracked (h : Recording st w) (hst : Tracked st) : Tracked w := by
  cases h with
  | kept _ h => exact h.tracked hst
  | accepted r source policy hp hcapacity =>
    have htarget : st.target = none := hst.unplaced (by rw [hp]; rfl)
    have hfalse : st.committed = false := hst.committed.trans (by rw [hp]; rfl)
    exact
      { committed := hfalse
        source := fun _ => ⟨source, rfl, hcapacity⟩
        pvcRef := fun _ => rfl
        lockedAt := fun h => by cases h
        target := fun h => by cases h
        transfer := fun h => by cases h
        manifests := fun h => by cases h
        unstarted := fun h => by cases h
        unplaced := fun _ => htarget
        unswapped := fun _ => hst.unswapped hfalse
        placed := fun _ => rfl }
  | locked lockedAt hp =>
    exact
      { committed := hst.committed.trans (by rw [hp]; rfl)
        source := fun _ => hst.source (by rw [hp]; rfl)
        pvcRef := fun _ => hst.pvcRef (by rw [hp]; rfl)
        lockedAt := fun _ => rfl
        target := fun h => by cases h
        transfer := fun h => by cases h
        manifests := fun h => by cases h
        unstarted := fun h => by cases h
        unplaced := fun _ => hst.unplaced (by rw [hp]; rfl)
        unswapped := hst.unswapped
        placed := hst.placed }
  | selected c target hp hhandle =>
    obtain ⟨source, hs, -⟩ := hst.source (by rw [hp]; rfl)
    exact
      { committed := hst.committed.trans (by rw [hp]; rfl)
        source := fun _ => hst.source (by rw [hp]; rfl)
        pvcRef := fun _ => hst.pvcRef (by rw [hp]; rfl)
        lockedAt := fun _ => hst.lockedAt (by rw [hp]; rfl)
        target := fun _ => ⟨target, rfl, hhandle⟩
        transfer := fun h => by cases h
        manifests := fun h => by cases h
        unstarted := fun h => by cases h
        unplaced := fun h => by cases h
        unswapped := hst.unswapped
        placed := fun _ => Option.isSome_of_eq_some hs }
  | copied t hp =>
    exact
      { committed := hst.committed.trans (by rw [hp]; rfl)
        source := fun _ => hst.source (by rw [hp]; rfl)
        pvcRef := fun _ => hst.pvcRef (by rw [hp]; rfl)
        lockedAt := fun _ => hst.lockedAt (by rw [hp]; rfl)
        target := fun _ => hst.target (by rw [hp]; rfl)
        transfer := fun _ => rfl
        manifests := fun h => by cases h
        unstarted := fun h => by cases h
        unplaced := fun h => by cases h
        unswapped := hst.unswapped
        placed := hst.placed }
  | committed old new hp =>
    exact
      { committed := rfl
        source := fun _ => hst.source (by rw [hp]; rfl)
        pvcRef := fun _ => hst.pvcRef (by rw [hp]; rfl)
        lockedAt := fun _ => hst.lockedAt (by rw [hp]; rfl)
        target := fun _ => hst.target (by rw [hp]; rfl)
        transfer := fun _ => hst.transfer (by rw [hp]; rfl)
        manifests := fun _ => ⟨rfl, rfl⟩
        unstarted := fun h => by cases h
        unplaced := fun h => by cases h
        unswapped := fun h => by cases h
        placed := hst.placed }

end Recording

theorem newDestinationHandle_ne (r : Nat) : newDestinationHandle r ≠ "" := by
  intro h
  have hlen := congrArg String.length h
  rw [newDestinationHandle, String.length_append] at hlen
  have hprefix : "zevac-".length = 6 := by decide
  have hempty : "".length = 0 := by decide
  omega

section Writes
variable {cfg : Config} {view : Obj .evacuation} {tr : Trace} {st w : ZFSEvacuationStatus}

/-- An uncommitted status that is on the way forward may leave it. -/
theorem reached_pending {p : Phase} (ha : p ≠ .aborting) (hf : p ≠ .failed) :
    Phase.reached .pending p = true := by
  cases p <;> first | rfl | exact absurd rfl ha | exact absurd rfl hf

theorem calm_aborting {p : Phase} (hc : p.committed = false) (hf : p ≠ .failed) :
    Phase.Calm p .aborting := by
  by_cases ha : p = .aborting
  · subst ha
    exact .same _
  · exact .aborting p (reached_pending ha hf) hc

/-- Every write of the contract is one of the recordings. -/
theorem Writes.recording (h : Writes cfg view tr st w) (hk : Knows view tr st)
    (hst : CommitConsistent st) : Recording st w := by
  have hcommitted {p : Phase} (hp : st.phase = p) : st.committed = p.committed := hp ▸ hst
  cases h with
  | shown msg hcompleted hfailed =>
    exact .kept _ ⟨.same _, rfl, rfl, rfl, rfl, rfl, rfl, rfl, rfl, id⟩
  | cancelled reason hc hp _ hcompleted hfailed =>
    have hfalse : st.phase.committed = false := hst.symm.trans hc
    exact .kept _ ⟨calm_aborting hfalse hfailed, rfl, rfl, rfl, rfl, rfl, rfl, rfl, rfl, id⟩
  | abortStarts msg hv hwrote _ =>
    obtain rfl : viewStatus view = st := by
      have heq := hk.eq
      rwa [hwrote] at heq
    have hfailed : (viewStatus view).phase ≠ .failed := by
      intro hp
      simp [entersAbort, hp] at hv
    have hfalse : (viewStatus view).phase.committed = false := by
      rw [← hst, ← Bool.not_eq_true]
      intro hc
      rw [not_entersAbort hst hc] at hv
      cases hv
    exact .kept _ ⟨calm_aborting hfalse hfailed, rfl, rfl, rfl, rfl, rfl, rfl, rfl, rfl, id⟩
  | unwound msg hp _ _ _ =>
    exact .kept _ ⟨hp ▸ .gaveUp, rfl, rfl, rfl, rfl, rfl, rfl, rfl, rfl, id⟩
  | refused msg hp | pvLost msg hp _ _ _ | pvReplaced msg _ _ _ _ _ hp _ _ _ _ =>
    exact .kept _ ⟨hp ▸ .failed _ rfl rfl, rfl, rfl, rfl, rfl, rfl, rfl, rfl, rfl, id⟩
  | accepted r source pv hp _ _ _ hcapacity => exact .accepted r source _ hp hcapacity
  | guarded hp => exact .kept _ ⟨hp ▸ .retaining, rfl, rfl, rfl, rfl, rfl, rfl, rfl, rfl, id⟩
  | retained hp => exact .kept _ ⟨hp ▸ .locking, rfl, rfl, rfl, rfl, rfl, rfl, rfl, rfl, id⟩
  | locked r lockedAt hp _ _ _ => exact .locked lockedAt hp
  | blocked msg hp | settles at_ hp =>
    exact .kept _ ⟨.same _, rfl, rfl, rfl, rfl, rfl, rfl, rfl, rfl, id⟩
  | quiesced _ _ hp _ _ _ _ _ =>
    exact .kept _ ⟨hp ▸ .targetSelecting, rfl, rfl, rfl, rfl, rfl, rfl, rfl, rfl, id⟩
  | selected source r group t rand hp _ _ _ =>
    exact .selected _ _ hp (newDestinationHandle_ne rand)
  | attempted _ _ _ _ _ hp _ _ _ _ | progressed _ _ hp _ =>
    exact .kept _ ⟨.same _, rfl, rfl, rfl, rfl, rfl, rfl, rfl, rfl, fun _ => rfl⟩
  | attemptFailing _ _ hp | snapDeleteIssued hp =>
    exact .kept _ ⟨.same _, rfl, rfl, rfl, rfl, rfl, rfl, rfl, rfl, by simp⟩
  | exhausted _ _ hp =>
    exact .kept _ ⟨hp ▸ .aborting _ rfl rfl, rfl, rfl, rfl, rfl, rfl, rfl, rfl, rfl, by simp⟩
  | copied t _ _ _ hp _ _ _ _ _ _ => exact .copied _ hp
  | adopted hp => exact .kept _ ⟨hp ▸ .committing, rfl, rfl, rfl, rfl, rfl, rfl, rfl, rfl, id⟩
  | gaveUp msg hp =>
    rcases hp with hp | hp <;>
      exact .kept _ ⟨hp ▸ .aborting _ rfl rfl, rfl, rfl, rfl, rfl, rfl, rfl, rfl, rfl, id⟩
  | committed _ _ _ oldPv newPv hp _ _ _ _ _ _ _ _ _ _ => exact .committed _ _ hp
  | swapped _ _ _ hp _ _ _ _ _ _ =>
    exact .kept _ ⟨hp ▸ .cleaningUp, rfl, rfl, rfl, rfl, rfl, rfl, rfl, rfl, id⟩
  | completed hp _ =>
    exact .kept _ ⟨hp ▸ .completed, rfl, rfl, rfl, rfl, rfl, rfl, rfl, rfl, id⟩

end Writes

/-! ## Along a run -/

namespace System
variable {cfg : Config} {s s' : System} {a : SysAction} {n : String}

/-- Only the controller writes statuses, and reconciles start from what is stored. -/
def StatusCurrent (s : System) (a : SysAction) : Prop := KeepsStatuses s a ∧ UpToDate s a

instance : Decidable (KeepsStatuses s a) := by
  unfold KeepsStatuses
  rcases a with (⟨⟨⟩, _⟩ | ⟨⟨⟩, _⟩ | _) | _ <;> dsimp only <;> infer_instance

instance : Decidable (UpToDate s a) := by
  unfold UpToDate
  rcases a with ⟨⟨⟩, _⟩ | _ <;> dsimp only <;> infer_instance

instance : Decidable (StatusCurrent s a) := inferInstanceAs (Decidable (_ ∧ _))

/-- A write of the status by the reconcile of an evacuation, with what a part of the status is
before and after it. -/
structure StatusWrite {β : Type} (cfg : Config) (part : ZFSEvacuationStatus → β) (s : System)
    (a : SysAction) (n : String) (e e' : Obj .evacuation) (st w : ZFSEvacuationStatus) : Prop where
  caller : ∃ r o, ∃ next : Except ApiError Unit → M Action, a = .call n o ∧
    s.running.get n = some r ∧
    r.prog = .call (.patch .evacuation (evacKey r.view) (.status w)) next ∧
    Knows r.view r.trace st ∧ Writes cfg r.view r.trace st w
  old : part (viewStatus e) = part st
  new : part (viewStatus e') = part w

/-- Where a stored status comes from: it is stored already, a reconcile has written it, or the
evacuation is new. -/
theorem status_after {β : Type} {part : ZFSEvacuationStatus → β}
    (hpart : ∀ old w, part (mergeStatus old w) = part w) (hc : Contracted cfg s)
    (hx : AllAwareOf part s) (hg : StatusCurrent s a) (h : step cfg s a = some s')
    {e' : Obj .evacuation} (he' : s'.world.get .evacuation ⟨"", n⟩ = some e') :
    (∃ e, s.world.get .evacuation ⟨"", n⟩ = some e ∧ e'.metadata.uid = e.metadata.uid ∧
      (viewStatus e' = viewStatus e ∨ ∃ st w, StatusWrite cfg part s a n e e' st w)) ∨
      s.world.get .evacuation ⟨"", n⟩ = none ∧ viewStatus e' = {} ∧
        e'.metadata.uid = s.world.revision ∧ s.world.revision < s'.world.revision := by
  rcases evac_edit hc h he' with ⟨e, he, rfl | hedit⟩ | ⟨hnone, o, rfl, rfl, hname⟩
  · exact .inl ⟨e', he, rfl, .inl rfl⟩
  · refine .inl ⟨e, he, ?_⟩
    cases hedit with
    | updated o hkey hcur => exact ⟨rfl, .inl (viewStatus_congr (hg.1 e hcur))⟩
    | marked key => exact ⟨rfl, .inl rfl⟩
    | wrote r o st w next running prog knows writes =>
      exact ⟨rfl, .inr ⟨st, w, ⟨r, o, next, rfl, running, prog, knows, writes⟩,
        hx n r e running he st knows, hpart _ _⟩⟩
    | signed r o fs next running prog allowed => exact ⟨rfl, .inl rfl⟩
  · have hfresh : statusOf ((o.born s.world.revision).stamped s.world.revision) = none := hg.1
    refine .inr ⟨hnone, by rw [viewStatus, hfresh]; rfl, rfl, ?_⟩
    rcases (world_succeeds h).fresh _ _ _ he' with hold | ⟨-, hlt⟩
    · rw [hnone] at hold
      cases hold
    · exact hlt

/-- What every state of a run with current views keeps. -/
structure StatusSound (cfg : Config) (s : System) : Prop where
  contracted : Contracted cfg s
  aware : AllAware s
  tracked : ∀ n e, s.world.get .evacuation ⟨"", n⟩ = some e → Tracked (viewStatus e)
  older : ∀ n e, s.world.get .evacuation ⟨"", n⟩ = some e → e.metadata.uid < s.world.revision

theorem statusSound_init : StatusSound cfg init := by
  constructor
  · intro n r h
    cases h
  · intro n r e h
    cases h
  · intro n e h
    cases h
  · intro n e h
    cases h

/-- How the status of one and the same evacuation goes on in a step. -/
theorem StatusSound.continues (hx : StatusSound cfg s) (hg : StatusCurrent s a)
    (h : step cfg s a = some s') {e' : Obj .evacuation}
    (he' : s'.world.get .evacuation ⟨"", n⟩ = some e') :
    (∃ e, s.world.get .evacuation ⟨"", n⟩ = some e ∧ e'.metadata.uid = e.metadata.uid ∧
      Tracked (viewStatus e') ∧ Later (viewStatus e) (viewStatus e')) ∨
      viewStatus e' = {} ∧ e'.metadata.uid = s.world.revision ∧
        s.world.revision < s'.world.revision := by
  rcases status_after core_mergeStatus hx.contracted hx.aware hg h he' with
    ⟨e, he, huid, hsame | ⟨st, w, hwrite⟩⟩ | ⟨-, hfresh, huid, hlt⟩
  · exact .inl ⟨e, he, huid, hsame ▸ hx.tracked n e he, hsame ▸ Later.refl _⟩
  · obtain ⟨r, o, next, -, -, -, hknows, hwrites⟩ := hwrite.caller
    have hst : Tracked st := (tracked_congr hwrite.old).mp (hx.tracked n e he)
    have hrecording := hwrites.recording hknows hst.committed
    refine .inl ⟨e, he, huid, (tracked_congr hwrite.new).mpr (hrecording.tracked hst), ?_⟩
    exact (later_of_core hwrite.old).trans
      ((hrecording.later hst).trans (later_of_core hwrite.new.symm))
  · exact .inr ⟨hfresh, huid, hlt⟩

theorem StatusSound.step (hx : StatusSound cfg s) (hg : StatusCurrent s a)
    (h : step cfg s a = some s') : StatusSound cfg s' where
  contracted := contracted_step hx.contracted h
  aware := allAware_step hx.contracted hx.aware hg.1 hg.2 h
  tracked n e' he' := by
    rcases hx.continues hg h he' with ⟨e, -, -, htracked, -⟩ | ⟨hfresh, -, -⟩
    · exact htracked
    · rw [hfresh]
      exact tracked_default
  older n e' he' := by
    have hle := (world_succeeds h).revision
    rcases hx.continues hg h he' with ⟨e, he, huid, -, -⟩ | ⟨-, huid, hlt⟩
    · rw [huid]
      exact Nat.lt_of_lt_of_le (hx.older n e he) hle
    · rw [huid]
      exact hlt

theorem statusSound_run {as : List SysAction} (h : Run (step cfg) StatusCurrent init as s) :
    StatusSound cfg s :=
  h.invariant statusSound_init fun _ _ _ hx hg hstep => hx.step hg hstep

/-- From any state of such a run on, the status of an evacuation only goes on. -/
theorem later_run {t : System} {bs : List SysAction} {e e' : Obj .evacuation}
    (hx : StatusSound cfg s) (h : Run (step cfg) StatusCurrent s bs t)
    (he : s.world.get .evacuation ⟨"", n⟩ = some e)
    (he' : t.world.get .evacuation ⟨"", n⟩ = some e') (huid : e'.metadata.uid = e.metadata.uid) :
    Later (viewStatus e) (viewStatus e') := by
  have hsound : ∀ {bs t}, Run (step cfg) StatusCurrent s bs t →
      StatusSound cfg t ∧ s.world.revision ≤ t.world.revision := by
    intro bs t hrun
    induction hrun with
    | start => exact ⟨hx, Nat.le_refl _⟩
    | snoc _ hg hstep ih =>
      exact ⟨ih.1.step hg hstep, Nat.le_trans ih.2 (world_succeeds hstep).revision⟩
  induction h generalizing e' with
  | start =>
    obtain rfl := Option.some.inj (he.symm.trans he')
    exact Later.refl _
  | snoc prior hg hstep ih =>
    obtain ⟨hu, hle⟩ := hsound prior
    rcases hu.continues hg hstep he' with ⟨e₁, he₁, huid₁, -, hlater⟩ | ⟨-, hnew, -⟩
    · exact (ih he₁ (huid₁.symm.trans huid)).trans hlater
    · have hlt := hx.older n e he
      rw [← huid, hnew] at hlt
      exact absurd hle (Nat.not_le_of_lt hlt)

end System

end ZfsEvacuation
