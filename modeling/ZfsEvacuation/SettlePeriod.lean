import ZfsEvacuation.EvacuationSystem

/-!
# The settle period

Quiescing reconciles of one evacuation, one after another, each starting from the stored
status and coming across its own pods, source node and clock. Times are in nanoseconds.
-/
namespace ZfsEvacuation.Settle
open ClientProgram Program GuardedRun

/-- What one reconcile comes across: its clock readings, the moment `seenAt` at which it
looks at pods and node, and what becomes of its status write. -/
structure Sight where
  lockNow : Nat
  seenAt : Nat
  now : Nat
  stamp : Nat
  pods : List (Obj .pod) := []
  node : Option (Obj .node) := none
  write : Fault := .none

/-- The stored evacuation and the number of clock readings so far. -/
structure Desk where
  evac : Obj .evacuation
  reads : Nat := 0

namespace Sight

def time (s : Sight) : Nat → Nat
  | 0 => s.lockNow
  | 1 => s.now
  | _ => s.stamp

def handle (s : Sight) : (c : Call) → Desk → c.Resp × Desk
  | .list .pod sel, d =>
    ((.ok (s.pods.filter sel.selects) : Except ApiError (List (Obj .pod))), d)
  | .get .node _, d => ((.ok s.node : Except ApiError (Option (Obj .node))), d)
  | .now, d => (s.time d.reads, { d with reads := d.reads + 1 })
  | .patch .evacuation _ p, d =>
    (Outcome.write { fault := s.write } (.ok ()),
      if s.write = .lost then d else { d with evac := p.apply d.evac })
  | c, d => (({} : World).answer {} c, d)

/-- A program run from its start to its end. -/
abbrev run {α : Type} (s : Sight) (p : M α) (d : Desk) : Except Error α × Desk :=
  exec s.handle p d

def inOrder (s : Sight) : Bool := s.lockNow ≤ s.seenAt && s.seenAt ≤ s.now && s.now ≤ s.stamp

/-- The pods that the reconcile looks at. -/
def claimPods (s : Sight) (r : PvcRef) : List (Obj .pod) :=
  (s.pods.filter (Selector.selects { ns := some r.ns })).filter (podReferencesPvc r.name)

/-- The blocking reason that the reconcile finds, if it gets to look for one. -/
def found (s : Sight) (cfg : Config) (evac : Obj .evacuation) : Option String :=
  match (viewStatus evac).pvcRef with
  | none => none
  | some r =>
    if 0 < propagationLeft s.lockNow (viewStatus evac).lockedAt then none
    else match (s.run (blockingReason cfg evac (viewStatus evac) (s.claimPods r))
        { evac, reads := 1 }).1 with
      | .ok (some msg) => some msg
      | _ => none

/-- Seconds that the pods have been quiet for, as far as the status tells. -/
def quietFor (s : Sight) (evac : Obj .evacuation) : Option Nat :=
  (viewStatus evac).quiescedAt.bind (secsSince s.now)

end Sight

/-- The stored evacuation with what happened so far. -/
structure State where
  evac : Obj .evacuation
  clock : Nat
  blockedAt : List Nat := []
  advancedAt : Option Nat := none

/-- The moment at which the settle period was found to be over. -/
def advance? (s : Sight) (evac : Obj .evacuation) : Option Nat :=
  if (viewStatus evac).phase = .targetSelecting then some s.now else none

namespace State

/-- What the reconcile leaves behind. -/
def after (cfg : Config) (σ : State) (s : Sight) : Obj .evacuation :=
  (s.run (quiescing cfg σ.evac (viewStatus σ.evac)) { evac := σ.evac }).2.evac

def step (cfg : Config) (σ : State) (s : Sight) : Option State :=
  if (viewStatus σ.evac).phase = .quiescing ∧ σ.clock ≤ s.lockNow ∧ s.inOrder then
    some
      { evac := after cfg σ s
        clock := s.stamp
        blockedAt := (s.found cfg σ.evac).elim σ.blockedAt fun _ => s.seenAt :: σ.blockedAt
        advancedAt := advance? s (after cfg σ s) }
  else none

end State

def settle (evac : Obj .evacuation) : Nat :=
  (specOf evac).settleSeconds.getD defaultSettleSeconds

/-- An advance comes a whole settle period after every blocked reconcile. -/
def Settled (σ : State) : Prop :=
  ∀ t, σ.advancedAt = some t → ∀ b ∈ σ.blockedAt, ¬ (t < b + settle σ.evac * 10 ^ 9 ∧ b ≤ t)

/-- The evacuation with a status written over its own. -/
def put (evac : Obj .evacuation) (st : ZFSEvacuationStatus) : Obj .evacuation :=
  (Patch.status st).apply evac

section Reconcile
variable {cfg : Config} {evac : Obj .evacuation} {s : Sight} {d : Desk}

@[simp] theorem phase_put (st : ZFSEvacuationStatus) : (viewStatus (put evac st)).phase = st.phase :=
  phase_mergeStatus _ st

@[simp] theorem quiescedAt_put (st : ZFSEvacuationStatus) :
    (viewStatus (put evac st)).quiescedAt = st.quiescedAt :=
  quiescedAt_mergeStatus _ st

@[simp] theorem settle_put (st : ZFSEvacuationStatus) : settle (put evac st) = settle evac := rfl

theorem run_bind_ok {α β : Type} {p : M α} {f : α → M β} {a : α} {d' : Desk}
    (h : s.run p d = (.ok a, d')) : s.run (p >>= f) d = s.run (f a) d' := exec_bind_ok h

theorem run_bind_error {α β : Type} {p : M α} {f : α → M β} {e : Error} {d' : Desk}
    (h : s.run p d = (.error e, d')) : s.run (p >>= f) d = (.error e, d') := exec_bind_error h

theorem run_now_bind {β : Type} {f : Nat → M β} :
    s.run (do let t : Nat ← send .now; f t) d =
      s.run (f (s.time d.reads)) { d with reads := d.reads + 1 } := rfl

theorem run_pods (r : PvcRef) :
    s.run (podsReferencingPvc r.ns r.name) d = (.ok (s.claimPods r), d) := rfl

/-- The evacuation after a status write, which may have been lost. -/
def Sight.store (s : Sight) (evac : Obj .evacuation) (st : ZFSEvacuationStatus) :
    Obj .evacuation :=
  if s.write = .lost then evac else put evac st

theorem run_writeStatus (name : String) (st : ZFSEvacuationStatus) :
    (s.run (writeStatus name st) d).2.evac = s.store d.evac st := by
  cases hw : s.write <;>
    simp [writeStatus, withContext, patchObj, send, answer, Sight.handle, Sight.store, put, hw,
      Outcome.write, mapError]

/-- Only what the write left behind counts, whether the reconcile learns of it or not. -/
theorem run_writeStatus_pure {name : String} {st : ZFSEvacuationStatus} {a : Action} :
    (s.run (do writeStatus name st; pure a) d).2.evac = s.store d.evac st := by
  rw [← run_writeStatus name st]
  rcases hrun : s.run (writeStatus name st) d with ⟨e | u, d'⟩
  · rw [run_bind_error hrun]
  · rw [run_bind_ok hrun]
    rfl

theorem run_wait (name : String) (st : ZFSEvacuationStatus) (msg : String) (secs : Nat) :
    (s.run (wait name st msg secs) d).2.evac =
      if st.message ≠ some msg then s.store d.evac { st with message := some msg } else d.evac := by
  unfold wait
  split_ifs
  · exact run_writeStatus_pure
  · rfl

theorem run_advance (name : String) (st : ZFSEvacuationStatus) (phase : Phase) :
    (s.run (advance name st phase) d).2.evac = s.store d.evac { st with phase, message := none } :=
  run_writeStatus_pure

/-- Looking for a blocking reason changes nothing. -/
theorem run_blockingReason (st : ZFSEvacuationStatus) (pods : List (Obj .pod)) :
    (s.run (blockingReason cfg evac st pods) d).2 = d := by
  unfold blockingReason
  split
  · split_ifs <;> rfl
  · simp only
    split_ifs
    · rfl
    · simp only [sourceRepelsPods, orErr]
      split
      · cases hn : s.node with
        | none => simp [getOpt, send, answer, Sight.handle, hn]
        | some node =>
          simp only [getOpt, send, answer, Sight.handle, hn, pure_eq, bind_eq, ret_bind, call_bind,
            exec_call]
          split_ifs <;> rfl
      · rfl

theorem run_pvcRef {r : PvcRef} (h : (viewStatus evac).pvcRef = some r) (text : String) :
    s.run (orErr (viewStatus evac).pvcRef text) d = (.ok r, d) := by
  rw [h]
  rfl

/-- A reconcile that finds a blocking reason resets the status, unless it shows it already. -/
theorem run_quiescing_found {msg : String} (h : s.found cfg evac = some msg) :
    (s.run (quiescing cfg evac (viewStatus evac)) { evac := evac }).2.evac =
      if (viewStatus evac).message ≠ some msg then
        s.store evac { viewStatus evac with quiescedAt := none, message := some msg }
      else evac := by
  unfold Sight.found at h
  split at h
  · cases h
  · rename_i r hr
    split_ifs at h with hleft
    split at h
    · rename_i msg' hreason
      cases h
      have hblocks : s.run (blockingReason cfg evac (viewStatus evac) (s.claimPods r))
          { evac := evac, reads := 1 } = (.ok (some msg), { evac := evac, reads := 1 }) :=
        Prod.ext hreason (run_blockingReason _ _)
      have hwait := run_wait evac.name { viewStatus evac with quiescedAt := none } msg 15
        (s := s) (d := { evac := evac, reads := 1 })
      unfold quiescing
      rw [run_bind_ok (run_pvcRef hr _), run_now_bind]
      simp only [Sight.time, if_neg hleft]
      rw [run_bind_ok (run_pods r), run_bind_ok hblocks]
      exact hwait
    · cases h

/-- Without a blocking reason it starts the settle period, or ends it, or changes nothing. -/
theorem run_quiescing_clear (h : s.found cfg evac = none) {evac' : Obj .evacuation}
    (hafter : (s.run (quiescing cfg evac (viewStatus evac)) { evac := evac }).2.evac = evac') :
    evac' = evac ∨
      (s.quietFor evac = none ∧
        evac' = s.store evac { viewStatus evac with quiescedAt := some (s.stamp / 10 ^ 9) }) ∨
      ∃ elapsed, s.quietFor evac = some elapsed ∧ settle evac ≤ elapsed ∧
        evac' = s.store evac { viewStatus evac with phase := .targetSelecting, message := none } := by
  subst hafter
  unfold quiescing
  rcases Option.eq_none_or_eq_some (viewStatus evac).pvcRef with hr | ⟨r, hr⟩
  · have herr : s.run (orErr (viewStatus evac).pvcRef "no pvcRef recorded") { evac := evac } =
        (.error (.other "no pvcRef recorded"), { evac := evac }) := by
      rw [hr]
      rfl
    rw [run_bind_error herr]
    exact .inl rfl
  rw [run_bind_ok (run_pvcRef hr _), run_now_bind]
  simp only [Sight.time]
  simp only [Sight.found, hr] at h
  by_cases hleft : 0 < propagationLeft s.lockNow (viewStatus evac).lockedAt
  · rw [if_pos hleft]
    exact .inl rfl
  rw [if_neg hleft] at h ⊢
  rw [run_bind_ok (run_pods r)]
  obtain ⟨res, hb⟩ : ∃ res, s.run (blockingReason cfg evac (viewStatus evac) (s.claimPods r))
      { evac := evac, reads := 1 } = (res, { evac := evac, reads := 1 }) :=
    ⟨_, Prod.ext rfl (run_blockingReason _ _)⟩
  rw [hb] at h
  rcases res with e | o
  · rw [run_bind_error hb]
    exact .inl rfl
  rw [run_bind_ok hb]
  cases o with
  | some msg => cases h
  | none =>
    simp only []
    rw [run_now_bind]
    cases hquiet : s.quietFor evac with
    | none =>
      rw [show (viewStatus evac).quiescedAt.bind (secsSince (s.time 1)) = none from hquiet]
      exact .inr (.inl ⟨rfl, run_writeStatus_pure⟩)
    | some elapsed =>
      rw [show (viewStatus evac).quiescedAt.bind (secsSince (s.time 1)) = some elapsed from hquiet]
      simp only []
      by_cases hshort : elapsed < settle evac
      · refine .inl ?_
        rw [if_pos (by exact hshort)]
        rfl
      · refine .inr (.inr ⟨elapsed, rfl, Nat.le_of_not_lt hshort, ?_⟩)
        rw [if_neg (by exact hshort)]
        exact run_advance _ _ _

end Reconcile

variable {cfg : Config} {σ σ' : State} {s : Sight}

/-- The reset of the settle period reaches the status, and the second that a settle period
is counted from is not before a blocked reconcile. -/
def Resets (cfg : Config) (σ : State) (s : Sight) : Prop :=
  match s.found cfg σ.evac with
  | some msg => ∀ q ∈ (viewStatus σ.evac).quiescedAt, q * 10 ^ 9 < s.seenAt →
    (viewStatus σ.evac).message ≠ some msg ∧ s.write ≠ .lost
  | none => s.quietFor σ.evac = none → ∀ b ∈ σ.blockedAt, b ≤ s.stamp / 10 ^ 9 * 10 ^ 9

instance : Decidable (Resets cfg σ s) := by
  unfold Resets
  split <;> infer_instance

/-- What one reconcile does to the state. -/
inductive Took (cfg : Config) (σ : State) (s : Sight) : State → Prop
  | blocked (msg : String) (evac : Obj .evacuation) (h : s.found cfg σ.evac = some msg)
      (hevac : evac = if (viewStatus σ.evac).message ≠ some msg then
          s.store σ.evac { viewStatus σ.evac with quiescedAt := none, message := some msg }
        else σ.evac) :
      Took cfg σ s { evac, clock := s.stamp, blockedAt := s.seenAt :: σ.blockedAt }
  | idle (h : s.found cfg σ.evac = none) :
      Took cfg σ s { σ with clock := s.stamp, advancedAt := none }
  | starts (h : s.found cfg σ.evac = none) (hquiet : s.quietFor σ.evac = none) :
      Took cfg σ s { σ with
        evac := put σ.evac { viewStatus σ.evac with quiescedAt := some (s.stamp / 10 ^ 9) }
        clock := s.stamp
        advancedAt := none }
  | advances (elapsed : Nat) (h : s.found cfg σ.evac = none)
      (hquiet : s.quietFor σ.evac = some elapsed) (hlong : settle σ.evac ≤ elapsed) :
      Took cfg σ s { σ with
        evac := put σ.evac { viewStatus σ.evac with phase := .targetSelecting, message := none }
        clock := s.stamp
        advancedAt := some s.now }

theorem phase_store {evac : Obj .evacuation} {st : ZFSEvacuationStatus} {phase : Phase}
    (h : (viewStatus evac).phase = phase) (hst : st.phase = phase) :
    (viewStatus (s.store evac st)).phase = phase := by
  unfold Sight.store
  split_ifs
  · exact h
  · rw [phase_put]
    exact hst

theorem advance?_of_quiescing {evac : Obj .evacuation} (h : (viewStatus evac).phase = .quiescing) :
    advance? s evac = none := by
  rw [advance?, if_neg (by rw [h]; decide)]

theorem took (hphase : (viewStatus σ.evac).phase = .quiescing) :
    Took cfg σ s
      { evac := σ.after cfg s
        clock := s.stamp
        blockedAt := (s.found cfg σ.evac).elim σ.blockedAt fun _ => s.seenAt :: σ.blockedAt
        advancedAt := advance? s (σ.after cfg s) } := by
  cases hfound : s.found cfg σ.evac with
  | some msg =>
    have hafter : σ.after cfg s = _ := run_quiescing_found hfound
    have hstay : (viewStatus (σ.after cfg s)).phase = .quiescing := by
      rw [hafter]
      split_ifs
      · exact phase_store hphase hphase
      · exact hphase
    rw [advance?_of_quiescing hstay]
    exact .blocked msg _ hfound hafter
  | none =>
    rcases run_quiescing_clear hfound rfl with hafter | ⟨hquiet, hafter⟩ |
      ⟨elapsed, hquiet, hlong, hafter⟩
    · have hsame : σ.after cfg s = σ.evac := hafter
      rw [hsame, advance?_of_quiescing hphase]
      exact .idle hfound
    · have hstart : σ.after cfg s = _ := hafter
      rw [hstart]
      unfold Sight.store
      split_ifs
      · rw [advance?_of_quiescing hphase]
        exact .idle hfound
      · have hstay : (viewStatus (put σ.evac { viewStatus σ.evac with
            quiescedAt := some (s.stamp / 10 ^ 9) })).phase = .quiescing := by
          rw [phase_put, hphase]
        rw [advance?_of_quiescing hstay]
        exact .starts hfound hquiet
    · have hnext : σ.after cfg s = _ := hafter
      rw [hnext]
      unfold Sight.store
      split_ifs
      · rw [advance?_of_quiescing hphase]
        exact .idle hfound
      · rw [advance?, if_pos (phase_put _)]
        exact .advances elapsed hfound hquiet hlong

theorem step_cases (h : State.step cfg σ s = some σ') :
    (viewStatus σ.evac).phase = .quiescing ∧ σ.clock ≤ s.lockNow ∧ s.inOrder = true ∧
      Took cfg σ s σ' := by
  unfold State.step at h
  by_cases hcond : (viewStatus σ.evac).phase = .quiescing ∧ σ.clock ≤ s.lockNow ∧ s.inOrder
  · rw [if_pos hcond] at h
    rw [← Option.some.inj h]
    exact ⟨hcond.1, hcond.2.1, hcond.2.2, took hcond.1⟩
  · rw [if_neg hcond] at h
    cases h

/-- Every blocked reconcile lies in the past, the recorded second is not before one of
them, and an advance comes a settle period later. -/
structure Inv (σ : State) : Prop where
  past : ∀ b ∈ σ.blockedAt, b ≤ σ.clock
  recorded : (viewStatus σ.evac).phase = .quiescing →
    ∀ q ∈ (viewStatus σ.evac).quiescedAt, ∀ b ∈ σ.blockedAt, b ≤ q * 10 ^ 9
  advanced : ∀ t ∈ σ.advancedAt, ∀ b ∈ σ.blockedAt, b + settle σ.evac * 10 ^ 9 ≤ t

theorem inv_start (evac : Obj .evacuation) (clock : Nat) : Inv { evac, clock } :=
  ⟨fun _ h => (List.not_mem_nil h).elim, fun _ _ _ _ h => (List.not_mem_nil h).elim,
    fun _ h => by cases h⟩

/-- Whole seconds since a recorded second. -/
theorem le_of_secsSince {now timestamp elapsed : Nat} (h : secsSince now timestamp = some elapsed) :
    timestamp * 10 ^ 9 + elapsed * 10 ^ 9 ≤ now := by
  unfold secsSince at h
  generalize 10 ^ 9 = nanos at h ⊢
  split_ifs at h with hle
  have hdiv := Nat.div_mul_le_self (now - timestamp * nanos) nanos
  rw [Option.some.inj h] at hdiv
  omega

theorem inv_step (hi : Inv σ) (hg : Resets cfg σ s) (h : State.step cfg σ s = some σ') :
    Inv σ' := by
  obtain ⟨hphase, hclock, horder, htook⟩ := step_cases h
  simp only [Sight.inOrder, Bool.and_eq_true, decide_eq_true_eq] at horder
  obtain ⟨⟨hseen, hnow⟩, hstamp⟩ := horder
  have hpast : ∀ b ∈ σ.blockedAt, b ≤ s.stamp := by
    intro b hb
    have hle := hi.past b hb
    omega
  unfold Resets at hg
  cases htook with
  | blocked msg evac hfound hevac =>
    rw [hfound] at hg
    refine ⟨?_, ?_, fun _ ht => by cases ht⟩
    · intro b hb
      rcases List.mem_cons.mp hb with rfl | hb
      · simp only
        omega
      · exact hpast b hb
    · intro _ q hq b hb
      -- a reset that does not reach the status is harmless only before the recorded second
      have hkept : q ∈ (viewStatus σ.evac).quiescedAt ∧ s.seenAt ≤ q * 10 ^ 9 := by
        by_cases hreset : (viewStatus σ.evac).message ≠ some msg ∧ s.write ≠ .lost
        · rw [hevac, if_pos hreset.1, Sight.store, if_neg hreset.2, quiescedAt_put] at hq
          cases hq
        · have hold : q ∈ (viewStatus σ.evac).quiescedAt := by
            rw [hevac] at hq
            split_ifs at hq with hmsg
            · have hlost : s.write = .lost := by
                by_contra hcon
                exact hreset ⟨hmsg, hcon⟩
              rw [Sight.store, if_pos hlost] at hq
              exact hq
            · exact hq
          refine ⟨hold, ?_⟩
          by_contra hlate
          exact hreset (hg q hold (Nat.lt_of_not_le hlate))
      rcases List.mem_cons.mp hb with rfl | hb
      · exact hkept.2
      · exact hi.recorded hphase q hkept.1 b hb
  | idle hfound =>
    exact ⟨hpast, hi.recorded, fun _ ht => by cases ht⟩
  | starts hfound hquiet =>
    rw [hfound] at hg
    refine ⟨hpast, ?_, fun _ ht => by cases ht⟩
    intro _ q hq b hb
    rw [quiescedAt_put] at hq
    obtain rfl := Option.some.inj hq
    exact hg hquiet b hb
  | advances elapsed hfound hquiet hlong =>
    refine ⟨hpast, fun hp => by simp at hp, ?_⟩
    intro t ht b hb
    obtain rfl := Option.some.inj ht
    cases hq : (viewStatus σ.evac).quiescedAt with
    | none =>
      rw [Sight.quietFor, hq] at hquiet
      cases hquiet
    | some q =>
      have hb' := hi.recorded hphase q hq b hb
      have hsince : q * 10 ^ 9 + elapsed * 10 ^ 9 ≤ s.now := by
        rw [Sight.quietFor, hq, Option.bind_some] at hquiet
        exact le_of_secsSince hquiet
      have hsettle := Nat.mul_le_mul_right (10 ^ 9) hlong
      rw [settle_put]
      calc b + settle σ.evac * 10 ^ 9
          ≤ q * 10 ^ 9 + elapsed * 10 ^ 9 := Nat.add_le_add hb' hsettle
        _ ≤ s.now := hsince

/-- Along every run whose reconciles reset it, the settle period is a real one. -/
theorem settled_of_resets (cfg : Config) (evac : Obj .evacuation) (clock : Nat)
    (sights : List Sight) (σ : State)
    (h : Run (State.step cfg) (Resets cfg) { evac, clock } sights σ) : Settled σ := by
  have hinv : Inv σ := h.invariant (inv_start evac clock) fun _ _ _ hi hg hs => inv_step hi hg hs
  intro t ht b hb hearly
  have hlate := hinv.advanced t ht b hb
  exact Nat.not_lt_of_le hlate hearly.1

/-! ## Runs of a claim with one pod -/

def movedEvac : Obj .evacuation :=
  ⟨{ name := "pv1" },
    ({ spec := { pvName := "pv1" }
       status := some { phase := .quiescing, pvcRef := some ⟨"d", "c1", 1⟩ } } : ZFSEvacuation)⟩

def claimPod : Obj .pod :=
  ⟨{ ns := "d", name := "p" },
    ({ volumes := [{ name := "v", persistentVolumeClaim := some "c1" }] } : Pod)⟩

/-- A reconcile at one moment, in seconds. -/
def sightAt (t : Nat) (pods : List (Obj .pod)) : Sight :=
  { lockNow := t * 10 ^ 9, seenAt := t * 10 ^ 9, now := t * 10 ^ 9, stamp := t * 10 ^ 9, pods }

theorem settled_after_reset : ∃ σ, Run (State.step {}) (Resets {}) { evac := movedEvac, clock := 0 }
    [sightAt 10 [claimPod], sightAt 20 [], sightAt 110 []] σ ∧
    σ.advancedAt = some (110 * 10 ^ 9) ∧ Settled σ := by
  obtain ⟨σ, hrun, hadvanced⟩ := Run.exists_of_runList
    (p := fun σ : State => σ.advancedAt == some (110 * 10 ^ 9))
    (show (runList (guarded (State.step {}) (Resets {})) { evac := movedEvac, clock := 0 }
      [sightAt 10 [claimPod], sightAt 20 [], sightAt 110 []]).any _ = true by decide +kernel)
  exact ⟨σ, hrun, by simpa using hadvanced, settled_of_resets _ _ _ _ _ hrun⟩

/-- A pod that blocks again under the message of the first time does not restart it. -/
theorem not_settled : ¬ ∀ (cfg : Config) (evac : Obj .evacuation) (clock : Nat)
    (sights : List Sight) (σ : State),
    Run (State.step cfg) (fun _ _ => True) { evac, clock } sights σ → Settled σ := by
  intro h
  obtain ⟨σ, hrun, hearly⟩ := Run.exists_of_runList
    (p := fun σ : State => σ.advancedAt == some (111 * 10 ^ 9) &&
      σ.blockedAt == [100 * 10 ^ 9, 10 * 10 ^ 9] && settle σ.evac == 90)
    (show (runList (guarded (State.step {}) fun _ _ => True) { evac := movedEvac, clock := 0 }
      [sightAt 10 [claimPod], sightAt 20 [], sightAt 100 [claimPod], sightAt 111 []]).any _ = true
      by decide +kernel)
  simp only [Bool.and_eq_true, beq_iff_eq] at hearly
  obtain ⟨⟨hadvanced, hblocked⟩, hsettle⟩ := hearly
  have hmem : 100 * 10 ^ 9 ∈ σ.blockedAt := by simp [hblocked]
  have hnot := h {} movedEvac 0 _ σ hrun _ hadvanced _ hmem
  rw [hsettle] at hnot
  exact hnot (by decide)

end ZfsEvacuation.Settle
