import ZfsEvacuation.CommittedCompletion

/-!
# Rolling forward

What becomes of a committed evacuation when anything may happen to its claim. The swap is over
once its replacement is found bound. A claim that is gone by then leaves the replacement released,
and nothing in the swap ends the wait for it.
-/
namespace ZfsEvacuation.RollForward
open ClientProgram Program GuardedRun

variable {cfg : Config} {n : String} {source : SourceInfo} {r : PvcRef} {w w' : World}

/-! ## Between two reconciles -/

/-- The claim on record still exists. -/
def ClaimStands (r : PvcRef) (w : World) : Prop :=
  ∃ pvc, w.get .pvc r.key = some pvc ∧ pvc.metadata.uid = r.uid

/-- Also, the PV controller releases a replacement without its claim, and the identity of a claim
does not come back. -/
structure PvSettles (n : String) (source : SourceInfo) (r : PvcRef) (w w' : World) : Prop
    extends Meanwhile n source w w' where
  released : ∀ pv, w'.get .pv ⟨"", n⟩ = some pv → pv.metadata.uid ≠ source.pvUid →
    ¬ Claimed w' pv → pvPhase pv = some "Released"
  spent : ClaimStands r w' → ClaimStands r w

/-- What happens between two reconciles goes by the phase of the evacuation. The claim and the
pods are free at any time, and the PV is free once the swap is over. -/
structure Interlude (cfg : Config) (n : String) (source : SourceInfo) (r : PvcRef)
    (t : TransferStatus) (w w' : World) : Prop where
  swapping : ∀ e, w.get .evacuation ⟨"", n⟩ = some e → (viewStatus e).phase = .swapping →
    PvSettles n source r w w'
  cleaningUp : ∀ e, w.get .evacuation ⟨"", n⟩ = some e → (viewStatus e).phase = .cleaningUp →
    Cleanup.Between cfg n source t w w'

/-- What the surroundings find after the reconciles so far. -/
def before (cfg : Config) (n : String) (w : World) (ws : Nat → World) : Nat → World
  | 0 => w
  | i + 1 => (ws i).reconciled cfg n

/-- Reconcile is repeated in a cluster that cooperates with a committed evacuation. -/
structure Repeated (cfg : Config) (n : String) (source : SourceInfo) (r : PvcRef)
    (t : TransferStatus) (w : World) (ws : Nat → World) : Prop where
  interlude : ∀ i, Interlude cfg n source r t (before cfg n w ws i) (ws i)
  unhindered : ∀ i e, (ws i).get .evacuation ⟨"", n⟩ = some e →
    (viewStatus e).phase = .swapping → Unhindered cfg (ws i) e source r
  finalizers : ∀ i e, (ws i).get .evacuation ⟨"", n⟩ = some e →
    (viewStatus e).phase = .swapping → OnlyPvFinalizers n source (ws i)

/-- The evacuation has been recorded as completed and then released, and the claim is unlocked. -/
structure Finished (n : String) (r : PvcRef) (w : World) : Prop where
  completed : ∃ (w₁ : World) (e : Obj .evacuation), w₁.get .evacuation ⟨"", n⟩ = some e ∧
    (viewStatus e).phase = .completed ∧
    w = w₁.effect (.patch .evacuation ⟨"", n⟩
      (.finalizers (e.metadata.finalizers.filter (· ≠ evacuationFinalizer))))
  unlocked : ¬ w.params.Locked r.lockKey

theorem Finished.phase (h : Finished n r w) {e : Obj .evacuation}
    (he : w.get .evacuation ⟨"", n⟩ = some e) : (viewStatus e).phase = .completed := by
  obtain ⟨w₁, e₁, he₁, hphase, rfl⟩ := h.completed
  rw [World.get_patch_self he₁] at he
  split_ifs at he
  obtain rfl := Option.some.inj he
  exact hphase

theorem finished_of_completes {st₀ : ZFSEvacuationStatus} (h : Cleanup.Completes n st₀ w w')
    (hr : st₀.pvcRef = some r) : Finished n r w' :=
  ⟨h.completed, h.unlocked r hr⟩

/-! ## The claim and the replacement -/

section Swap
variable {st : ZFSEvacuationStatus} {newPv : Obj .pv} {spec : PersistentVolumeSpec}

/-- A settled replacement is bound exactly as long as its claim exists. -/
theorem boundTo_iff_claimStands (hp : SwapPlan n st source r newPv spec)
    (hpt : SwapPoint n st source w') (hs : PvSettles n source r w w') {pv : Obj .pv}
    (hpv : w'.get .pv ⟨"", n⟩ = some pv) (hnew : pv.metadata.uid ≠ source.pvUid) :
    boundTo pv r.uid = true ↔ ClaimStands r w' := by
  obtain ⟨policy, hspec⟩ := hp.new_spec hpt hpv hnew
  obtain ⟨target, -, hrepl⟩ := hp.replacement
  constructor
  · intro hbound
    have hphase : pvPhase pv = some "Bound" := by
      simp only [boundTo, Bool.and_eq_true, beq_iff_eq] at hbound
      exact hbound.1
    have hclaimed : Claimed w' pv := by
      by_contra hno
      rw [hs.released pv hpv hnew hno] at hphase
      exact absurd hphase (by decide)
    obtain ⟨ref, pvc, href, hpvc, huid⟩ := hclaimed
    obtain ⟨ref', href', hns, hname, huid'⟩ := hrepl.claim
    rw [hspec] at href
    obtain rfl : ref' = ref := Option.some.inj (href'.symm.trans href)
    rw [hns, hname] at hpvc
    exact ⟨pvc, hpvc, Option.some.inj (huid.symm.trans huid')⟩
  · intro hclaim
    obtain ⟨-, old, hold, huid, -⟩ := hs.pv pv hpv
    obtain ⟨pv', hpv', hbinds⟩ := hs.binds old hold (by rwa [← huid])
    obtain rfl := Option.some.inj (hpv.symm.trans hpv')
    exact boundTo_of_replacement hrepl hspec hclaim hbinds

/-! ## Rounds of the swap -/

/-- How many reconciles there are before the one that finds the replacement. -/
def untilReplaced (n : String) (source : SourceInfo) (w : World) : Nat :=
  match w.get .pv ⟨"", n⟩ with
  | none => 1
  | some pv => if pv.metadata.uid = source.pvUid then 2 else 0

theorem untilReplaced_eq_zero : untilReplaced n source w = 0 ↔
    ∃ pv, w.get .pv ⟨"", n⟩ = some pv ∧ pv.metadata.uid ≠ source.pvUid := by
  unfold untilReplaced
  cases w.get .pv ⟨"", n⟩ with
  | none => simp
  | some pv => simp

theorem untilReplaced_le : untilReplaced n source w ≤ 2 := by
  unfold untilReplaced
  cases w.get .pv ⟨"", n⟩ with
  | none => simp
  | some pv =>
    simp only
    split_ifs <;> omega

/-- The swap goes on, and the PV controller has attended to the PV. -/
structure Swapping (n : String) (st : ZFSEvacuationStatus) (source : SourceInfo) (r : PvcRef)
    (w w' : World) : Prop where
  still : ∃ e, w.get .evacuation ⟨"", n⟩ = some e ∧ (viewStatus e).phase = .swapping
  point : SwapPoint n st source w'
  settled : PvSettles n source r w w'

theorem Swapping.not_finished (h : Swapping n st source r w w') : ¬ Finished n r w := by
  obtain ⟨e, he, hphase⟩ := h.still
  intro hdone
  rw [hdone.phase he] at hphase
  cases hphase

variable {t : TransferStatus} {ws : Nat → World} {i : Nat}

theorem stored_phase (hp : SwapPlan n st source r newPv spec) (hpt : SwapPoint n st source w) :
    ∃ e, w.get .evacuation ⟨"", n⟩ = some e ∧ (viewStatus e).phase = .swapping := by
  obtain ⟨e, he, hst, -, -⟩ := hpt.stored
  exact ⟨e, he, by rw [hst, hp.phase]⟩

theorem round_of_point (hp : SwapPlan n st source r newPv spec)
    (hrep : Repeated cfg n source r t w ws) (hpt : SwapPoint n st source (ws i)) :
    SwapRound n st source r newPv spec (ws i) ((ws i).reconciled cfg n) := by
  obtain ⟨e, he, hphase⟩ := stored_phase hp hpt
  refine swap_round hp hpt (fun e' he' => ?_) (hrep.finalizers i e he hphase)
  obtain rfl := Option.some.inj (he.symm.trans he')
  exact hrep.unhindered i e he hphase

/-- A reconcile that leaves the swap open is followed by another one. -/
theorem swapping_next (hp : SwapPlan n st source r newPv spec)
    (hrep : Repeated cfg n source r t w ws) (hpt : SwapPoint n st source (ws i))
    (hsame : SameBut .pv ⟨"", n⟩ (ws i) ((ws i).reconciled cfg n))
    (hle : (ws i).revision ≤ ((ws i).reconciled cfg n).revision)
    (hpv : ∀ pv, ((ws i).reconciled cfg n).get .pv ⟨"", n⟩ = some pv →
      System.OldOrNew unpoliced st pv) :
    Swapping n st source r ((ws i).reconciled cfg n) (ws (i + 1)) := by
  obtain ⟨e, he, hphase⟩ := stored_phase hp hpt
  have he' : ((ws i).reconciled cfg n).get .evacuation ⟨"", n⟩ = some e := by
    rw [SameBut.other hsame (by decide)]
    exact he
  have hsettled := (hrep.interlude (i + 1)).swapping e he' hphase
  exact ⟨⟨e, he', hphase⟩, hpt.meanwhile hsame hle hpv hsettled.toMeanwhile, hsettled⟩

/-- Until the replacement is found, every reconcile brings it nearer. -/
theorem swap_approaches (hp : SwapPlan n st source r newPv spec)
    (hrep : Repeated cfg n source r t w ws) (hpt : SwapPoint n st source (ws i))
    (hopen : untilReplaced n source (ws i) ≠ 0) :
    Swapping n st source r ((ws i).reconciled cfg n) (ws (i + 1)) ∧
      untilReplaced n source (ws i) = untilReplaced n source (ws (i + 1)) + 1 := by
  have hnew : ∀ pv, (ws i).get .pv ⟨"", n⟩ = some pv → pv.metadata.uid = source.pvUid :=
    fun pv hpv => by
      by_contra hne
      exact hopen (untilReplaced_eq_zero.mpr ⟨pv, hpv, hne⟩)
  have hround := round_of_point hp hrep hpt
  cases hround with
  | finished pv stored new _ _ => exact absurd (hnew pv stored) new
  | waited pv stored new _ _ => exact absurd (hnew pv stored) new
  | removed pv stored old gone same revision =>
    have hnext : Swapping n st source r ((ws i).reconciled cfg n) (ws (i + 1)) := by
      refine swapping_next hp hrep hpt same revision fun pv' hpv' => ?_
      rw [gone] at hpv'
      cases hpv'
    have hnone : (ws (i + 1)).get .pv ⟨"", n⟩ = none := by
      by_contra hsome
      obtain ⟨pv', hpv'⟩ := Option.ne_none_iff_exists'.mp hsome
      obtain ⟨-, pv₁, hpv₁, -⟩ := hnext.settled.pv pv' hpv'
      rw [gone] at hpv₁
      cases hpv₁
    refine ⟨hnext, ?_⟩
    simp only [untilReplaced, stored, old, hnone, if_true]
  | created absent stored same revision =>
    have hfresh : ((newPv.born (ws i).revision).stamped (ws i).revision).metadata.uid ≠
        source.pvUid := Nat.ne_of_gt hpt.fresh
    have hnext : Swapping n st source r ((ws i).reconciled cfg n) (ws (i + 1)) := by
      refine swapping_next hp hrep hpt same revision fun pv' hpv' => ?_
      rw [stored] at hpv'
      obtain rfl := Option.some.inj hpv'
      exact .inr ⟨_, hp.manifest, rfl⟩
    obtain ⟨pv', hpv', -⟩ := hnext.settled.binds _ stored hfresh
    obtain ⟨-, pv₁, hpv₁, huid, -⟩ := hnext.settled.pv pv' hpv'
    obtain rfl := Option.some.inj (stored.symm.trans hpv₁)
    have hzero : untilReplaced n source (ws (i + 1)) = 0 :=
      untilReplaced_eq_zero.mpr ⟨pv', hpv', by rwa [huid]⟩
    refine ⟨hnext, ?_⟩
    rw [hzero]
    simp only [untilReplaced, absent]

/-- The replacement is found while the swap is still open. -/
theorem swap_arrives (hp : SwapPlan n st source r newPv spec)
    (hrep : Repeated cfg n source r t w ws)
    (hstart : Swapping n st source r (before cfg n w ws i) (ws i)) :
    untilReplaced n source (ws (i + untilReplaced n source (ws i))) = 0 ∧
      ∀ j, i ≤ j → j ≤ i + untilReplaced n source (ws i) →
        Swapping n st source r (before cfg n w ws j) (ws j) := by
  induction hk : untilReplaced n source (ws i) generalizing i with
  | zero =>
    refine ⟨hk, fun j hij hji => ?_⟩
    obtain rfl : i = j := Nat.le_antisymm hij hji
    exact hstart
  | succ k ih =>
    obtain ⟨hnext, hless⟩ := swap_approaches hp hrep hstart.point (by omega)
    obtain ⟨hzero, hpoints⟩ := ih (i := i + 1) hnext (by omega)
    have hlook : i + 1 + k = i + (k + 1) := by omega
    rw [hlook] at hzero hpoints
    refine ⟨hzero, fun j hij hji => ?_⟩
    rcases Nat.eq_or_lt_of_le hij with rfl | hlt
    · exact hstart
    · exact hpoints j hlt hji

/-- With its claim the replacement is found bound. -/
theorem done_of_claimStands (hp : SwapPlan n st source r newPv spec)
    (hrep : Repeated cfg n source r t w ws) (hs : Swapping n st source r w' (ws i))
    (hzero : untilReplaced n source (ws i) = 0) (hclaim : ClaimStands r (ws i)) :
    SwapDone n st source r spec ((ws i).reconciled cfg n) := by
  obtain ⟨pv, hpv, hnew⟩ := untilReplaced_eq_zero.mp hzero
  have hbound := (boundTo_iff_claimStands hp hs.point hs.settled hpv hnew).mpr hclaim
  have hround := round_of_point hp hrep hs.point
  cases hround with
  | finished _ _ _ _ done => exact done
  | removed pv' stored old _ _ _ =>
    obtain rfl := Option.some.inj (hpv.symm.trans stored)
    exact absurd old hnew
  | created absent _ _ _ =>
    rw [absent] at hpv
    cases hpv
  | waited pv' stored _ unbound _ =>
    obtain rfl := Option.some.inj (hpv.symm.trans stored)
    rw [unbound] at hbound
    cases hbound

/-- The swap waits for a claim that is gone. -/
structure Waiting (n : String) (st : ZFSEvacuationStatus) (source : SourceInfo) (r : PvcRef)
    (w w' : World) : Prop extends Swapping n st source r w w' where
  replaced : untilReplaced n source w' = 0
  unclaimed : ¬ ClaimStands r w'

/-- A reconcile that finds the replacement unbound changes nothing. -/
theorem idle_of_unbound (hround : SwapRound n st source r newPv spec w w') {pv : Obj .pv}
    (hpv : w.get .pv ⟨"", n⟩ = some pv) (hnew : pv.metadata.uid ≠ source.pvUid)
    (hunbound : boundTo pv r.uid = false) : w' = w := by
  cases hround with
  | waited _ _ _ _ same => exact same
  | finished pv' stored _ bound _ =>
    obtain rfl := Option.some.inj (hpv.symm.trans stored)
    rw [hunbound] at bound
    cases bound
  | removed pv' stored old _ _ _ =>
    obtain rfl := Option.some.inj (hpv.symm.trans stored)
    exact absurd old hnew
  | created absent _ _ _ =>
    rw [absent] at hpv
    cases hpv

theorem Waiting.idle (hp : SwapPlan n st source r newPv spec)
    (hrep : Repeated cfg n source r t w ws) (h : Waiting n st source r w' (ws i)) :
    (ws i).reconciled cfg n = ws i := by
  obtain ⟨pv, hpv, hnew⟩ := untilReplaced_eq_zero.mp h.replaced
  refine idle_of_unbound (round_of_point hp hrep h.point) hpv hnew ?_
  rw [Bool.eq_false_iff]
  exact fun hbound =>
    h.unclaimed ((boundTo_iff_claimStands hp h.point h.settled hpv hnew).mp hbound)

theorem Waiting.next (hp : SwapPlan n st source r newPv spec)
    (hrep : Repeated cfg n source r t w ws) (h : Waiting n st source r w' (ws i)) :
    Waiting n st source r ((ws i).reconciled cfg n) (ws (i + 1)) := by
  have hidle := h.idle hp hrep
  have hnext : Swapping n st source r ((ws i).reconciled cfg n) (ws (i + 1)) := by
    refine swapping_next hp hrep h.point ?_ (by rw [hidle]) fun pv hpv => ?_
    · rw [hidle]
      exact .refl _ _ _
    · rw [hidle] at hpv
      exact h.point.pv pv hpv
  have hgone : ¬ ClaimStands r ((ws i).reconciled cfg n) := by
    rw [hidle]
    exact h.unclaimed
  -- the replacement stays, and the claim does not come back under its identity
  obtain ⟨pv, hpv, hnew⟩ := untilReplaced_eq_zero.mp h.replaced
  rw [← hidle] at hpv
  obtain ⟨pv', hpv', -⟩ := hnext.settled.binds pv hpv hnew
  obtain ⟨-, pv₁, hpv₁, huid, -⟩ := hnext.settled.pv pv' hpv'
  obtain rfl := Option.some.inj (hpv.symm.trans hpv₁)
  exact { toSwapping := hnext
          replaced := untilReplaced_eq_zero.mpr ⟨pv', hpv', by rwa [huid]⟩
          unclaimed := fun hclaim => hgone (hnext.settled.spent hclaim) }

/-- From then on it waits for ever. -/
theorem Waiting.later (hp : SwapPlan n st source r newPv spec)
    (hrep : Repeated cfg n source r t w ws)
    (h : Waiting n st source r (before cfg n w ws i) (ws i)) (j : Nat) :
    Waiting n st source r (before cfg n w ws (i + j)) (ws (i + j)) := by
  induction j with
  | zero => exact h
  | succ j ih => exact ih.next hp hrep

/-- Without its claim the replacement is waited for in every reconcile. -/
theorem never_finished (hp : SwapPlan n st source r newPv spec)
    (hrep : Repeated cfg n source r t w ws) (hstart : Swapping n st source r w (ws 0))
    (hgone : ¬ ClaimStands r (ws (untilReplaced n source (ws 0)))) (i : Nat) :
    ¬ Finished n r ((ws i).reconciled cfg n) := by
  obtain ⟨hzero, hpoints⟩ := swap_arrives (i := 0) hp hrep hstart
  rw [Nat.zero_add] at hzero hpoints
  have hwaiting : Waiting n st source r
      (before cfg n w ws (untilReplaced n source (ws 0))) (ws (untilReplaced n source (ws 0))) :=
    { toSwapping := hpoints _ (Nat.zero_le _) (Nat.le_refl _), replaced := hzero
      unclaimed := hgone }
  have hswapping : Swapping n st source r (before cfg n w ws (i + 1)) (ws (i + 1)) := by
    rcases Nat.le_total (i + 1) (untilReplaced n source (ws 0)) with hle | hle
    · exact hpoints (i + 1) (Nat.zero_le _) hle
    · obtain ⟨j, hj⟩ := Nat.exists_eq_add_of_le hle
      rw [hj]
      exact (hwaiting.later hp hrep j).toSwapping
  exact hswapping.not_finished

end Swap

/-! ## To the end -/

section Cleanup
variable {st : ZFSEvacuationStatus} {target : TargetInfo} {t : TransferStatus}
  {ws : Nat → World} {k : Nat}

theorem cleanup_repeated (hrep : Repeated cfg n source r t w ws)
    (hphase : ∃ e, (before cfg n w ws k).get .evacuation ⟨"", n⟩ = some e ∧
      (viewStatus e).phase = .cleaningUp) :
    Cleanup.Repeated cfg n source t (before cfg n w ws k) fun j => ws (k + j) := by
  obtain ⟨e, he, hcleaning⟩ := hphase
  exact ⟨(hrep.interlude k).cleaningUp e he hcleaning,
    fun j => (hrep.interlude (k + j + 1)).cleaningUp⟩

/-- Once the swap is over, or was over before, the cleanup takes five reconciles at most. -/
theorem finished_of_kept {issued : Bool} (hrep : Repeated cfg n source r t w ws)
    (hplan : Cleanup.Plan st source target t) (hr : st.pvcRef = some r)
    (hkept : Cleanup.Kept n st issued (before cfg n w ws k))
    (hno : ¬ Cleanup.Stranded cfg t issued (before cfg n w ws k)) :
    ∃ i ≤ k + 4, Finished n r ((ws i).reconciled cfg n) := by
  have hphase : ∃ e, (before cfg n w ws k).get .evacuation ⟨"", n⟩ = some e ∧
      (viewStatus e).phase = .cleaningUp := by
    obtain ⟨e, he, hst, -⟩ := hkept
    exact ⟨e, he, hst.phase⟩
  obtain ⟨i, hi, hclean⟩ :=
    Cleanup.cleanup_ends hplan (cleanup_repeated hrep hphase) hkept hno
  exact ⟨k + i, Nat.add_le_add_left hi k, finished_of_completes hclean.done hr⟩

theorem not_finished_of_stranded (hrep : Repeated cfg n source r t w ws)
    (hplan : Cleanup.Plan st source target t) {issued : Bool} (hkept : Cleanup.Kept n st issued w)
    (hstranded : Cleanup.Stranded cfg t issued w) (i : Nat) :
    ¬ Finished n r ((ws i).reconciled cfg n) := by
  obtain ⟨rfl, hlive⟩ := hstranded
  have hphase : ∃ e, (before cfg n w ws 0).get .evacuation ⟨"", n⟩ = some e ∧
      (viewStatus e).phase = .cleaningUp := by
    obtain ⟨e, he, hst, -⟩ := hkept
    exact ⟨e, he, hst.phase⟩
  have hrounds := cleanup_repeated hrep hphase
  obtain ⟨⟨e, he, hst, -⟩, -⟩ := Cleanup.stranded_stays hplan hrounds hkept hlive i
  simp only [Nat.zero_add] at he
  intro hdone
  have hcompleted := hdone.phase he
  rw [hst.phase] at hcompleted
  cases hcompleted

theorem finished_iff_not_stranded {issued : Bool} (hrep : Repeated cfg n source r t w ws)
    (hplan : Cleanup.Plan st source target t) (hr : st.pvcRef = some r)
    (hkept : Cleanup.Kept n st issued w) :
    (∃ i, Finished n r ((ws i).reconciled cfg n)) ↔ ¬ Cleanup.Stranded cfg t issued w := by
  constructor
  · rintro ⟨i, hfinished⟩ hstranded
    exact not_finished_of_stranded hrep hplan hkept hstranded i hfinished
  · intro hno
    obtain ⟨i, -, hfinished⟩ := finished_of_kept (k := 0) hrep hplan hr hkept hno
    exact ⟨i, hfinished⟩

end Cleanup

section Swap
variable {st : ZFSEvacuationStatus} {newPv : Obj .pv} {spec : PersistentVolumeSpec}
  {target : TargetInfo} {t : TransferStatus} {ws : Nat → World}

/-- With its claim the swap is over by the third reconcile, and the cleanup follows. -/
theorem finished_of_claimStands (hp : SwapPlan n st source r newPv spec)
    (hrep : Repeated cfg n source r t w ws) (hstart : Swapping n st source r w (ws 0))
    (htarget : st.target = some target) (htransfer : st.transfer = some t)
    (hunissued : t.targetSnapDeleteIssued = false)
    (hclaim : ClaimStands r (ws (untilReplaced n source (ws 0)))) :
    ∃ i ≤ 7, Finished n r ((ws i).reconciled cfg n) := by
  obtain ⟨hzero, hpoints⟩ := swap_arrives (i := 0) hp hrep hstart
  rw [Nat.zero_add] at hzero hpoints
  have hfound := hpoints _ (Nat.zero_le _) (Nat.le_refl _)
  have hdone := done_of_claimStands hp hrep hfound hzero hclaim
  have hkept : Cleanup.Kept n st false
      ((ws (untilReplaced n source (ws 0))).reconciled cfg n) :=
    hdone.kept hp hfound.point rfl rfl rfl rfl htransfer hunissued
  have hplan : Cleanup.Plan st source target t := ⟨hp.source_eq, htarget, htransfer⟩
  have hle : untilReplaced n source (ws 0) ≤ 2 := untilReplaced_le
  obtain ⟨i, hi, hfinished⟩ := finished_of_kept (k := untilReplaced n source (ws 0) + 1) hrep hplan
    hp.claim_eq hkept fun hstranded => Bool.false_ne_true hstranded.1
  exact ⟨i, by omega, hfinished⟩

theorem finished_iff_claimStands (hp : SwapPlan n st source r newPv spec)
    (hrep : Repeated cfg n source r t w ws) (hstart : Swapping n st source r w (ws 0))
    (htarget : st.target = some target) (htransfer : st.transfer = some t)
    (hunissued : t.targetSnapDeleteIssued = false) :
    (∃ i, Finished n r ((ws i).reconciled cfg n)) ↔
      ClaimStands r (ws (untilReplaced n source (ws 0))) := by
  constructor
  · rintro ⟨i, hfinished⟩
    by_contra hgone
    exact never_finished hp hrep hstart hgone i hfinished
  · intro hclaim
    obtain ⟨i, -, hfinished⟩ :=
      finished_of_claimStands hp hrep hstart htarget htransfer hunissued hclaim
    exact ⟨i, hfinished⟩

end Swap

/-! ## Every state of a run -/

/-- Behind the commit there are the swap and the cleanup. -/
theorem phase_of_committed {st : ZFSEvacuationStatus} (h : CommitConsistent st)
    (hcommitted : st.committed = true) (hopen : st.phase ≠ .completed) :
    st.phase = .swapping ∨ st.phase = .cleaningUp := by
  rw [CommitConsistent, hcommitted] at h
  cases hp : st.phase with
  | swapping => exact .inl rfl
  | cleaningUp => exact .inr rfl
  | completed => exact absurd hp hopen
  | _ =>
    rw [hp] at h
    cases h

/-- A committed evacuation is brought to its end exactly if the claim still exists when the swap
finds its replacement, and no ZFSSnapshot is stranded in the cleanup. Eight reconciles are enough
then, whatever becomes of the claim before and after. -/
theorem rolls_forward_iff (cfg : Config) (as : List SysAction) (s : System) (n : String)
    (e : Obj .evacuation) (h : Run (System.step cfg) (System.SwapsAlone unpoliced) System.init as s)
    (he : s.world.get .evacuation ⟨"", n⟩ = some e) (hcommitted : (viewStatus e).committed = true)
    (hopen : (viewStatus e).phase ≠ .completed) :
    ∃ source r t, (viewStatus e).source = some source ∧ (viewStatus e).pvcRef = some r ∧
      (viewStatus e).transfer = some t ∧ ∀ ws, Repeated cfg n source r t s.world ws →
        ((∃ i, Finished n r ((ws i).reconciled cfg n)) ↔
          ((viewStatus e).phase = .swapping →
            ClaimStands r (ws (untilReplaced n source (ws 0)))) ∧
          ¬ Cleanup.Stranded cfg t t.targetSnapDeleteIssued s.world) ∧
        ((∃ i, Finished n r ((ws i).reconciled cfg n)) →
          ∃ i ≤ 7, Finished n r ((ws i).reconciled cfg n)) := by
  have hcurrent := h.mono fun _ _ hg => hg.1
  have hx := System.swapSound_run hcurrent
  have hshape := (hx.status.tracked n e he).toShape
  have hphase := phase_of_committed hshape.committed hcommitted hopen
  have hguarded : Phase.reached .guarding (viewStatus e).phase = true := by
    rcases hphase with hp | hp <;> rw [hp] <;> rfl
  obtain ⟨r, hr⟩ := Option.isSome_iff_exists.mp (hshape.pvcRef hguarded)
  rcases hphase with hswapping | hcleaning
  · obtain ⟨source, hs, -⟩ := hshape.source hguarded
    obtain ⟨target, t, htarget, ht, hunissued⟩ :=
      System.transfer_unissued hcurrent he (.inr hswapping)
    obtain ⟨newPv, spec, hp, hpt⟩ :=
      hx.swapPoint (System.swapTracked_run ignoresPolicy_unpoliced h) he hswapping hs hr
    refine ⟨source, r, t, hs, hr, ht, fun ws hrep => ?_⟩
    have hsettled := (hrep.interlude 0).swapping e he hswapping
    have hstart : Swapping n (viewStatus e) source r s.world (ws 0) :=
      ⟨⟨e, he, hswapping⟩, hpt.meanwhile (.refl _ _ _) (Nat.le_refl _) hpt.pv
        hsettled.toMeanwhile, hsettled⟩
    have hiff := finished_iff_claimStands hp hrep hstart htarget ht hunissued
    refine ⟨⟨fun hfinished => ⟨fun _ => hiff.mp hfinished, fun hstranded => ?_⟩,
      fun hfree => hiff.mpr (hfree.1 hswapping)⟩, fun hfinished =>
        finished_of_claimStands hp hrep hstart htarget ht hunissued (hiff.mp hfinished)⟩
    rw [hunissued] at hstranded
    exact Bool.false_ne_true hstranded.1
  · obtain ⟨source, target, t, hplan, hkept⟩ := Cleanup.kept_of_run hx he hcleaning
    refine ⟨source, r, t, hplan.source_eq, hr, hplan.transfer_eq, fun ws hrep => ?_⟩
    have hiff := finished_iff_not_stranded hrep hplan hr hkept
    refine ⟨⟨fun hfinished => ⟨fun hswapping => ?_, hiff.mp hfinished⟩,
      fun hfree => hiff.mpr hfree.2⟩, fun hfinished => ?_⟩
    · rw [hcleaning] at hswapping
      cases hswapping
    · obtain ⟨i, hi, hdone⟩ :=
        finished_of_kept (k := 0) hrep hplan hr hkept (hiff.mp hfinished)
      exact ⟨i, by omega, hdone⟩

/-! ### A claim that is deleted -/

def claimed (w : World) (pv : Obj .pv) : Bool :=
  ((pvSpec pv).bind (·.claimRef)).any fun ref =>
    (w.get .pvc ⟨ref.ns.getD "", ref.name.getD ""⟩).any fun pvc => ref.uid = some pvc.metadata.uid

theorem claimed_iff {pv : Obj .pv} : claimed w pv = true ↔ Claimed w pv := by
  simp only [claimed, Claimed, Option.any_eq_true, decide_eq_true_eq]
  constructor
  · rintro ⟨ref, href, pvc, hpvc, huid⟩
    exact ⟨ref, pvc, href, hpvc, huid⟩
  · rintro ⟨ref, pvc, href, hpvc, huid⟩
    exact ⟨ref, href, pvc, hpvc, huid⟩

/-- The PV controller binds the PV to its claim, or releases it. -/
def settlePv (w : World) (n : String) : World :=
  match w.get .pv ⟨"", n⟩ with
  | none => w
  | some pv => System.reportPv w n (if claimed w pv then "Bound" else "Released")

theorem pvSettles_settlePv (hkept : ∀ pv, w.get .pv ⟨"", n⟩ = some pv → pv.gone = false) :
    PvSettles n source r w (settlePv w n) := by
  cases hpv : w.get .pv ⟨"", n⟩ with
  | none =>
    have hsame : settlePv w n = w := by rw [settlePv, hpv]
    have hnone : ∀ pv, w.get .pv ⟨"", n⟩ ≠ some pv := fun pv hsome => by
      rw [hpv] at hsome
      cases hsome
    rw [hsame]
    exact { toMeanwhile := System.meanwhile_refl fun pv hsome => absurd hsome (hnone pv)
            released := fun pv hsome => absurd hsome (hnone pv)
            spent := id }
  | some pv =>
    have hreport : settlePv w n =
        System.reportPv w n (if claimed w pv then "Bound" else "Released") := by
      rw [settlePv, hpv]
    have hreported := System.pvReported_reportPv
      (if claimed w pv then "Bound" else "Released") hpv (hkept pv hpv)
    rw [hreport]
    obtain ⟨pv', hpv', hphase, hspec, -⟩ := hreported.pv
    have hsame : Claimed (System.reportPv w n (if claimed w pv then "Bound" else "Released")) pv' ↔
        claimed w pv = true := by
      refine Iff.trans ?_ claimed_iff.symm
      simp only [Claimed, hspec, hreported.others .pvc _ (by decide)]
    refine { toMeanwhile := hreported.meanwhile hpv fun pv'' hpv'' hclaimed => ?_
             released := fun pv'' hpv'' _ hfree => ?_, spent := fun hclaim => ?_ }
    · obtain rfl := Option.some.inj (hpv'.symm.trans hpv'')
      rw [if_pos (hsame.mp hclaimed)]
    · obtain rfl := Option.some.inj (hpv'.symm.trans hpv'')
      rw [hphase, if_neg fun h => hfree (hsame.mpr h)]
    · obtain ⟨pvc, hpvc, huid⟩ := hclaim
      rw [hreported.others .pvc _ (by decide)] at hpvc
      exact ⟨pvc, hpvc, huid⟩

/-- Nothing is left to settle where the PV has been released. -/
theorem pvSettles_released (hpv : ∀ pv, w.get .pv ⟨"", n⟩ = some pv → pv.gone = false ∧
    claimed w pv = false ∧ pvPhase pv = some "Released") : PvSettles n source r w w where
  toMeanwhile := System.meanwhile_refl fun pv hstored => ⟨(hpv pv hstored).1, fun _ hclaimed => by
    rw [← claimed_iff, (hpv pv hstored).2.1] at hclaimed
    cases hclaimed⟩
  released pv hstored _ _ := (hpv pv hstored).2.2
  spent := id

/-- The replacement as the PV controller leaves it without its claim. -/
def releasedPv : Obj .pv :=
  ⟨{ name := "pv1" },
    ({ spec := some
         { claimRef := some
             { apiVersion := some "v1", kind := some "PersistentVolumeClaim", ns := some "d"
               name := some "c1", uid := some 5 }
           persistentVolumeReclaimPolicy := some "Retain"
           csi := some { driver := zfsDriver, volumeHandle := Sample.newHandle }
           nodeAffinity := some
             [{ matchExpressions := some [⟨nodeIdTopologyKey, "In", some ["n2"]⟩] }] }
       phase := some "Released" } : PersistentVolume)⟩

/-- The claim is deleted after the old PV, and the PV controller releases the replacement. -/
def claimDeleted : List SysAction :=
  System.committedOnce ++ Sample.reconcileOf "pv1" 12 4 ++
    [.env (.delete .pvc ⟨"d", "c1"⟩)] ++ Sample.reconcileOf "pv1" 12 2 ++
    [.env (.update .pv releasedPv)]

/-- The mode is WhenIdle and no pod uses the claim. -/
def unused (r : PvcRef) (w : World) : Bool :=
  ((w.get .evacuation ⟨"", "pv1"⟩).all fun e => (specOf e).mode = .whenIdle) &&
    (podsOf w r).isEmpty

theorem unhindered_of_unused (h : unused r w = true) {e : Obj .evacuation}
    (he : w.get .evacuation ⟨"", "pv1"⟩ = some e) : Unhindered cfg w e source r := by
  obtain ⟨hmode, hpods⟩ := Bool.and_eq_true_iff.mp h
  rw [he] at hmode
  have hidle : (specOf e).mode = .whenIdle := of_decide_eq_true hmode
  rw [Unhindered, hidle]
  exact List.isEmpty_iff.mp hpods

/-- The replacement has been released. -/
def givenUp (source : SourceInfo) (r : PvcRef) (w : World) : Bool :=
  unused r w && (w.get .pv ⟨"", "pv1"⟩).any fun pv =>
    !pv.gone && pv.metadata.uid ≠ source.pvUid && !claimed w pv &&
      pvPhase pv = some "Released"

theorem repeated_of_givenUp {st : ZFSEvacuationStatus} {newPv : Obj .pv}
    {spec : PersistentVolumeSpec} {t : TransferStatus}
    (hp : SwapPlan "pv1" st source r newPv spec) (hpt : SwapPoint "pv1" st source w)
    (h : givenUp source r w = true) :
    w.reconciled cfg "pv1" = w ∧ Repeated cfg "pv1" source r t w fun _ => w := by
  obtain ⟨hunused, hany⟩ := Bool.and_eq_true_iff.mp h
  obtain ⟨pv, hpv, hreleased⟩ := (Option.any_eq_true ..).mp hany
  simp only [Bool.and_eq_true, and_assoc, Bool.not_eq_true', decide_eq_true_eq] at hreleased
  obtain ⟨hkept, hnew, hfree, hphase⟩ := hreleased
  have honly : OnlyPvFinalizers "pv1" source w := fun pv' hpv' hold => by
    obtain rfl := Option.some.inj (hpv.symm.trans hpv')
    exact absurd hold hnew
  have hunbound : boundTo pv r.uid = false := by
    have hreleased : PersistentVolume.phase pv.data = some "Released" := hphase
    simp [boundTo, hreleased]
  have hidle : w.reconciled cfg "pv1" = w :=
    idle_of_unbound (swap_round hp hpt (fun e => unhindered_of_unused hunused) honly) hpv hnew
      hunbound
  have hbefore : ∀ i, before cfg "pv1" w (fun _ => w) i = w := by
    intro i
    cases i with
    | zero => rfl
    | succ i => exact hidle
  refine ⟨hidle, fun i => ?_, fun _ e he _ => unhindered_of_unused hunused he, fun _ _ _ _ => honly⟩
  rw [hbefore]
  refine ⟨fun e he _ => pvSettles_released fun pv' hpv' => ?_, fun e he hcleaning => ?_⟩
  · obtain rfl := Option.some.inj (hpv.symm.trans hpv')
    exact ⟨hkept, hfree, hphase⟩
  · obtain ⟨e', he', hswapping⟩ := stored_phase hp hpt
    obtain rfl := Option.some.inj (he.symm.trans he')
    rw [hswapping] at hcleaning
    cases hcleaning

/-- A claim that is deleted before the replacement is bound is waited for in vain. -/
theorem not_rolls_forward : ∃ s e source r t ws,
    Run (System.step Sample.config) (System.SwapsAlone unpoliced) System.init claimDeleted s ∧
    s.world.get .evacuation ⟨"", "pv1"⟩ = some e ∧ (viewStatus e).committed = true ∧
    (viewStatus e).source = some source ∧ (viewStatus e).pvcRef = some r ∧
    (viewStatus e).transfer = some t ∧ Repeated Sample.config "pv1" source r t s.world ws ∧
    ∀ i, ¬ Finished "pv1" r ((ws i).reconciled Sample.config "pv1") := by
  obtain ⟨s, hrun, hleft⟩ := Run.exists_of_runList
    (p := fun s : System => (s.world.get .evacuation ⟨"", "pv1"⟩).any fun e =>
      (viewStatus e).phase = .swapping && (viewStatus e).committed &&
        (viewStatus e).source.any fun source => (viewStatus e).pvcRef.any fun r =>
          givenUp source r s.world)
    (show (runList (guarded (System.step Sample.config) (System.SwapsAlone unpoliced)) System.init
      claimDeleted).any _ = true by decide +kernel)
  obtain ⟨e, he, hstatus⟩ := (Option.any_eq_true ..).mp hleft
  simp only [Bool.and_eq_true, and_assoc, decide_eq_true_eq] at hstatus
  obtain ⟨hphase, hcommitted, hsource⟩ := hstatus
  obtain ⟨source, hs, hclaim⟩ := (Option.any_eq_true ..).mp hsource
  obtain ⟨r, hr, hgiven⟩ := (Option.any_eq_true ..).mp hclaim
  have hx := System.swapSound_run (hrun.mono fun _ _ hg => hg.1)
  obtain ⟨newPv, spec, hp, hpt⟩ :=
    hx.swapPoint (System.swapTracked_run ignoresPolicy_unpoliced hrun) he hphase hs hr
  obtain ⟨-, t, -, ht, -⟩ :=
    System.transfer_unissued (hrun.mono fun _ _ hg => hg.1) he (.inr hphase)
  obtain ⟨hidle, hrep⟩ : s.world.reconciled Sample.config "pv1" = s.world ∧
      Repeated Sample.config "pv1" source r t s.world fun _ => s.world :=
    repeated_of_givenUp hp hpt hgiven
  refine ⟨s, e, source, r, t, fun _ => s.world, hrun, he, hcommitted, hs, hr, ht, hrep,
    fun i hdone => ?_⟩
  have hcompleted := hdone.phase (e := e) (by rw [hidle, he])
  rw [hphase] at hcompleted
  cases hcompleted

/-! ### A claim that is deleted later -/

def phaseIs (phase : Phase) (w : World) : Bool :=
  (w.get .evacuation ⟨"", "pv1"⟩).any fun e => (viewStatus e).phase = phase

theorem phaseIs_of_stored {e : Obj .evacuation} {phase : Phase}
    (he : w.get .evacuation ⟨"", "pv1"⟩ = some e) (hphase : (viewStatus e).phase = phase) :
    phaseIs phase w = true := by
  rw [phaseIs, he, Option.any_some]
  exact decide_eq_true hphase

/-- The PV controller during the swap. During the cleanup the agents, and the claim is deleted. -/
def surroundings (w : World) : World :=
  if phaseIs .swapping w then settlePv w "pv1"
  else Cleanup.attended (w.env (.delete .pvc ⟨"d", "c1"⟩))

/-- Rounds up to a last one. -/
def rounds (last : Nat) (w : World) (i : Nat) : World :=
  (fun w => surroundings (w.reconciled Sample.config "pv1"))^[min i last] (surroundings w)

theorem between_without_claim {t : TransferStatus}
    (hown : Cleanup.ownOnly (source.volKey cfg) w = true) (key : Key) :
    Cleanup.Between cfg n source t w (Cleanup.attended (w.env (.delete .pvc key))) := by
  have hsame : ∀ k key', k ≠ .pvc → (w.env (.delete .pvc key)).get k key' = w.get k key' :=
    fun k key' hk => World.get_delete_other w fun heq => absurd heq hk
  have hown' : Cleanup.ownOnly (source.volKey cfg) (w.env (.delete .pvc key)) = true := by
    rw [Cleanup.ownOnly, hsame _ _ (by decide)]
    exact hown
  have h : Cleanup.Between cfg n source t (w.env (.delete .pvc key))
      (Cleanup.attended (w.env (.delete .pvc key))) := Cleanup.between_attended hown'
  refine ⟨fun e he => h.evac e ?_, fun o ho => ?_, fun o ho => ?_, fun o ho => ?_,
    fun cr hcr => h.spared cr ?_, h.registered, fun zv hzv => ?_, h.own⟩
  · rwa [hsame _ _ (by decide)]
  · rw [← hsame _ _ (by decide)]
    exact h.bkp o ho
  · rw [← hsame _ _ (by decide)]
    exact h.rst o ho
  · rw [← hsame _ _ (by decide)]
    exact h.snap o ho
  · rwa [hsame _ _ (by decide)]
  · rw [← hsame _ _ (by decide)]
    exact h.volume zv hzv

/-- Nobody is in the way of what is left to do. -/
def clear (source : SourceInfo) (w : World) : Bool :=
  if phaseIs .swapping w then (w.get .pv ⟨"", "pv1"⟩).all fun pv => !pv.gone
  else Cleanup.ownOnly (source.volKey Sample.config) w

/-- No pod uses the claim, and nobody else holds on to the old PV. -/
def restful (source : SourceInfo) (r : PvcRef) (w : World) : Bool :=
  unused r w && (w.get .pv ⟨"", "pv1"⟩).all fun pv => pv.metadata.uid = source.pvUid →
    ∀ f ∈ pv.metadata.finalizers, f = pvProtection ∨ f = provisionerFinalizer

theorem interlude_surroundings {t : TransferStatus} (h : clear source w = true) :
    Interlude Sample.config "pv1" source r t w (surroundings w) := by
  constructor
  · intro e he hphase
    have hswapping := phaseIs_of_stored he hphase
    rw [clear, if_pos hswapping] at h
    rw [surroundings, if_pos hswapping]
    refine pvSettles_settlePv fun pv hpv => ?_
    rw [hpv] at h
    exact (Bool.not_eq_true' _).mp h
  · intro e he hphase
    have hother : ¬ phaseIs .swapping w = true := by
      rw [phaseIs, he, Option.any_some, hphase]
      decide
    rw [clear, if_neg hother] at h
    rw [surroundings, if_neg hother]
    exact between_without_claim h _

/-- Nobody is in the way of any of these rounds, and the last one is none of a cleanup. -/
def goesWell (source : SourceInfo) (r : PvcRef) (last : Nat) (w : World) : Bool :=
  ((List.range (last + 1)).all fun i => restful source r (rounds last w i) &&
    clear source (before Sample.config "pv1" w (rounds last w) i)) &&
  !phaseIs .swapping (before Sample.config "pv1" w (rounds last w) (last + 1)) &&
  !phaseIs .cleaningUp (before Sample.config "pv1" w (rounds last w) (last + 1))

theorem rounds_of_le {last i : Nat} (h : i ≤ last) :
    rounds last w i = surroundings (before Sample.config "pv1" w (rounds last w) i) := by
  cases i with
  | zero => simp [rounds, before]
  | succ i =>
    have hle : i ≤ last := Nat.le_of_succ_le h
    rw [before, rounds, rounds, Nat.min_eq_left h, Nat.min_eq_left hle,
      Function.iterate_succ_apply']

theorem repeated_of_goesWell {last : Nat} {t : TransferStatus}
    (h : goesWell source r last w = true) :
    Repeated Sample.config "pv1" source r t w (rounds last w) := by
  simp only [goesWell, Bool.and_eq_true, List.all_eq_true, List.mem_range, Bool.not_eq_true',
    and_assoc] at h
  obtain ⟨hround, hswapped, hcleaned⟩ := h
  have hmin (i : Nat) : rounds last w i = rounds last w (min i last) := by simp [rounds]
  have hrest (i : Nat) : restful source r (rounds last w i) = true := by
    rw [hmin]
    exact (hround _ (by omega)).1
  simp only [restful, Bool.and_eq_true] at hrest
  refine ⟨fun i => ?_, fun i e he _ => unhindered_of_unused (hrest i).1 he,
    fun i _ _ _ pv hpv hold => ?_⟩
  · rcases Nat.lt_or_ge last i with hlt | hle
    · have hlast : before Sample.config "pv1" w (rounds last w) i =
          before Sample.config "pv1" w (rounds last w) (last + 1) := by
        obtain ⟨j, rfl⟩ := Nat.exists_eq_add_of_lt hlt
        rw [before, before, hmin, Nat.min_eq_right (by omega)]
      rw [hlast]
      refine ⟨fun e he hphase => ?_, fun e he hphase => ?_⟩
      · rw [phaseIs_of_stored he hphase] at hswapped
        cases hswapped
      · rw [phaseIs_of_stored he hphase] at hcleaned
        cases hcleaned
    · rw [rounds_of_le hle]
      exact interlude_surroundings (hround i (by omega)).2
  · have hfinalizers := (hrest i).2
    rw [hpv] at hfinalizers
    exact of_decide_eq_true hfinalizers hold

/-- The swap has deleted the old PV, and the rounds behind it go well. -/
def rollsOn (s : System) : Bool :=
  (s.world.get .evacuation ⟨"", "pv1"⟩).any fun e =>
    (viewStatus e).phase = .swapping && (viewStatus e).committed &&
    ((viewStatus e).transfer.any fun t => !t.targetSnapDeleteIssued) &&
    (viewStatus e).source.any fun source => (viewStatus e).pvcRef.any fun r =>
      goesWell source r 6 s.world &&
        ((rounds 6 s.world (untilReplaced "pv1" source (rounds 6 s.world 0))).get .pvc r.key).any
          fun pvc => pvc.metadata.uid = r.uid

theorem rolls_forward_small : ∃ s e r,
    Run (System.step Sample.config) (System.SwapsAlone unpoliced) System.init System.leftSwap s ∧
    s.world.get .evacuation ⟨"", "pv1"⟩ = some e ∧ (viewStatus e).phase = .swapping ∧
    ∃ i ≤ 7, Finished "pv1" r ((rounds 6 s.world i).reconciled Sample.config "pv1") := by
  obtain ⟨s, hrun, hleft⟩ := Run.exists_of_runList (p := rollsOn)
    (show (runList (guarded (System.step Sample.config) (System.SwapsAlone unpoliced)) System.init
      System.leftSwap).any _ = true by decide +kernel)
  obtain ⟨e, he, hstatus⟩ := (Option.any_eq_true ..).mp hleft
  simp only [Bool.and_eq_true, and_assoc, decide_eq_true_eq] at hstatus
  obtain ⟨hphase, hcommitted, htransfer, hsource⟩ := hstatus
  have hopen : (viewStatus e).phase ≠ .completed := by
    rw [hphase]
    decide
  obtain ⟨source, r, t, hs, hr, ht, hends⟩ :=
    rolls_forward_iff Sample.config System.leftSwap s "pv1" e hrun he hcommitted hopen
  simp only [hs, hr, ht, Option.any_some, Bool.and_eq_true, Bool.not_eq_true'] at htransfer hsource
  obtain ⟨hwell, hclaim⟩ := hsource
  obtain ⟨pvc, hpvc, huid⟩ := (Option.any_eq_true ..).mp hclaim
  obtain ⟨hiff, hfast⟩ := hends _ (repeated_of_goesWell hwell)
  refine ⟨s, e, r, hrun, he, hphase, hfast (hiff.mpr ⟨fun _ => ?_, fun hstranded => ?_⟩)⟩
  · exact ⟨pvc, hpvc, of_decide_eq_true huid⟩
  · rw [htransfer] at hstranded
    exact Bool.false_ne_true hstranded.1

end ZfsEvacuation.RollForward
