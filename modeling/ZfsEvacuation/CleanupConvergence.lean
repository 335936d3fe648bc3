import ZfsEvacuation.CleanupRounds
import ZfsEvacuation.SourceLast
import ZfsEvacuation.SwapSurvival

/-!
# Convergence of the cleanup

In a cluster whose agents do their part the cleanup is over after five reconciles at most,
whatever becomes of the claim, the PV and the volume on the target. It never ends only where the
deletion of the ZFSSnapshot is on record while one that nobody deletes is still there.
-/
namespace ZfsEvacuation.Cleanup
open ClientProgram Program GuardedRun Abort

variable {cfg : Config} {n : String} {st₀ : ZFSEvacuationStatus} {issued : Bool}
  {source : SourceInfo} {target : TargetInfo} {t : TransferStatus} {w w' w₁ : World}

/-! ## Between two reconciles -/

/-- Nobody creates the object, and a deletion that was asked for is finished. -/
def Finishes (k : Kind) (key : Key) (w w' : World) : Prop :=
  ∀ o', w'.get k key = some o' → ∃ o, w.get k key = some o ∧ o.deleting = false

/-- What the cleanup relies on between two of its reconciles. Nobody else deals with the objects
it waits for, and their agents do what they are asked to. Everything else is free. -/
structure Between (cfg : Config) (n : String) (source : SourceInfo) (t : TransferStatus)
    (w w' : World) : Prop where
  evac : ∀ e, w.get .evacuation ⟨"", n⟩ = some e → ∃ e', w'.get .evacuation ⟨"", n⟩ = some e' ∧
    statusOf e' = statusOf e ∧ (specOf e').pvName = (specOf e).pvName ∧
    (evacuationFinalizer ∈ e.metadata.finalizers → evacuationFinalizer ∈ e'.metadata.finalizers)
  bkp : Finishes .zfsBackup (bkpKey cfg n t.attempt) w w'
  rst : Finishes .zfsRestore (rstKey cfg n t.attempt) w w'
  snap : Finishes .zfsSnapshot (t.snapKey cfg) w w'
  spared : ∀ cr, w.get .zfsSnapshot (t.snapKey cfg) = some cr → cr.deleting = false →
    ∃ cr', w'.get .zfsSnapshot (t.snapKey cfg) = some cr' ∧ cr'.deleting = false
  registered : ∀ cr, w'.get .zfsSnapshot (t.snapKey cfg) = some cr → cr.deleting = false →
    zfsFinalizer ∈ cr.metadata.finalizers
  volume : ∀ zv', w'.get .zfsVolume (source.volKey cfg) = some zv' →
    ∃ zv, w.get .zfsVolume (source.volKey cfg) = some zv ∧
      (zv.deleting = true → ∃ f ∈ zv.metadata.finalizers, f ≠ zfsFinalizer)
  own : ∀ zv, w'.get .zfsVolume (source.volKey cfg) = some zv → ∀ f ∈ zv.metadata.finalizers,
    f = guardFinalizer ∨ f = zfsFinalizer

/-- The worlds that the reconciles of a cleanup find, one after another. -/
structure Repeated (cfg : Config) (n : String) (source : SourceInfo) (t : TransferStatus)
    (w : World) (ws : Nat → World) : Prop where
  first : Between cfg n source t w (ws 0)
  next : ∀ i e, ((ws i).reconciled cfg n).get .evacuation ⟨"", n⟩ = some e →
    (viewStatus e).phase = .cleaningUp →
      Between cfg n source t ((ws i).reconciled cfg n) (ws (i + 1))

theorem Between.kept (h : Between cfg n source t w w') (hkept : Kept n st₀ issued w) :
    Kept n st₀ issued w' := by
  obtain ⟨e, he, hst, hname, hfin⟩ := hkept
  obtain ⟨e', he', hstatus, hname', hfin'⟩ := h.evac e he
  refine ⟨e', he', ?_, hname'.trans hname, hfin' hfin⟩
  rwa [viewStatus, hstatus]

theorem Repeated.between {ws : Nat → World} {i : Nat} (h : Repeated cfg n source t w ws)
    (hkept : Kept n st₀ issued ((ws i).reconciled cfg n)) :
    Between cfg n source t ((ws i).reconciled cfg n) (ws (i + 1)) := by
  obtain ⟨e, he, hst, -⟩ := hkept
  exact h.next i e he hst.phase

theorem Finishes.none {k : Kind} {key : Key} (h : Finishes k key w w') (hgoing : Going k key w) :
    w'.get k key = none := by
  by_contra hsome
  obtain ⟨o', ho'⟩ := Option.ne_none_iff_exists'.mp hsome
  obtain ⟨o, ho, hlive⟩ := h o' ho'
  rw [hgoing o ho] at hlive
  cases hlive

theorem going_of_none {k : Kind} {key : Key} (h : w.get k key = none) : Going k key w := by
  intro o ho
  rw [h] at ho
  cases ho

/-! ## What is left to do -/

def live (cfg : Config) (t : TransferStatus) (w : World) : Bool :=
  (w.get .zfsSnapshot (t.snapKey cfg)).any fun cr => !cr.deleting

def snapRank (cfg : Config) (t : TransferStatus) (issued : Bool) (w : World) : Nat :=
  if issued then if (w.get .zfsSnapshot (t.snapKey cfg)).isSome then 1 else 0
  else if live cfg t w then 1 else 2

def crsRank (cfg : Config) (n : String) (t : TransferStatus) (w : World) : Nat :=
  if (w.get .zfsBackup (bkpKey cfg n t.attempt)).isNone &&
    (w.get .zfsRestore (rstKey cfg n t.attempt)).isNone then 0 else 1

def sourceRank (cfg : Config) (source : SourceInfo) (w : World) : Nat :=
  if (w.get .zfsVolume (source.volKey cfg)).isNone then 0 else 1

/-- The number of reconciles before the last one. -/
def rank (cfg : Config) (n : String) (source : SourceInfo) (t : TransferStatus) (issued : Bool)
    (w : World) : Nat :=
  crsRank cfg n t w + snapRank cfg t issued w + sourceRank cfg source w

theorem live_iff : live cfg t w = true ↔
    ∃ cr, w.get .zfsSnapshot (t.snapKey cfg) = some cr ∧ cr.deleting = false := by
  simp [live, Option.any_eq_true]

theorem crsRank_eq_zero : crsRank cfg n t w = 0 ↔ CrsGone cfg n t w := by
  simp [crsRank, CrsGone]

theorem crsRank_le : crsRank cfg n t w ≤ 1 := by
  unfold crsRank
  split_ifs <;> omega

theorem sourceRank_eq_zero :
    sourceRank cfg source w = 0 ↔ w.get .zfsVolume (source.volKey cfg) = none := by
  simp [sourceRank]

theorem sourceRank_le : sourceRank cfg source w ≤ 1 := by
  unfold sourceRank
  split_ifs <;> omega

theorem snapRank_le : snapRank cfg t issued w ≤ 2 := by
  unfold snapRank
  split_ifs <;> omega

theorem crsRank_between (h : Between cfg n source t w₁ w') (hgone : CrsGone cfg n t w)
    (hsame : ∀ key, w₁.get .zfsBackup key = w.get .zfsBackup key)
    (hsame' : ∀ key, w₁.get .zfsRestore key = w.get .zfsRestore key) :
    crsRank cfg n t w' = 0 := by
  refine crsRank_eq_zero.mpr ⟨h.bkp.none (going_of_none ?_), h.rst.none (going_of_none ?_)⟩
  · rw [hsame, hgone.1]
  · rw [hsame', hgone.2]

/-- Without a reconcile in between the source does not come back. -/
theorem sourceRank_between (h : Between cfg n source t w₁ w')
    (hsame : ∀ key, w₁.get .zfsVolume key = w.get .zfsVolume key) :
    sourceRank cfg source w' ≤ sourceRank cfg source w := by
  by_cases hzero : sourceRank cfg source w = 0
  · have hnone : w'.get .zfsVolume (source.volKey cfg) = none := by
      by_contra hsome
      obtain ⟨zv', hzv'⟩ := Option.ne_none_iff_exists'.mp hsome
      obtain ⟨zv, hzv, -⟩ := h.volume zv' hzv'
      rw [hsame, sourceRank_eq_zero.mp hzero] at hzv
      cases hzv
    rw [sourceRank_eq_zero.mpr hnone]
    exact Nat.zero_le _
  · have hle : sourceRank cfg source w' ≤ 1 := sourceRank_le
    omega

/-- Nor does more have to be done about the ZFSSnapshot. -/
theorem snapRank_between (h : Between cfg n source t w₁ w')
    (hsame : ∀ key, w₁.get .zfsSnapshot key = w.get .zfsSnapshot key) :
    snapRank cfg t issued w' ≤ snapRank cfg t issued w := by
  cases issued with
  | true =>
    simp only [snapRank, if_true]
    cases hcr : w.get .zfsSnapshot (t.snapKey cfg) with
    | some cr => split_ifs <;> simp_all
    | none =>
      have hnone := h.snap.none (going_of_none ((hsame _).trans hcr))
      simp [hnone]
  | false =>
    simp only [snapRank, Bool.false_eq_true, if_false]
    by_cases hlive : live cfg t w = true
    · obtain ⟨cr, hcr, hl⟩ := live_iff.mp hlive
      obtain ⟨cr', hcr', hl'⟩ := h.spared cr ((hsame _).trans hcr) hl
      rw [if_pos (live_iff.mpr ⟨cr', hcr', hl'⟩), if_pos hlive]
    · rw [if_neg hlive]
      split_ifs <;> omega

/-! ## Convergence -/

/-- The evacuation is completed, and nothing of the move is left but the volume on the target. -/
structure CleanedUp (cfg : Config) (n : String) (st₀ : ZFSEvacuationStatus) (source : SourceInfo)
    (t : TransferStatus) (w w' : World) : Prop where
  done : Completes n st₀ w w'
  crs : CrsGone cfg n t w'
  snap : w'.get .zfsSnapshot (t.snapKey cfg) = none
  source : w'.get .zfsVolume (source.volKey cfg) = none

/-- A ZFSSnapshot is there whose deletion counts as issued already. -/
def Stranded (cfg : Config) (t : TransferStatus) (issued : Bool) (w : World) : Prop :=
  issued = true ∧ ∃ cr, w.get .zfsSnapshot (t.snapKey cfg) = some cr ∧ cr.deleting = false

/-- What a reconcile of the cleanup finds. -/
structure Found (cfg : Config) (n : String) (st₀ : ZFSEvacuationStatus) (source : SourceInfo)
    (t : TransferStatus) (issued : Bool) (w : World) : Prop where
  kept : Kept n st₀ issued w
  going : issued = true → Going .zfsSnapshot (t.snapKey cfg) w
  registered : ∀ cr, w.get .zfsSnapshot (t.snapKey cfg) = some cr → cr.deleting = false →
    zfsFinalizer ∈ cr.metadata.finalizers
  own : ∀ zv, w.get .zfsVolume (source.volKey cfg) = some zv → ∀ f ∈ zv.metadata.finalizers,
    f = guardFinalizer ∨ f = zfsFinalizer

theorem Between.found (h : Between cfg n source t w w') (hkept : Kept n st₀ issued w)
    (hgoing : issued = true → Going .zfsSnapshot (t.snapKey cfg) w) :
    Found cfg n st₀ source t issued w' :=
  ⟨h.kept hkept, fun hissued => going_of_none (h.snap.none (hgoing hissued)), h.registered, h.own⟩

/-- The source is destroyed by its agent once it is deleted and the guard is off. -/
theorem Between.destroyed {w₂ : World} (h : Between cfg n source t w₂ w')
    (hown : ∀ zv, w.get .zfsVolume (source.volKey cfg) = some zv → ∀ f ∈ zv.metadata.finalizers,
      f = guardFinalizer ∨ f = zfsFinalizer)
    (hfreed : Freed (source.volKey cfg) w w₁) (haside : Aside w₁ w₂) :
    w'.get .zfsVolume (source.volKey cfg) = none := by
  by_contra hsome
  obtain ⟨zv', hzv'⟩ := Option.ne_none_iff_exists'.mp hsome
  obtain ⟨zv, hzv, hheld⟩ := h.volume zv' hzv'
  rw [haside _ _ (by decide)] at hzv
  obtain ⟨hdel, hguard⟩ := hfreed.going zv hzv
  obtain ⟨zv₀, hzv₀, hsub⟩ := hfreed.fewer zv hzv
  obtain ⟨f, hf, hforeign⟩ := hheld hdel
  rcases hown zv₀ hzv₀ f (hsub hf) with rfl | rfl
  · exact hguard hf
  · exact hforeign rfl

section Rounds
variable {ws : Nat → World} {i : Nat}

/-- What a reconcile leaves with less to do for the next one. -/
def Advances (cfg : Config) (n : String) (st₀ : ZFSEvacuationStatus) (source : SourceInfo)
    (t : TransferStatus) (issued : Bool) (w w' : World) : Prop :=
  ∃ issued', Found cfg n st₀ source t issued' w' ∧
    rank cfg n source t issued' w' < rank cfg n source t issued w

/-- A reconcile of the cleanup completes it or leaves less to do. -/
theorem cleanup_next (hp : Plan st₀ source target t) (hr : Repeated cfg n source t w ws)
    (hf : Found cfg n st₀ source t issued (ws i)) :
    CleanedUp cfg n st₀ source t (ws i) ((ws i).reconciled cfg n) ∨
      Advances cfg n st₀ source t issued (ws i) (ws (i + 1)) := by
  have hround := cleanup_round cfg hp hf.kept
  cases hround with
  | transfer left bkp rst others kept =>
    have hb := hr.between kept
    refine .inr ⟨issued, hb.found kept fun hissued => ?_, ?_⟩
    · intro cr hcr
      rw [others _ _ (by decide) (by decide) (by decide)] at hcr
      exact hf.going hissued cr hcr
    · have hcrs : crsRank cfg n t (ws (i + 1)) = 0 :=
        crsRank_eq_zero.mpr ⟨hb.bkp.none bkp, hb.rst.none rst⟩
      have hbefore : crsRank cfg n t (ws i) ≠ 0 := fun hzero => left (crsRank_eq_zero.mp hzero)
      have hsnap : snapRank cfg t issued (ws (i + 1)) ≤ snapRank cfg t issued (ws i) :=
        snapRank_between hb fun key =>
          others _ key (by decide) (by decide) (by decide)
      have hsource := sourceRank_between (w := ws i) hb fun key =>
        others _ key (by decide) (by decide) (by decide)
      unfold rank
      omega
  | registered crs pending absent stored live' others kept =>
    subst pending
    have hb := hr.between kept
    have hfound := hb.found kept fun hissued => absurd hissued Bool.false_ne_true
    refine .inr ⟨false, hfound, ?_⟩
    have hcrs := crsRank_between hb crs (fun key => others _ key (by decide) (by decide))
      fun key => others _ key (by decide) (by decide)
    have hsource := sourceRank_between (w := ws i) hb fun key =>
      others _ key (by decide) (by decide)
    obtain ⟨cr, hcr⟩ := Option.ne_none_iff_exists'.mp stored
    have hafter : live cfg t (ws (i + 1)) = true :=
      live_iff.mpr (hb.spared cr hcr (live' cr hcr))
    have hbefore : live cfg t (ws i) = false := by simp [live, absent]
    simp only [rank, snapRank, hafter, hbefore, hcrs, if_true, Bool.false_eq_true, if_false]
    omega
  | unprocessed crs pending cr stored live' unsigned aside kept =>
    exact absurd (hf.registered cr stored live') unsigned
  | issued crs pending there going others kept =>
    subst pending
    have hb := hr.between kept
    refine .inr ⟨true, hb.found kept fun _ => going, ?_⟩
    have hcrs := crsRank_between hb crs (fun key => others _ key (by decide) (by decide))
      fun key => others _ key (by decide) (by decide)
    have hsource := sourceRank_between (w := ws i) hb fun key =>
      others _ key (by decide) (by decide)
    have hnone := hb.snap.none going
    simp only [rank, snapRank, hnone, hcrs, if_true, Option.isSome_none, Bool.false_eq_true,
      if_false]
    split_ifs <;> omega
  | destroying crs recorded cr stored going live' others kept =>
    subst recorded
    have hb := hr.between kept
    have hgoing := going (hf.going rfl cr stored)
    refine .inr ⟨true, hb.found kept fun _ => hgoing, ?_⟩
    have hcrs := crsRank_between hb crs (fun key => others _ key (by decide) (by decide))
      fun key => others _ key (by decide) (by decide)
    have hsource := sourceRank_between (w := ws i) hb fun key =>
      others _ key (by decide) (by decide)
    have hnone := hb.snap.none hgoing
    simp only [rank, snapRank, hnone, stored, hcrs, if_true, Option.isSome_none, Option.isSome_some,
      Bool.false_eq_true, if_false]
    omega
  | source crs gone there w₁ freed aside kept =>
    have hb := hr.between kept
    have hsame : ∀ k key, k ≠ .evacuation → k ≠ .zfsVolume →
        ((ws i).reconciled cfg n).get k key = (ws i).get k key := fun k key hk hvol =>
      (aside k key hk).trans (SameBut.other freed.same hvol key)
    have hgone := going_of_none ((hsame _ _ (by decide) (by decide)).trans gone)
    refine .inr ⟨issued, hb.found kept fun _ => hgone, ?_⟩
    have hcrs := crsRank_between hb crs (fun key => hsame _ key (by decide) (by decide))
      fun key => hsame _ key (by decide) (by decide)
    have hsnap : snapRank cfg t issued (ws (i + 1)) ≤ snapRank cfg t issued (ws i) :=
      snapRank_between hb fun key => hsame _ key (by decide) (by decide)
    have hafter := sourceRank_eq_zero.mpr (hb.destroyed hf.own freed aside)
    have hbefore : sourceRank cfg source (ws i) ≠ 0 := fun hzero =>
      there (sourceRank_eq_zero.mp hzero)
    unfold rank
    omega
  | finished crs gone destroyed done =>
    have hsame : ∀ k key, k ≠ .evacuation → k ≠ .params → k ≠ .pv → k ≠ .pvc →
      ((ws i).reconciled cfg n).get k key = (ws i).get k key := done.others
    refine .inl ⟨done, ⟨?_, ?_⟩, ?_, ?_⟩
    · exact (hsame _ _ (by decide) (by decide) (by decide) (by decide)).trans crs.1
    · exact (hsame _ _ (by decide) (by decide) (by decide) (by decide)).trans crs.2
    · exact (hsame _ _ (by decide) (by decide) (by decide) (by decide)).trans gone
    · exact (hsame _ _ (by decide) (by decide) (by decide) (by decide)).trans destroyed

/-- A cleanup is completed after as many reconciles as it has left to do, and one more. -/
theorem cleanup_within (hp : Plan st₀ source target t) (hr : Repeated cfg n source t w ws)
    (hf : Found cfg n st₀ source t issued (ws i)) :
    ∃ j ≤ i + rank cfg n source t issued (ws i),
      CleanedUp cfg n st₀ source t (ws j) ((ws j).reconciled cfg n) := by
  induction hrank : rank cfg n source t issued (ws i) using Nat.strong_induction_on
    generalizing i issued with
  | _ k ih =>
    subst hrank
    rcases cleanup_next hp hr hf with hdone | ⟨issued', hf', hlt⟩
    · exact ⟨i, Nat.le_add_right _ _, hdone⟩
    · obtain ⟨j, hj, hdone⟩ := ih _ hlt hf' rfl
      exact ⟨j, by omega, hdone⟩

/-- A live ZFSSnapshot whose deletion counts as issued stays. -/
theorem stranded_stays (hp : Plan st₀ source target t) (hr : Repeated cfg n source t w ws)
    (hkept : Kept n st₀ true w)
    (hlive : ∃ cr, w.get .zfsSnapshot (t.snapKey cfg) = some cr ∧ cr.deleting = false) (i : Nat) :
    Kept n st₀ true ((ws i).reconciled cfg n) ∧
      ∃ cr, ((ws i).reconciled cfg n).get .zfsSnapshot (t.snapKey cfg) = some cr ∧
        cr.deleting = false := by
  have hround : ∀ i, Kept n st₀ true (ws i) →
      (∃ cr, (ws i).get .zfsSnapshot (t.snapKey cfg) = some cr ∧ cr.deleting = false) →
      Kept n st₀ true ((ws i).reconciled cfg n) ∧
        ∃ cr, ((ws i).reconciled cfg n).get .zfsSnapshot (t.snapKey cfg) = some cr ∧
          cr.deleting = false := by
    intro i hkept ⟨cr, hcr, hlive⟩
    cases cleanup_round cfg hp hkept with
    | transfer _ _ _ others kept =>
      exact ⟨kept, cr, (others _ _ (by decide) (by decide) (by decide)).trans hcr, hlive⟩
    | destroying _ _ cr' stored _ live' _ kept =>
      obtain rfl : cr = cr' := Option.some.inj (hcr.symm.trans stored)
      exact ⟨kept, live' hlive⟩
    | registered _ pending _ _ _ _ _ | unprocessed _ pending _ _ _ _ _ _
    | issued _ pending _ _ _ _ => cases pending
    | source _ gone _ _ _ _ _ | finished _ gone _ _ =>
      rw [gone] at hcr
      cases hcr
  induction i with
  | zero =>
    obtain ⟨cr, hcr, hl⟩ := hlive
    exact hround 0 (hr.first.kept hkept) (hr.first.spared cr hcr hl)
  | succ i ih =>
    obtain ⟨hkept', cr, hcr, hl⟩ := ih
    have hb := hr.between hkept'
    exact hround (i + 1) (hb.kept hkept') (hb.spared cr hcr hl)

theorem rank_le : rank cfg n source t issued w ≤ 4 := by
  have hcrs : crsRank cfg n t w ≤ 1 := crsRank_le
  have hsnap : snapRank cfg t issued w ≤ 2 := snapRank_le
  have hsource : sourceRank cfg source w ≤ 1 := sourceRank_le
  unfold rank
  omega

/-- Wherever a cleanup was left, it is completed by the fifth reconcile at the latest, unless a
ZFSSnapshot is stranded. -/
theorem cleanup_ends (hp : Plan st₀ source target t) (hr : Repeated cfg n source t w ws)
    (hkept : Kept n st₀ issued w) (hno : ¬ Stranded cfg t issued w) :
    ∃ i ≤ 4, CleanedUp cfg n st₀ source t (ws i) ((ws i).reconciled cfg n) := by
  have hfound : Found cfg n st₀ source t issued (ws 0) := by
    refine hr.first.found hkept fun hissued cr hcr => ?_
    by_contra hlive
    exact hno ⟨hissued, cr, hcr, by simpa using hlive⟩
  obtain ⟨i, hi, hdone⟩ := cleanup_within hp hr hfound
  have hle : rank cfg n source t issued (ws 0) ≤ 4 := rank_le
  exact ⟨i, by omega, hdone⟩

theorem not_cleanedUp_of_stranded (hp : Plan st₀ source target t)
    (hr : Repeated cfg n source t w ws) (hkept : Kept n st₀ issued w)
    (hstranded : Stranded cfg t issued w) (i : Nat) :
    ¬ CleanedUp cfg n st₀ source t (ws i) ((ws i).reconciled cfg n) := by
  obtain ⟨rfl, hlive⟩ := hstranded
  intro hdone
  obtain ⟨-, cr, hcr, -⟩ := stranded_stays hp hr hkept hlive i
  rw [hdone.snap] at hcr
  cases hcr

end Rounds

/-! ## Every state of a run -/

/-- What a status in CleaningUp has on record, the cleanup can work with. -/
theorem kept_of_run {s : System} (hx : System.SwapSound cfg s) {e : Obj .evacuation}
    (he : s.world.get .evacuation ⟨"", n⟩ = some e) (hphase : (viewStatus e).phase = .cleaningUp) :
    ∃ source target t, Plan (viewStatus e) source target t ∧
      Kept n (viewStatus e) t.targetSnapDeleteIssued s.world := by
  have hshape := (hx.status.tracked n e he).toShape
  have hmem := hx.base.swap.grounded.recorded.stored _ e he
  have hname : e.name = n := (System.evac_key_name he).2
  have hpvName := hx.base.swap.named e hmem
  rw [hname] at hpvName
  obtain ⟨source, hs, -⟩ := hshape.source (by rw [hphase]; rfl)
  obtain ⟨target, ht, -⟩ := hshape.target (by rw [hphase]; rfl)
  obtain ⟨t, htr⟩ := Option.isSome_iff_exists.mp (hshape.transfer (by rw [hphase]; rfl))
  have hcommitted := hshape.committed
  rw [CommitConsistent, hphase] at hcommitted
  refine ⟨source, target, t, ⟨hs, ht, htr⟩, e, he, ⟨hphase, hcommitted, rfl, rfl, rfl, ?_⟩,
    hpvName, hx.base.anchored.stored n e he (by rw [hphase]; rfl)⟩
  rw [htr]
  rfl

/-- From every state of a run, the cleanup of an evacuation comes to its end exactly if no live
ZFSSnapshot is there whose deletion is on record already. Five reconciles are enough, and then
the key of the claim is unlocked and neither the source nor anything of the transfer is left. -/
theorem cleanup_finishes (cfg : Config) (as : List SysAction) (s : System) (n : String)
    (e : Obj .evacuation) (h : Run (System.step cfg) System.Current System.init as s)
    (he : s.world.get .evacuation ⟨"", n⟩ = some e) (hphase : (viewStatus e).phase = .cleaningUp) :
    ∃ source target t, Plan (viewStatus e) source target t ∧
      ∀ ws, Repeated cfg n source t s.world ws →
        ((∃ i, CleanedUp cfg n (viewStatus e) source t (ws i) ((ws i).reconciled cfg n)) ↔
          ¬ Stranded cfg t t.targetSnapDeleteIssued s.world) ∧
        (¬ Stranded cfg t t.targetSnapDeleteIssued s.world →
          ∃ i ≤ 4, CleanedUp cfg n (viewStatus e) source t (ws i) ((ws i).reconciled cfg n)) := by
  obtain ⟨source, target, t, hp, hkept⟩ := kept_of_run (System.swapSound_run h) he hphase
  refine ⟨source, target, t, hp, fun ws hr => ⟨⟨fun ⟨i, hdone⟩ hstranded => ?_, fun hno => ?_⟩,
    cleanup_ends hp hr hkept⟩⟩
  · exact not_cleanedUp_of_stranded hp hr hkept hstranded i hdone
  · obtain ⟨i, -, hdone⟩ := cleanup_ends hp hr hkept hno
    exact ⟨i, hdone⟩

/-! ### A cleanup of a small cluster -/

/-- Also, the agent on the target takes up a new ZFSSnapshot. -/
def attend : (k : Kind) → Obj k → Option (Obj k)
  | .zfsSnapshot, o =>
    if o.deleting then none
    else if zfsFinalizer ∈ o.metadata.finalizers then some o
    else some { o with metadata := { o.metadata with
      finalizers := o.metadata.finalizers ++ [zfsFinalizer] } }
  | k, o => tend k o

theorem key_attend {k : Kind} {o o' : Obj k} (h : attend k o = some o') : o'.key = o.key := by
  cases k with
  | zfsSnapshot =>
    simp only [attend] at h
    split_ifs at h <;> cases h <;> rfl
  | _ => exact key_tend h

def attended (w : World) : World :=
  { w with objects := fun k => (w.objects k).filterMap (attend k) fun _ _ h => key_attend h }

theorem get_attended (w : World) (k : Kind) (key : Key) :
    (attended w).get k key = (w.get k key).bind (attend k) :=
  KeyedStore.get_filterMap (w.objects k) (fun _ _ h => key_attend h) key

/-- Only the controller and the agent hold on to the volume. -/
def ownOnly (key : Key) (w : World) : Bool :=
  (w.get .zfsVolume key).all fun zv =>
    zv.metadata.finalizers.all fun f => f = guardFinalizer ∨ f = zfsFinalizer

theorem finishes_attended {k : Kind} {key : Key}
    (hover : ∀ o : Obj k, o.deleting = true → attend k o = none) :
    Finishes k key w (attended w) := by
  intro o' ho'
  rw [get_attended] at ho'
  obtain ⟨o, ho, htend⟩ := Option.bind_eq_some_iff.mp ho'
  refine ⟨o, ho, ?_⟩
  by_contra hdel
  rw [hover o (by simpa using hdel)] at htend
  cases htend

theorem attend_over {o : Obj .zfsSnapshot} (h : o.deleting = true) :
    attend .zfsSnapshot o = none := by
  rw [attend, if_pos h]

/-- A live ZFSSnapshot is taken up, and stays live. -/
theorem attend_snapshot {o : Obj .zfsSnapshot} (h : o.deleting = false) :
    ∃ o', attend .zfsSnapshot o = some o' ∧ o'.deleting = false ∧
      zfsFinalizer ∈ o'.metadata.finalizers := by
  simp only [attend, h, Bool.false_eq_true, if_false]
  split_ifs with hsigned
  · exact ⟨o, rfl, h, hsigned⟩
  · exact ⟨_, rfl, h, List.mem_append_right _ (List.mem_singleton_self _)⟩

theorem attend_volume {zv zv' : Obj .zfsVolume} (h : attend .zfsVolume zv = some zv') :
    (zv.deleting = true → guardFinalizer ∈ zv.metadata.finalizers) ∧
      ∀ f ∈ zv'.metadata.finalizers, f ∈ zv.metadata.finalizers ∨ f = zfsFinalizer := by
  simp only [attend, tend] at h
  split_ifs at h with hdel hguard hsigned <;> cases h
  · exact ⟨fun _ => hguard, fun f hf => .inl hf⟩
  · exact ⟨fun h => absurd h hdel, fun f hf => .inl hf⟩
  · exact ⟨fun h => absurd h hdel, fun f hf => by simpa using hf⟩

theorem between_attended (hown : ownOnly (source.volKey cfg) w = true) :
    Between cfg n source t w (attended w) := by
  have hget := get_attended w
  refine ⟨fun e he => ⟨e, ?_, rfl, rfl, id⟩, finishes_attended fun o h => if_pos h,
    finishes_attended fun o h => if_pos h, finishes_attended fun o => attend_over,
    fun cr hcr hlive => ?_, fun cr' hcr' hlive => ?_, fun zv' hzv' => ?_, fun zv' hzv' f hf => ?_⟩
  · rw [hget, he]
    rfl
  · obtain ⟨cr', hattend, hlive', -⟩ := attend_snapshot hlive
    refine ⟨cr', ?_, hlive'⟩
    rw [hget, hcr, Option.bind_some, hattend]
  · rw [hget] at hcr'
    obtain ⟨cr, -, hattend⟩ := Option.bind_eq_some_iff.mp hcr'
    cases hdel : cr.deleting with
    | true =>
      rw [attend_over hdel] at hattend
      cases hattend
    | false =>
      obtain ⟨cr'', hattend', -, hsigned⟩ := attend_snapshot hdel
      obtain rfl := Option.some.inj (hattend.symm.trans hattend')
      exact hsigned
  · rw [hget] at hzv'
    obtain ⟨zv, hzv, hattend⟩ := Option.bind_eq_some_iff.mp hzv'
    exact ⟨zv, hzv, fun hdel => ⟨guardFinalizer, (attend_volume hattend).1 hdel, by decide⟩⟩
  · rw [hget] at hzv'
    obtain ⟨zv, hzv, hattend⟩ := Option.bind_eq_some_iff.mp hzv'
    rcases (attend_volume hattend).2 f hf with hmem | rfl
    · rw [ownOnly, hzv] at hown
      simpa using List.all_eq_true.mp hown f hmem
    · exact .inr rfl

/-- After the next reconcile and the agents. -/
def attendedRound (w : World) : World := attended (w.reconciled Sample.config "pv1")

/-- Rounds up to a last one. -/
def attendedRounds (last : Nat) (w : World) (i : Nat) : World :=
  attendedRound^[min i last] (attended w)

/-- The source is nobody else's in these rounds, and the last one is none of a cleanup. -/
def attendsTo (key : Key) (last : Nat) (w : World) : Bool :=
  ownOnly key w &&
  ((List.range last).all fun i =>
    ownOnly key ((attendedRounds last w i).reconciled Sample.config "pv1")) &&
  (((attendedRounds last w last).reconciled Sample.config "pv1").get .evacuation ⟨"", "pv1"⟩).all
    fun e => (viewStatus e).phase ≠ .cleaningUp

theorem repeated_of_attendsTo {last : Nat}
    (h : attendsTo (source.volKey Sample.config) last w = true) :
    Repeated Sample.config "pv1" source t w (attendedRounds last w) := by
  simp only [attendsTo, Bool.and_eq_true, List.all_eq_true, List.mem_range, and_assoc] at h
  obtain ⟨hfirst, hown, hover⟩ := h
  refine ⟨between_attended hfirst, fun i e he hphase => ?_⟩
  by_cases hlt : i < last
  · have hnext : attendedRounds last w (i + 1) = attendedRound (attendedRounds last w i) := by
      rw [attendedRounds, attendedRounds, Nat.min_eq_left hlt, Nat.min_eq_left (Nat.le_of_lt hlt),
        Function.iterate_succ_apply']
    rw [hnext]
    exact between_attended (hown i hlt)
  · have hlast : attendedRounds last w i = attendedRounds last w last := by
      rw [attendedRounds, attendedRounds, Nat.min_eq_right (Nat.le_of_not_lt hlt), Nat.min_self]
    rw [hlast] at he
    rw [he] at hover
    exact absurd hphase (of_decide_eq_true hover)

/-- The swap is over and nothing is cleaned up yet. -/
def toCleanup : List SysAction :=
  System.committedOnce ++ Sample.reconcileOf "pv1" 12 4 ++ Sample.reconcileOf "pv1" 12 2 ++
    [Sample.replacementBound] ++ Sample.reconcileOf "pv1" 12 3

/-- The cleanup is due, and no ZFSSnapshot is on record as deleted. -/
def cleanupDue (s : System) : Bool :=
  ((s.world.get .evacuation ⟨"", "pv1"⟩).any fun e =>
    (viewStatus e).phase = .cleaningUp &&
      ((viewStatus e).source.any fun source => source.volKey Sample.config = ⟨"openebs", "vol1"⟩) &&
      (viewStatus e).transfer.any fun t => !t.targetSnapDeleteIssued) &&
  attendsTo ⟨"openebs", "vol1"⟩ 4 s.world

theorem cleanup_finishes_small : ∃ s e source t,
    Run (System.step Sample.config) System.Current System.init toCleanup s ∧
    s.world.get .evacuation ⟨"", "pv1"⟩ = some e ∧ (viewStatus e).phase = .cleaningUp ∧
    ∃ i ≤ 4, CleanedUp Sample.config "pv1" (viewStatus e) source t (attendedRounds 4 s.world i)
      ((attendedRounds 4 s.world i).reconciled Sample.config "pv1") := by
  obtain ⟨s, hrun, hdue⟩ := Run.exists_of_runList (p := cleanupDue)
    (show (runList (guarded (System.step Sample.config) System.Current) System.init
      toCleanup).any _ = true by decide +kernel)
  obtain ⟨hstored, hattends⟩ := Bool.and_eq_true_iff.mp hdue
  obtain ⟨e, he, hstatus⟩ := (Option.any_eq_true ..).mp hstored
  simp only [Bool.and_eq_true, and_assoc, decide_eq_true_eq] at hstatus
  obtain ⟨hphase, hsource, htransfer⟩ := hstatus
  obtain ⟨source, target, t, hp, hfinishes⟩ :=
    cleanup_finishes Sample.config toCleanup s "pv1" e hrun he hphase
  rw [hp.source_eq] at hsource
  rw [hp.transfer_eq] at htransfer
  have hissued : t.targetSnapDeleteIssued = false := by simpa using htransfer
  rw [← of_decide_eq_true hsource] at hattends
  obtain ⟨-, hends⟩ := hfinishes _ (repeated_of_attendsTo hattends)
  obtain ⟨i, hi, hdone⟩ := hends fun hstranded => by
    rw [hissued] at hstranded
    exact Bool.false_ne_true hstranded.1
  exact ⟨s, e, source, t, hrun, he, hphase, i, hi, hdone⟩

end ZfsEvacuation.Cleanup
