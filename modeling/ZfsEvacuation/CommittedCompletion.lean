import ZfsEvacuation.CleanupConvergence
import ZfsEvacuation.Footprint
import ZfsEvacuation.TransferNames

/-!
# From the commit to the end

What has been committed is completed: the swap hands the evacuation over to the cleanup as the
cleanup needs it, and nothing is stranded there yet.
-/
namespace ZfsEvacuation
open ClientProgram Program GuardedRun

/-! ## What the swap leaves of the evacuation -/

/-- All that the call may do to an evacuation is to write its status. -/
def WritesStatusOnly : Call → Prop
  | .create .evacuation _ | .replace .evacuation _ | .delete .evacuation _ => False
  | .patch .evacuation _ p => ∃ st, p = .status st
  | _ => True

/-- The evacuation names its PV, and the finalizer of the controller holds it. -/
def HeldFor (n : String) (w : World) : Prop :=
  ∃ e, w.get .evacuation ⟨"", n⟩ = some e ∧ (specOf e).pvName = n ∧
    evacuationFinalizer ∈ e.metadata.finalizers

section Swap
variable {cfg : Config} {evac : Obj .evacuation} {st : ZFSEvacuationStatus} {n : String}
  {w : World} {source : SourceInfo} {r : PvcRef}
  {spec : PersistentVolumeSpec}

theorem WritesStatusOnly.patched {c : Call} {o : Obj .evacuation} (h : WritesStatusOnly c)
    (hw : World.Written w c .evacuation o) :
    ∃ key st cur, w.get .evacuation key = some cur ∧ o = (Patch.status st).apply cur := by
  cases hw with
  | create _ _ | replace _ _ _ _ | delete _ _ _ _ => exact False.elim h
  | patch key p cur hget =>
    obtain ⟨st, rfl⟩ := h
    exact ⟨key, st, cur, hget, rfl⟩

theorem HeldFor.effect {c : Call} (h : HeldFor n w) (hc : WritesStatusOnly c) :
    HeldFor n (w.effect c) := by
  obtain ⟨e, he, hname, hfin⟩ := h
  have hcur : ∀ o, World.Written w c .evacuation o → o.key = ⟨"", n⟩ →
      ∃ st, o = (Patch.status st).apply e := by
    intro o hw hkey
    obtain ⟨key, st, cur, hget, rfl⟩ := hc.patched hw
    obtain rfl : key = ⟨"", n⟩ :=
      (World.get_key hget).symm.trans ((Patch.key_apply _ _).symm.trans hkey)
    obtain rfl := Option.some.inj (he.symm.trans hget)
    exact ⟨st, rfl⟩
  cases hafter : (w.effect c).get .evacuation ⟨"", n⟩ with
  | none =>
    obtain ⟨o, hw, hkey, hgone⟩ := World.get_effect_none he hafter
    obtain ⟨st, rfl⟩ := hcur o hw hkey
    have hthere : ((Patch.status st).apply e).gone = false :=
      Cleanup.not_gone_of_signed (e := e) hfin
    rw [hthere] at hgone
    cases hgone
  | some e' =>
    rcases World.get_effect hafter with hold | ⟨o, hw, hkey, rfl, -⟩
    · exact ⟨e', hafter, Option.some.inj (he.symm.trans hold) ▸ ⟨hname, hfin⟩⟩
    · obtain ⟨st, rfl⟩ := hcur o hw hkey
      exact ⟨_, hafter, hname, hfin⟩

theorem swapping_writesStatusOnly : Issues WritesStatusOnly (swapping cfg evac st) := by
  have hwrites (st : ZFSEvacuationStatus) : Issues WritesStatusOnly (writeStatus evac.name st) :=
    issues_writeStatus ⟨st, rfl⟩
  have hstrip : Issues WritesStatusOnly (do
      setFinalizers .pv ⟨"", (specOf evac).pvName⟩ stripPvFinalizers
      pure (requeueSecs 2)) :=
    issues_bind (issues_setFinalizers trivial fun _ => trivial) fun _ => trivial
  have hadvance : Issues WritesStatusOnly (advance evac.name st .cleaningUp) :=
    issues_bind (hwrites _) fun _ => trivial
  refine issues_bind issues_orErr fun source => issues_bind issues_orErr fun r => ?_
  refine issues_bind (issues_getOpt trivial) fun pv => ?_
  cases pv with
  | none =>
    exact issues_bind issues_orErr fun manifest =>
      issues_bind (issues_createIfAbsent trivial) fun _ => trivial
  | some pv =>
    simp only
    split_ifs
    · refine issues_bind (issues_podsReferencingPvc trivial) fun pods => ?_
      refine issues_bind (issues_blockingReason pods fun _ => trivial) fun reason => ?_
      cases reason with
      | some msg =>
        simp only [wait]
        split_ifs
        · exact issues_bind (hwrites _) fun _ => trivial
        · trivial
      | none => exact issues_bind (issues_deleteObj trivial) fun _ => hstrip
    · exact hstrip
    · cases st.originalReclaimPolicy with
      | none => exact hadvance
      | some orig => exact issues_bind (issues_patchObj trivial) fun _ => hadvance
    · trivial

/-- The end of the swap is the start of a cleanup. -/
theorem SwapDone.kept {st₀ : ZFSEvacuationStatus} {newPv : Obj .pv} {t : TransferStatus}
    (hdone : SwapDone n st source r spec (w.reconciled cfg n))
    (hp : SwapPlan n st source r newPv spec) (hpt : SwapPoint n st source w)
    (hs : st₀.source = st.source) (ht : st₀.target = st.target) (hr : st₀.pvcRef = st.pvcRef)
    (hkept : st.transfer = st₀.transfer) (htransfer : st₀.transfer = some t)
    (hunissued : t.targetSnapDeleteIssued = false) :
    Cleanup.Kept n st₀ false (w.reconciled cfg n) := by
  obtain ⟨e, he, hst, hname, hfin⟩ := hpt.stored
  have hheld : HeldFor n (w.reconciled cfg n) := by
    rw [reconciled_eq he, reconcile_swapping hst hp.phase hp.committed hfin]
    have hissues : Issues WritesStatusOnly (swapping cfg e st) := swapping_writesStatusOnly
    exact Ends.exec (hissues.ends (fun c w' hc hheld => hheld.effect hc) ⟨e, he, hname, hfin⟩)
  obtain ⟨e', he', hname', hfin'⟩ := hheld
  obtain ⟨e'', he'', hcore⟩ := hdone.stored
  obtain rfl := Option.some.inj (he'.symm.trans he'')
  have hphase := congrArg ZFSEvacuationStatus.phase hcore
  have hcommitted := congrArg ZFSEvacuationStatus.committed hcore
  have hsource := congrArg ZFSEvacuationStatus.source hcore
  have htarget := congrArg ZFSEvacuationStatus.target hcore
  have hclaim := congrArg ZFSEvacuationStatus.pvcRef hcore
  have htransfer' := congrArg ZFSEvacuationStatus.transfer hcore
  refine ⟨e', he', ⟨hphase, Eq.trans hcommitted hp.committed, Eq.trans hsource hs.symm,
    Eq.trans htarget ht.symm, Eq.trans hclaim hr.symm, ?_⟩, hname', hfin'⟩
  have hunchanged : { t with targetSnapDeleteIssued := false } = t := by
    rw [← hunissued]
  rw [htransfer, Option.map_some, hunchanged, ← htransfer, ← hkept]
  exact htransfer'

end Swap

/-! ## Every state of a run -/

namespace System
variable {cfg : Config} {n : String}

/-- Every record has its shape. -/
def AllShaped (s : System) : Prop := ∀ n st, (n, st) ∈ records s → RecordShape st

theorem allShaped_run {as : List SysAction} {s : System} (h : Run (step cfg) Current init as s) :
    AllShaped s := by
  have hinit : AllShaped init := fun n st hm => by cases hm
  exact h.invariant_over swapSound_run hinit fun s a s' hx hshape hg hstep n st hm =>
    recordShape_step hx.base.swap.grounded.contracted (Current.status hg) hshape hstep hm

/-- What a status has on record before the cleanup starts, the cleanup can work with. -/
theorem transfer_unissued {as : List SysAction} {s : System} {e : Obj .evacuation}
    (h : Run (step cfg) Current init as s) (he : s.world.get .evacuation ⟨"", n⟩ = some e)
    (hphase : (viewStatus e).phase = .committing ∨ (viewStatus e).phase = .swapping) :
    ∃ target t, (viewStatus e).target = some target ∧ (viewStatus e).transfer = some t ∧
      t.targetSnapDeleteIssued = false := by
  have hshape := allShaped_run h n _ (mem_records.mpr (.inl ⟨e, he, rfl⟩))
  have hreached : Phase.reached .adopting (viewStatus e).phase = true := by
    rcases hphase with hp | hp <;> rw [hp] <;> rfl
  have hplaced : Phase.reached .transferring (viewStatus e).phase = true := by
    rcases hphase with hp | hp <;> rw [hp] <;> rfl
  obtain ⟨target, htarget, -⟩ := hshape.target hplaced
  obtain ⟨t, ht⟩ := Option.isSome_iff_exists.mp (hshape.transfer hreached)
  refine ⟨target, t, htarget, ht, ?_⟩
  by_contra hissued
  have hlate := hshape.issued ⟨t, ht, by simpa using hissued⟩
  rcases hphase with hp | hp <;> rw [hp] at hlate <;> rcases hlate with h | h <;> cases h

end System

section Commit
variable {cfg : Config} {n : String} {e : Obj .evacuation} {source : SourceInfo} {r : PvcRef}
  {ws : Nat → World}

/-- With the last checks passed, the next reconcile starts from a swap. -/
theorem CommitReady.next {target : TargetInfo} {oldPv newPv : Obj .pv}
    (h : CommitReady cfg n e source target r oldPv newPv (ws 0))
    (hkept : ∀ pv, (ws 0).get .pv ⟨"", n⟩ = some pv → pv.gone = false)
    (hfresh : source.pvUid < (ws 0).revision) (hrerun : Rerun cfg n source r ws) : ∃ st spec,
      st.core = (commitRecord (viewStatus e) oldPv newPv).core ∧
      SwapPlan n st source r newPv spec ∧ SwapPoint n st source (ws 1) := by
  obtain ⟨st, spec, hcore, hp, hpt⟩ := h.swapPoint hkept hfresh
  obtain ⟨e', he', hst, -, -⟩ := hpt.stored
  have hm := hrerun.meanwhile 0 e' he' (by rw [hst, hp.phase])
  exact ⟨st, spec, hcore, hp, hpt.meanwhile (.refl _ _ _) (Nat.le_refl _) hpt.pv hm⟩

/-- The commit record keeps what the cleanup goes by. -/
theorem kept_of_commitRecord {st₀ st : ZFSEvacuationStatus} {oldPv newPv : Obj .pv}
    (h : st.core = (commitRecord st₀ oldPv newPv).core) : st.source = st₀.source ∧
      st.target = st₀.target ∧ st.pvcRef = st₀.pvcRef ∧ st.transfer = st₀.transfer := by
  have hsource := congrArg ZFSEvacuationStatus.source h
  have htarget := congrArg ZFSEvacuationStatus.target h
  have hclaim := congrArg ZFSEvacuationStatus.pvcRef h
  have htransfer := congrArg ZFSEvacuationStatus.transfer h
  exact ⟨hsource, htarget, hclaim, htransfer⟩

/-- A swap is followed by a cleanup that comes to its end. -/
theorem swap_completes {st₀ st : ZFSEvacuationStatus} {newPv : Obj .pv}
    {spec : PersistentVolumeSpec} {target : TargetInfo} {t : TransferStatus}
    (hp : SwapPlan n st source r newPv spec) (hrerun : Rerun cfg n source r ws)
    (hpt : SwapPoint n st source (ws 0)) (hs : st₀.source = st.source)
    (ht : st₀.target = st.target) (hr : st₀.pvcRef = st.pvcRef)
    (hkept : st.transfer = st₀.transfer) (htarget : st₀.target = some target)
    (htransfer : st₀.transfer = some t) (hunissued : t.targetSnapDeleteIssued = false) :
    ∃ i ≤ 2, SwapDone n st source r spec ((ws i).reconciled cfg n) ∧
      ∀ vs, Cleanup.Repeated cfg n source t ((ws i).reconciled cfg n) vs →
        ∃ j ≤ 4, Cleanup.CleanedUp cfg n st₀ source t (vs j) ((vs j).reconciled cfg n) := by
  obtain ⟨i, hi, hdone, hpoints⟩ := swap_converges hp hrerun hpt
  refine ⟨i, hi, hdone, fun vs hvs => ?_⟩
  have hplan : Cleanup.Plan st₀ source target t := ⟨hs.trans hp.source_eq, htarget, htransfer⟩
  have hstart := hdone.kept hp (hpoints i (Nat.le_refl i)) hs ht hr hkept htransfer hunissued
  exact Cleanup.cleanup_ends hplan hvs hstart fun hstranded => Bool.false_ne_true hstranded.1

end Commit

/-- Once the last checks before the commit are passed, an evacuation is brought to its end. First
exactly the replacement is bound, and then the source and all that was needed for the transfer
are removed, and the claim is unlocked. -/
theorem committed_completes (cfg : Config) (as : List SysAction) (s : System) (n : String)
    (e : Obj .evacuation) (source : SourceInfo) (r : PvcRef) (ws : Nat → World)
    (h : Run (System.step cfg) (System.SwapsAlone unpoliced) System.init as s)
    (he : s.world.get .evacuation ⟨"", n⟩ = some e) (hs : (viewStatus e).source = some source)
    (hr : (viewStatus e).pvcRef = some r) (h0 : ws 0 = s.world)
    (hrerun : Rerun cfg n source r ws)
    (hcommit : (viewStatus e).phase = .swapping ∨
      ∃ target oldPv newPv, CommitReady cfg n e source target r oldPv newPv s.world) :
    ∃ st t newPv spec, (viewStatus e).transfer = some t ∧ SwapPlan n st source r newPv spec ∧
      ∃ i ≤ 3, SwapDone n st source r spec ((ws i).reconciled cfg n) ∧
        ∀ vs, Cleanup.Repeated cfg n source t ((ws i).reconciled cfg n) vs →
          ∃ j ≤ 4, Cleanup.CleanedUp cfg n (viewStatus e) source t (vs j)
            ((vs j).reconciled cfg n) := by
  have hcurrent := h.mono fun _ _ hg => hg.1
  have hx := System.swapSound_run hcurrent
  have hphase : (viewStatus e).phase = .committing ∨ (viewStatus e).phase = .swapping := by
    rcases hcommit with hp | ⟨_, _, _, hready⟩
    · exact .inr hp
    · exact .inl hready.phase
  obtain ⟨target, t, htarget, ht, hunissued⟩ := System.transfer_unissued hcurrent he hphase
  rcases hcommit with hp | ⟨target', oldPv, newPv, hready⟩
  · obtain ⟨newPv, spec, hplan, hpt⟩ :=
      hx.swapPoint (System.swapTracked_run ignoresPolicy_unpoliced h) he hp hs hr
    rw [← h0] at hpt
    obtain ⟨i, hi, hdone, hends⟩ :=
      swap_completes hplan hrerun hpt rfl rfl rfl rfl htarget ht hunissued
    exact ⟨_, t, newPv, spec, ht, hplan, i, Nat.le_succ_of_le hi, hdone, hends⟩
  · have hmem := hx.base.swap.grounded.recorded.stored _ e he
    have hfresh := hx.sources.versions e hmem source hs
    have hkept := hx.dated.kept ⟨"", n⟩
    rw [← h0] at hready hkept hfresh
    obtain ⟨st, spec, hcore, hplan, hpt⟩ := hready.next hkept hfresh hrerun
    obtain ⟨hsource, htarget', hclaim, ht'⟩ := kept_of_commitRecord hcore
    obtain ⟨i, hi, hdone, hends⟩ := swap_completes hplan hrerun.later hpt hsource.symm
      htarget'.symm hclaim.symm ht' htarget ht hunissued
    exact ⟨st, t, newPv, spec, ht, hplan, i + 1, Nat.succ_le_succ hi, hdone, hends⟩

/-! ### A commit of a small cluster -/

/-- Wherever the swap ends in these rounds, the agents attend to the cleanup behind it. -/
def thenAttended (last : Nat) (w : World) : Bool :=
  (List.range (last + 1)).all fun i =>
    let w' := (System.rounds last w i).reconciled Sample.config "pv1"
    ((w'.get .evacuation ⟨"", "pv1"⟩).all fun e => (viewStatus e).phase ≠ .cleaningUp) ||
      Cleanup.attendsTo ⟨"openebs", "vol1"⟩ 4 w'

theorem repeated_of_thenAttended {last i : Nat} {w : World} {st : ZFSEvacuationStatus}
    {source : SourceInfo} {r : PvcRef} {spec : PersistentVolumeSpec} {t : TransferStatus}
    (hvol : source.volKey Sample.config = ⟨"openebs", "vol1"⟩)
    (h : thenAttended last w = true) (hi : i ≤ last)
    (hdone : SwapDone "pv1" st source r spec
      ((System.rounds last w i).reconciled Sample.config "pv1")) :
    Cleanup.Repeated Sample.config "pv1" source t
      ((System.rounds last w i).reconciled Sample.config "pv1")
      (Cleanup.attendedRounds 4 ((System.rounds last w i).reconciled Sample.config "pv1")) := by
  obtain ⟨e, he, hcore⟩ := hdone.stored
  have hphase : (viewStatus e).phase = .cleaningUp := System.phase_congr hcore
  have hround := List.all_eq_true.mp h i (List.mem_range.mpr (Nat.lt_succ_of_le hi))
  simp only [he, Option.all_some, hphase, ne_eq, not_true_eq_false, decide_false,
    Bool.false_or] at hround
  rw [← hvol] at hround
  exact Cleanup.repeated_of_attendsTo hround

theorem committed_completes_small : ∃ s e source r st t newPv spec,
    Run (System.step Sample.config) (System.SwapsAlone unpoliced) System.init System.leftCommit s ∧
    s.world.get .evacuation ⟨"", "pv1"⟩ = some e ∧ SwapPlan "pv1" st source r newPv spec ∧
    ∃ i ≤ 3, SwapDone "pv1" st source r spec
        ((System.rounds 3 s.world i).reconciled Sample.config "pv1") ∧
      ∃ w j, j ≤ 4 ∧ Cleanup.CleanedUp Sample.config "pv1" (viewStatus e) source t w
        (w.reconciled Sample.config "pv1") := by
  obtain ⟨s, hrun, hleft⟩ := Run.exists_of_runList
    (p := fun s : System => System.leftBefore ⟨"d", "c1", 5⟩ 4 s && thenAttended 3 s.world &&
      (s.world.get .evacuation ⟨"", "pv1"⟩).any fun e => (viewStatus e).source.any fun source =>
        source.volKey Sample.config = ⟨"openebs", "vol1"⟩)
    (show (runList (guarded (System.step Sample.config) (System.SwapsAlone unpoliced)) System.init
      System.leftCommit).any _ = true by decide +kernel)
  simp only [Bool.and_eq_true, and_assoc] at hleft
  obtain ⟨hbefore, hattended, hvolume⟩ := hleft
  obtain ⟨e, source, target, oldPv, newPv, huid, hready⟩ := System.commitReady_of_left hbefore
  have hvol : source.volKey Sample.config = ⟨"openebs", "vol1"⟩ := by
    rw [hready.stored, Option.any_some, hready.source_eq, Option.any_some] at hvolume
    exact of_decide_eq_true hvolume
  obtain ⟨st, t, newPv', spec, -, hplan, i, hi, hdone, hends⟩ :=
    committed_completes Sample.config System.leftCommit s "pv1" e source _
      (System.rounds 3 s.world) hrun hready.stored hready.source_eq hready.claim_eq rfl
      (System.rerun_of_settles huid (Bool.and_eq_true_iff.mp hbefore).2)
      (.inr ⟨target, oldPv, newPv, hready⟩)
  obtain ⟨j, hj, hclean⟩ := hends _ (repeated_of_thenAttended hvol hattended hi hdone)
  exact ⟨s, e, source, _, st, t, newPv', spec, hrun, hready.stored, hplan, i, hi, hdone, _, j, hj,
    hclean⟩

end ZfsEvacuation
