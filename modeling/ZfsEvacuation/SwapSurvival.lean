import ZfsEvacuation.SwapRounds
import ZfsEvacuation.StatusShape

/-!
# The swap over a run

The old PV is deleted under a record that suffices to replace it, what is committed is not
aborted any more, and from wherever a run has left the swap it is brought to its end.
-/
namespace ZfsEvacuation
open ClientProgram Program GuardedRun

namespace System
variable {cfg : Config} {s s' : System} {a : SysAction} {n : String}

/-! ## The delete of the old PV -/

/-- The commit is on record, with a manifest of the replacement. -/
def CommitOnRecord (n : String) (st : ZFSEvacuationStatus) : Prop :=
  st.committed = true ∧ ∃ target r manifest spec, st.target = some target ∧
    st.pvcRef = some r ∧ st.newPvManifest = some manifest ∧
    IsReplacement n r target ⟨manifest.1, manifest.2⟩ spec

theorem SwapRecorded.onRecord {st : ZFSEvacuationStatus} (h : SwapRecorded n st)
    (hc : st.committed = true) : CommitOnRecord n st := by
  obtain ⟨source, target, r, oldPv, newPv, hrec⟩ := h
  obtain ⟨spec, hrepl⟩ := hrec.isReplacement
  exact ⟨hc, target, r, _, spec, hrec.target_eq, hrec.claim_eq, hrec.manifest, hrepl⟩

/-- A reconcile that is about to delete a PV deletes that of its evacuation, under a stored
status that has the commit on record. -/
theorem WindowBase.deletes_pv (hb : WindowBase cfg s) (hac : AllConsistent s) {r : Running}
    {key : Key} {next : Except ApiError Unit → M Action} (hr : s.running.get n = some r)
    (hprog : r.prog = .call (.delete .pv key) next) :
    key = ⟨"", n⟩ ∧ ∃ e, s.world.get .evacuation ⟨"", n⟩ = some e ∧
      CommitOnRecord n (viewStatus e) := by
  obtain ⟨st, hk, source, pv, hphase, hwrote, rfl, -⟩ :=
    hb.swap.grounded.contracted.allowed hr hprog
  obtain rfl : viewStatus r.view = st := by
    have heq := hk.eq
    rwa [hwrote] at heq
  obtain ⟨e, he, hcore⟩ := hb.stored_view hr hwrote (by rw [hphase]; rfl)
  have hcommitted := hac.known n r _ hr hk
  rw [CommitConsistent, hphase] at hcommitted
  have hrecorded := hb.recorded.known n r _ hr hk (by rw [hphase]; rfl)
  have hc : (viewStatus e).committed = true := by
    rw [committed_congr hcore, hcommitted]
    rfl
  exact ⟨hb.swap.pvKey_eq hr, e, he, SwapRecorded.onRecord (hrecorded.of_core hcore) hc⟩

/-! ## No abort after the commit -/

/-- No reconcile runs the abort of an evacuation whose commit is stored. -/
def AbortFree (s : System) : Prop :=
  ∀ n r e, s.running.get n = some r → s.world.get .evacuation ⟨"", n⟩ = some e →
    (viewStatus e).committed = true → entersAbort r.view = false

/-- The reconcile that makes the commit does not run the abort. -/
theorem Anchored.not_entersAbort (ha : Anchored cfg s) {r : Running} {c : Call}
    {next : c.Resp → M Action} (hr : s.running.get n = some r) (hprog : r.prog = .call c next)
    (hk : Knows r.view r.trace (viewStatus r.view))
    (hphase : (viewStatus r.view).phase = .committing) {e : Event kubeInterface}
    (hread : e ∈ r.trace) : entersAbort r.view = false := by
  have hended : (viewStatus r.view).phase.ended = false := by
    rw [hphase]
    rfl
  cases hdel : r.view.deleting with
  | false => simp [entersAbort, hphase, hdel]
  | true =>
    cases hc : (viewStatus r.view).committed with
    | true => simp [entersAbort, hphase, hc]
    | false =>
      rcases ha.doomed n r hr hdel hc hended with (⟨hnil, -⟩ | hfin) | hknown
      · rw [hnil] at hread
        cases hread
      · rw [hprog] at hfin
        cases hfin
      · rw [hknown _ hk] at hended
        cases hended

/-- A write that records a commit which was not on record before is that of Committing. -/
theorem Anchored.commits (ha : Anchored cfg s) {r : Running} {st w : ZFSEvacuationStatus}
    {next : Except ApiError Unit → M Action} (hr : s.running.get n = some r)
    (hprog : r.prog = .call (.patch .evacuation (evacKey r.view) (.status w)) next)
    (hk : Knows r.view r.trace st) (hw : Writes cfg r.view r.trace st w)
    (hold : st.committed = false) (hnew : w.committed = true) : entersAbort r.view = false := by
  cases hw with
  | committed source target ref oldPv newPv hphase hwrote _ _ _ seen _ _ _ _ _ =>
    obtain rfl : viewStatus r.view = st := by
      have heq := hk.eq
      rwa [hwrote] at heq
    exact ha.not_entersAbort hr hprog hk hphase seen
  | _ =>
    have hsame : st.committed = true := hnew
    rw [hold] at hsame
    cases hsame

theorem abortFree_step (hb : WindowBase cfg s) (hac : AllConsistent s) (hx : AbortFree s)
    (hg : Current s a) (h : step cfg s a = some s') : AbortFree s' := by
  intro n r' e' hr' he' hcommitted
  rcases status_step hb.informed hg.1 h he' with ⟨e, he, hstep⟩ | ⟨-, hnone, -⟩
  · cases hc : (viewStatus e).committed with
    | true =>
      -- who runs goes on from before, or starts from the stored status
      cases running_step h hr' with
      | kept _ hr _ => exact hx n r' e hr he hc
      | started version _ hstored _ heq =>
        obtain ⟨-, view, hview, hcur⟩ := hg
        obtain rfl : r'.view = view := Option.some.inj (hstored.symm.trans hview)
        obtain rfl : r'.view = e := Option.some.inj (hcur.symm.trans he)
        have hconsistent := hac.versions _ (List.mem_of_getElem? hstored)
        exact ZfsEvacuation.not_entersAbort hconsistent hc
      | called o r c next hr _ _ heq =>
        rw [heq]
        exact hx n r e hr he hc
    | false =>
      cases hstep with
      | kept _ status _ _ =>
        rw [viewStatus_congr status, hc] at hcommitted
        cases hcommitted
      | wrote r o st w next _ running prog knows writes old new _ =>
        rw [committed_congr old] at hc
        rw [committed_congr new] at hcommitted
        cases running_step h hr' with
        | kept _ _ hother => exact absurd rfl (hother o)
        | called _ r₁ _ _ hr₁ _ _ heq =>
          obtain rfl : r = r₁ := Option.some.inj (running.symm.trans hr₁)
          have hfree := hb.anchored.commits running prog knows writes hc hcommitted
          rw [heq]
          exact hfree
  · rw [viewStatus, hnone] at hcommitted
    cases hcommitted

/-! ## Runs -/

/-- What the runs keep in which reconciles start from what is stored. -/
structure SwapSound (cfg : Config) (s : System) : Prop where
  base : WindowBase cfg s
  consistent : AllConsistent s
  status : StatusSound cfg s
  free : AbortFree s
  dated : PvDated s
  sources : AllDated s

theorem Current.status (h : Current s a) : StatusCurrent s a := ⟨h.1.statuses, h.2⟩

theorem swapSound_run {as : List SysAction} (h : Run (step cfg) Current init as s) :
    SwapSound cfg s := by
  have hbase : ∀ {as s}, Run (step cfg) Current init as s →
      WindowBase cfg s ∧ AllConsistent s := fun hrun =>
    ⟨windowBase_run (fun _ _ hg => hg) hrun, (anchored_run (fun _ _ hg => hg) hrun).2.1⟩
  have hfree : AbortFree init := by
    intro n r e hr
    cases hr
  obtain ⟨hdated, hsources⟩ := dated_run (fun _ _ hg => hg) h
  exact ⟨(hbase h).1, (hbase h).2, statusSound_run (h.mono fun _ _ hg => hg.status),
    h.invariant_over hbase hfree fun _ _ _ hb hx hg hs => abortFree_step hb.1 hb.2 hx hg hs,
    hdated, hsources⟩

/-- From a stored status in the middle of a swap on, all that was said about rounds holds. -/
theorem SwapSound.swapPoint (hx : SwapSound cfg s) (ht : SwapTracked unpoliced s)
    {e : Obj .evacuation} {source : SourceInfo} {r : PvcRef}
    (he : s.world.get .evacuation ⟨"", n⟩ = some e) (hphase : (viewStatus e).phase = .swapping)
    (hs : (viewStatus e).source = some source) (hr : (viewStatus e).pvcRef = some r) :
    ∃ newPv spec, SwapPlan n (viewStatus e) source r newPv spec ∧
      SwapPoint n (viewStatus e) source s.world := by
  have hmem := hx.base.swap.grounded.recorded.stored _ e he
  have hname : e.name = n := (evac_key_name he).2
  have hrecorded := hx.base.recorded.versions e hmem (by rw [hphase]; rfl)
  rw [hname] at hrecorded
  obtain ⟨source', target, r', oldPv, newPv, hrec⟩ := hrecorded
  obtain ⟨spec, hrepl⟩ := hrec.isReplacement
  obtain rfl : r = r' := Option.some.inj (hr.symm.trans hrec.claim_eq)
  have hcommitted := hx.consistent.versions e hmem
  rw [CommitConsistent, hphase] at hcommitted
  have hfin := hx.base.anchored.stored n e he (by rw [hphase]; rfl)
  have hpvName := hx.base.swap.named e hmem
  rw [hname] at hpvName
  refine ⟨newPv, spec, ⟨hphase, hcommitted, hs, hr, hrec.manifest, target, hrec.target_eq, hrepl⟩,
    ⟨⟨e, he, rfl, hpvName, hfin⟩, ht.stored n e he hphase, hx.dated.kept _, ?_⟩⟩
  exact hx.sources.versions e hmem source hs

/-- Behind the commit the phase stays behind it. -/
theorem committed_of_later {p q : Phase} (h : Relation.ReflTransGen Phase.Next p q)
    (hp : p.committed = true) : q.committed = true := by
  have hrank : ∀ p : Phase, p.committed = true ↔ ∃ i, p.rank = some i ∧ 9 ≤ i := by
    intro p
    cases p <;> simp [Phase.committed, Phase.rank]
  induction h with
  | refl => exact hp
  | tail _ hnext ih =>
    cases hnext with
    | forward _ _ i hi hnext =>
      obtain ⟨j, hj, hle⟩ := (hrank _).mp ih
      obtain rfl : i = j := Option.some.inj (hi.symm.trans hj)
      exact (hrank _).mpr ⟨i + 1, hnext, by omega⟩
    | aborting _ _ hc | failed _ _ hc =>
      rw [hc] at ih
      cases ih
    | gaveUp => cases ih

/-- The old PV is deleted under a stored commit with the manifest of the replacement, a stored
commit is not aborted, and from every state that a run leaves behind the swap comes to its
end: exactly the replacement is bound and has its policy back before the cleanup starts. -/
theorem swap_survives (cfg : Config) :
    (∀ as s n, Run (step cfg) Current init as s →
      (∀ r key, ∀ next : Except ApiError Unit → M Action, s.running.get n = some r →
        r.prog = .call (.delete .pv key) next → key = ⟨"", n⟩ ∧
          ∃ e, s.world.get .evacuation ⟨"", n⟩ = some e ∧ CommitOnRecord n (viewStatus e)) ∧
      ∀ e, s.world.get .evacuation ⟨"", n⟩ = some e → (viewStatus e).committed = true →
        (∀ r, s.running.get n = some r → entersAbort r.view = false) ∧
        ∀ bs t e', Run (step cfg) Current s bs t →
          t.world.get .evacuation ⟨"", n⟩ = some e' → e'.metadata.uid = e.metadata.uid →
            (viewStatus e').committed = true ∧ (viewStatus e').phase.committed = true) ∧
    ∀ as s n e source r ws, Run (step cfg) (SwapsAlone unpoliced) init as s →
      s.world.get .evacuation ⟨"", n⟩ = some e → (viewStatus e).source = some source →
      (viewStatus e).pvcRef = some r → ws 0 = s.world → Rerun cfg n source r ws →
        ((viewStatus e).phase = .swapping → ∃ newPv spec,
          SwapPlan n (viewStatus e) source r newPv spec ∧
          ∃ i ≤ 2, SwapDone n (viewStatus e) source r spec ((ws i).reconciled cfg n) ∧
            ∀ j ≤ i, SwapPoint n (viewStatus e) source (ws j)) ∧
        ∀ target oldPv newPv, CommitReady cfg n e source target r oldPv newPv s.world →
          ∃ st spec, st.core = (commitRecord (viewStatus e) oldPv newPv).core ∧
            SwapPlan n st source r newPv spec ∧
            ∃ i ≤ 3, SwapDone n st source r spec ((ws i).reconciled cfg n) ∧
              ∀ j < i, SwapPoint n st source (ws (j + 1)) := by
  refine ⟨fun as s n h => ?_, fun as s n e source r ws h he hs hr h0 hrerun => ?_⟩
  · have hx := swapSound_run h
    refine ⟨fun r key next hr hprog => hx.base.deletes_pv hx.consistent hr hprog,
      fun e he hc => ⟨fun r hr => hx.free n r e hr he hc, fun bs t e' hrun he' huid => ?_⟩⟩
    have hcurrent := hrun.mono fun _ _ hg => Current.status hg
    have hlater := later_run hx.status hcurrent he he' huid
    have hphase : (viewStatus e).phase.committed = true := by
      have hconsistent := (hx.status.tracked n e he).committed
      rwa [CommitConsistent, hc, eq_comm] at hconsistent
    have hphase' := committed_of_later hlater.phase hphase
    have hx' := swapSound_run (h.append hrun)
    have hconsistent := (hx'.status.tracked n e' he').committed
    rw [CommitConsistent] at hconsistent
    exact ⟨hconsistent.trans hphase', hphase'⟩
  · have hx := swapSound_run (h.mono fun _ _ hg => hg.1)
    refine ⟨fun hphase => ?_, fun target oldPv newPv hready => ?_⟩
    · obtain ⟨newPv, spec, hp, hpt⟩ :=
        hx.swapPoint (swapTracked_run ignoresPolicy_unpoliced h) he hphase hs hr
      rw [← h0] at hpt
      exact ⟨newPv, spec, hp, swap_converges hp hrerun hpt⟩
    · have hmem := hx.base.swap.grounded.recorded.stored _ e he
      have hfresh := hx.sources.versions e hmem source hs
      have hkept := hx.dated.kept ⟨"", n⟩
      rw [← h0] at hready hkept hfresh
      exact commit_converges hready hkept hfresh hrerun

/-! ### A swap that was left without a PV -/

/-- The PV controller binds the PV. -/
def bindPv (w : World) (n : String) : World :=
  match w.get .pv ⟨"", n⟩ with
  | none => w
  | some ⟨m, (data : PersistentVolume)⟩ =>
    w.env (.update .pv ⟨m, ({ data with phase := some "Bound" } : PersistentVolume)⟩)

/-- The PV controller reports the phase of the PV. -/
def reportPv (w : World) (n phase : String) : World :=
  match w.get .pv ⟨"", n⟩ with
  | none => w
  | some ⟨m, (data : PersistentVolume)⟩ =>
    w.env (.update .pv ⟨m, ({ data with phase := some phase } : PersistentVolume)⟩)

/-- The PV has its phase, and all else is as it was. -/
structure PvReported (n phase : String) (pv : Obj .pv) (w w' : World) : Prop where
  pv : ∃ pv', w'.get .pv ⟨"", n⟩ = some pv' ∧ pvPhase pv' = some phase ∧ pvSpec pv' = pvSpec pv ∧
    pv'.metadata.uid = pv.metadata.uid ∧ pv'.gone = false
  others : ∀ k key, k ≠ .pv → w'.get k key = w.get k key
  revision : w.revision ≤ w'.revision

theorem pvReported_reportPv {w : World} {pv : Obj .pv} (phase : String)
    (hpv : w.get .pv ⟨"", n⟩ = some pv) (hkept : pv.gone = false) :
    PvReported n phase pv w (reportPv w n phase) := by
  obtain ⟨m, data⟩ := pv
  have hkey : m.key = ⟨"", n⟩ := World.get_key hpv
  let told : Obj .pv := ⟨m, ({ (data : PersistentVolume) with phase := some phase } :
    PersistentVolume)⟩
  have hget : w.get .pv told.key = some ⟨m, data⟩ := by
    rw [show told.key = ⟨"", n⟩ from hkey]
    exact hpv
  have hreport : reportPv w n phase = w.update told := by
    have hedit : reportPv w n phase = w.env (.update .pv told) := by rw [reportPv, hpv]
    rw [hedit]
    simp only [World.env, hget]
    rfl
  have hself := World.get_update_self w told
  rw [show told.key = ⟨"", n⟩ from hkey, show told.gone = false from hkept] at hself
  rw [hreport]
  exact ⟨⟨_, hself, rfl, rfl, rfl, hkept⟩,
    fun k key hk => World.get_update_other w told fun hsame => absurd hsame hk,
    World.revision_le_update w told⟩

theorem reportPv_none {w : World} (phase : String) (hpv : w.get .pv ⟨"", n⟩ = none) :
    reportPv w n phase = w := by rw [reportPv, hpv]

/-- Nothing but the phase is new, so what was asked for meanwhile is given. -/
theorem PvReported.meanwhile {w w' : World} {source : SourceInfo} {pv : Obj .pv} {phase : String}
    (h : PvReported n phase pv w w') (hpv : w.get .pv ⟨"", n⟩ = some pv)
    (hbinds : ∀ pv', w'.get .pv ⟨"", n⟩ = some pv' → Claimed w' pv' → phase = "Bound") :
    Meanwhile n source w w' := by
  obtain ⟨pv', hpv', hphase, hspec, huid, hgone⟩ := h.pv
  refine ⟨fun e he => ⟨e, (h.others _ _ (by decide)).trans he, rfl, rfl, id⟩,
    fun pv'' hpv'' => ?_, fun _ _ _ => ⟨pv', hpv', fun hclaimed => ?_⟩, h.revision⟩
  · obtain rfl := Option.some.inj (hpv'.symm.trans hpv'')
    refine ⟨hgone, pv, hpv, huid, ?_⟩
    rw [observed, observed, hspec]
  · rw [hphase, hbinds pv' hpv' hclaimed]

theorem meanwhile_refl {w : World} {source : SourceInfo}
    (hpv : ∀ pv, w.get .pv ⟨"", n⟩ = some pv → pv.gone = false ∧
      (pv.metadata.uid ≠ source.pvUid → Claimed w pv → pvPhase pv = some "Bound")) :
    Meanwhile n source w w where
  evac e he := ⟨e, he, rfl, rfl, id⟩
  pv pv' hpv' := ⟨(hpv pv' hpv').1, pv', hpv', rfl, rfl⟩
  binds pv' hpv' hnew := ⟨pv', hpv', (hpv pv' hpv').2 hnew⟩
  revision := Nat.le_refl _

theorem meanwhile_bindPv {w : World} {source : SourceInfo}
    (hkept : ∀ pv, w.get .pv ⟨"", n⟩ = some pv → pv.gone = false) :
    Meanwhile n source w (bindPv w n) := by
  have hsame : bindPv w n = reportPv w n "Bound" := rfl
  rw [hsame]
  cases hpv : w.get .pv ⟨"", n⟩ with
  | none =>
    rw [reportPv_none _ hpv]
    refine meanwhile_refl fun pv hsome => ?_
    rw [hpv] at hsome
    cases hsome
  | some pv => exact (pvReported_reportPv "Bound" hpv (hkept pv hpv)).meanwhile hpv fun _ _ _ => rfl

/-- The controller crashes between the deletion of the old PV and the next reconcile. -/
def leftSwap : List SysAction := committedOnce ++ Sample.reconcileOf "pv1" 12 4 ++ [.crash]

/-- The controller crashes before the commit. -/
def leftCommit : List SysAction := Sample.toCommitting ++ [.crash]

/-- After the next reconcile, with the PV bound. -/
def bound (w : World) : World := bindPv (w.reconciled Sample.config "pv1") "pv1"

/-- Rounds up to a last one. -/
def rounds (last : Nat) (w : World) (i : Nat) : World := bound^[min i last] w

/-- The claim exists, no pod uses it, and nobody else holds on to the old PV. -/
def restful (r : PvcRef) (old : Uid) (w : World) : Bool :=
  ((w.get .pvc r.key).any fun pvc => pvc.metadata.uid = r.uid) &&
  ((w.get .evacuation ⟨"", "pv1"⟩).all fun e => (specOf e).mode = .whenIdle) &&
  (podsOf w r).isEmpty && (w.get .pv ⟨"", "pv1"⟩).all fun pv => pv.metadata.uid = old →
    ∀ f ∈ pv.metadata.finalizers, f = pvProtection ∨ f = provisionerFinalizer

/-- Everybody rests in these rounds, and the last one is none of a swap. -/
def settles (r : PvcRef) (old : Uid) (last : Nat) (w : World) : Bool :=
  ((List.range (last + 1)).all fun i => restful r old (rounds last w i)) &&
  ((List.range last).all fun i =>
    (((rounds last w i).reconciled Sample.config "pv1").get .pv ⟨"", "pv1"⟩).all fun pv =>
      !pv.gone) &&
  (((rounds last w last).reconciled Sample.config "pv1").get .evacuation ⟨"", "pv1"⟩).all fun e =>
    (viewStatus e).phase ≠ .swapping

theorem rerun_of_settles {r : PvcRef} {old : Uid} {last : Nat} {w : World} {source : SourceInfo}
    (hold : source.pvUid = old) (h : settles r old last w = true) :
    Rerun Sample.config "pv1" source r (rounds last w) := by
  simp only [settles, Bool.and_eq_true, List.all_eq_true, List.mem_range, and_assoc] at h
  obtain ⟨hrest, hkept, hover⟩ := h
  have hmin (i : Nat) : rounds last w i = rounds last w (min i last) := by simp [rounds]
  have hfacts (i : Nat) : restful r old (rounds last w i) = true := by
    rw [hmin]
    exact hrest _ (by omega)
  simp only [restful, Bool.and_eq_true, and_assoc] at hfacts
  refine ⟨fun i => ?_, fun i e he => ?_, fun i pv hpv huid => ?_, fun i e he hswap => ?_⟩
  · obtain ⟨pvc, hpvc, huid⟩ := (Option.any_eq_true ..).mp (hfacts i).1
    exact ⟨pvc, hpvc, of_decide_eq_true huid⟩
  · have hmode := (hfacts i).2.1
    rw [he] at hmode
    have hidle : (specOf e).mode = .whenIdle := of_decide_eq_true hmode
    rw [Unhindered, hidle]
    exact List.isEmpty_iff.mp (hfacts i).2.2.1
  · have hfins := (hfacts i).2.2.2
    rw [hpv] at hfins
    exact of_decide_eq_true hfins (huid.trans hold)
  · by_cases hlt : i < last
    · have hnext : rounds last w (i + 1) = bound (rounds last w i) := by
        rw [rounds, rounds, Nat.min_eq_left hlt, Nat.min_eq_left (Nat.le_of_lt hlt),
          Function.iterate_succ_apply']
      rw [hnext]
      refine meanwhile_bindPv fun pv hpv => ?_
      have hall := hkept i hlt
      rw [hpv] at hall
      exact (Bool.not_eq_true' _).mp hall
    · rw [hmin, Nat.min_eq_right (Nat.le_of_not_lt hlt)] at he
      rw [he] at hover
      exact absurd hswap (of_decide_eq_true hover)

/-- The swap has deleted the old PV, and two more reconciles end it. -/
def leftBehind (r : PvcRef) (old : Uid) (s : System) : Bool :=
  ((s.world.get .evacuation ⟨"", "pv1"⟩).any fun e =>
    (viewStatus e).phase = .swapping && (viewStatus e).pvcRef = some r &&
      (viewStatus e).source.any fun source => source.pvUid = old) &&
  (s.world.get .pv ⟨"", "pv1"⟩).isNone && settles r old 1 s.world

/-- The commit is due, and four more reconciles end the swap behind it. -/
def leftBefore (r : PvcRef) (old : Uid) (s : System) : Bool :=
  ((s.world.get .evacuation ⟨"", "pv1"⟩).any fun e =>
    (specOf e).pvName = "pv1" && (specOf e).trigger = EvacuationTrigger.annotation &&
      evacuationFinalizer ∈ e.metadata.finalizers && !e.deleting &&
      (viewStatus e).phase = .committing && !(viewStatus e).committed &&
      (viewStatus e).pvcRef = some r &&
      ((viewStatus e).source.any fun source => source.pvUid = old) &&
      (viewStatus e).target.any fun target => (s.world.get .pv ⟨"", "pv1"⟩).any fun pv =>
        pv.metadata.uid = old && pv.metadata.annotations.get evacuateAnnotation = some "true" &&
          (renderNewPv pv r target).toOption.isSome) &&
  settles r old 3 s.world

theorem commitReady_of_left {r : PvcRef} {old : Uid} {s : System}
    (h : leftBefore r old s = true) : ∃ e source target oldPv newPv,
      source.pvUid = old ∧
        CommitReady Sample.config "pv1" e source target r oldPv newPv s.world := by
  obtain ⟨hready, hsettles⟩ := Bool.and_eq_true_iff.mp h
  obtain ⟨e, he, hstatus⟩ := (Option.any_eq_true ..).mp hready
  simp only [Bool.and_eq_true, and_assoc, decide_eq_true_eq, Bool.not_eq_true'] at hstatus
  obtain ⟨hname, htrigger, hfin, hlive, hphase, hcommitted, hr, hsource, htarget⟩ := hstatus
  obtain ⟨source, hs, huid⟩ := (Option.any_eq_true ..).mp hsource
  obtain ⟨target, ht, hpvs⟩ := (Option.any_eq_true ..).mp htarget
  obtain ⟨oldPv, hpv, hdue⟩ := (Option.any_eq_true ..).mp hpvs
  simp only [Bool.and_eq_true, and_assoc, decide_eq_true_eq] at hdue huid
  obtain ⟨hold, hrequest, hrender⟩ := hdue
  obtain ⟨newPv, hnew⟩ : ∃ newPv, renderNewPv oldPv r target = .ok newPv := by
    cases hresult : renderNewPv oldPv r target with
    | ok newPv => exact ⟨newPv, rfl⟩
    | error text =>
      rw [hresult] at hrender
      cases hrender
  have hrerun : Rerun Sample.config "pv1" source r (rounds 3 s.world) :=
    rerun_of_settles huid hsettles
  have hrequested : Requested Sample.config s.world e source oldPv := by
    rw [Requested, htrigger]
    exact hrequest
  exact ⟨e, source, target, oldPv, newPv, huid,
    { stored := he, pvName := hname, signed := hfin, live := hlive, phase := hphase
      committed := hcommitted, source_eq := hs, target_eq := ht, claim_eq := hr
      claim := hrerun.claim 0, unhindered := hrerun.unhindered 0 e he, pv := hpv
      uid := hold.trans huid.symm, rendered := hnew, requested := hrequested }⟩

theorem swap_survives_left :
    (∃ s e source r newPv spec, Run (step Sample.config) (SwapsAlone unpoliced) init leftSwap s ∧
      s.world.get .pv ⟨"", "pv1"⟩ = none ∧ SwapPlan "pv1" (viewStatus e) source r newPv spec ∧
      ∃ i ≤ 2, SwapDone "pv1" (viewStatus e) source r spec
        ((rounds 1 s.world i).reconciled Sample.config "pv1")) ∧
    ∃ s st source r newPv spec,
      Run (step Sample.config) (SwapsAlone unpoliced) init leftCommit s ∧
      SwapPlan "pv1" st source r newPv spec ∧
      ∃ i ≤ 3, SwapDone "pv1" st source r spec
        ((rounds 3 s.world i).reconciled Sample.config "pv1") := by
  obtain ⟨s, hrun, hleft⟩ := Run.exists_of_runList
    (p := leftBehind ⟨"d", "c1", 5⟩ 4)
    (show (runList (guarded (step Sample.config) (SwapsAlone unpoliced)) init
      leftSwap).any _ = true by decide +kernel)
  obtain ⟨t, hrun', hleft'⟩ := Run.exists_of_runList
    (p := leftBefore ⟨"d", "c1", 5⟩ 4)
    (show (runList (guarded (step Sample.config) (SwapsAlone unpoliced)) init
      leftCommit).any _ = true by decide +kernel)
  have hconverges := (swap_survives Sample.config).2
  constructor
  · simp only [leftBehind, Bool.and_eq_true, and_assoc] at hleft
    obtain ⟨hstored, hgone, hsettles⟩ := hleft
    obtain ⟨e, he, hstatus⟩ := (Option.any_eq_true ..).mp hstored
    simp only [Bool.and_eq_true, and_assoc, decide_eq_true_eq] at hstatus
    obtain ⟨hphase, hr, hsource⟩ := hstatus
    obtain ⟨source, hs, huid⟩ := (Option.any_eq_true ..).mp hsource
    obtain ⟨newPv, spec, hplan, i, hi, hdone, -⟩ :=
      (hconverges leftSwap s "pv1" e source _ (rounds 1 s.world) hrun he hs hr rfl
        (rerun_of_settles (of_decide_eq_true huid) hsettles)).1 hphase
    exact ⟨s, e, source, _, newPv, spec, hrun, Option.isNone_iff_eq_none.mp hgone, hplan, i, hi,
      hdone⟩
  · obtain ⟨e, source, target, oldPv, newPv, huid, hready⟩ := commitReady_of_left hleft'
    obtain ⟨st, spec, -, hplan, i, hi, hdone, -⟩ :=
      (hconverges leftCommit t "pv1" e source _ (rounds 3 t.world) hrun' hready.stored
        hready.source_eq hready.claim_eq rfl
        (rerun_of_settles huid (Bool.and_eq_true_iff.mp hleft').2)).2 target oldPv newPv hready
    exact ⟨t, st, source, _, newPv, spec, hrun', hplan, i, hi, hdone⟩

end System

end ZfsEvacuation
