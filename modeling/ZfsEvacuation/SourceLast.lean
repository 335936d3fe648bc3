import ZfsEvacuation.SwapWindow

/-!
# The source goes last

The cleanup destroys the source on the strength of what Swapping saw when it advanced, and
does not look at the PV again.
-/
namespace ZfsEvacuation
open ClientProgram Program GuardedRun

/-- The volume a PV points at. -/
def csiHandle (spec : PersistentVolumeSpec) : Option String := spec.csi.map (·.volumeHandle)

theorem ignoresPolicy_csiHandle : System.IgnoresPolicy csiHandle := fun _ _ => rfl

/-- The PV is bound to the claim and points at the volume on the target. -/
structure PointsAtTarget (pv : Obj .pv) (ref : PvcRef) (target : TargetInfo) : Prop where
  bound : boundTo pv ref.uid = true
  handle : (pvSpec pv).bind csiHandle = some target.newVolumeHandle

/-- Behind the swap. -/
def Phase.swapped : Phase → Bool
  | .cleaningUp | .completed => true
  | _ => false

namespace System
variable {cfg : Config} {s s' : System} {a : SysAction} {n : String} {as : List SysAction}

/-- A reconcile that has read this PV writes that the swap is over. -/
def Advances (n : String) (source : SourceInfo) (target : TargetInfo) (ref : PvcRef)
    (pv : Obj .pv) (s : System) (a : SysAction) : Prop :=
  ∃ o r w, ∃ next : Except ApiError Unit → M Action, a = .call n o ∧
    s.running.get n = some r ∧ r.prog = .call (.patch .evacuation ⟨"", n⟩ (.status w)) next ∧
    r.status.phase = .swapping ∧ w.phase = .cleaningUp ∧ r.status.source = some source ∧
    r.status.target = some target ∧ r.status.pvcRef = some ref ∧
    sawEvent .pv ⟨"", n⟩ (some pv) ∈ r.trace

/-- The swap of this move was declared over with a PV that points at the target. -/
def SwapVerified (cfg : Config) (as : List SysAction) (n : String) (st : ZFSEvacuationStatus) :
    Prop :=
  ∃ source target ref pv, st.source = some source ∧ st.target = some target ∧
    st.pvcRef = some ref ∧ Happened (step cfg) init (Advances n source target ref pv) as ∧
    PointsAtTarget pv ref target

theorem SwapVerified.congr {st st' : ZFSEvacuationStatus} (h : SwapVerified cfg as n st)
    (hs : st'.source = st.source) (ht : st'.target = st.target) (hr : st'.pvcRef = st.pvcRef) :
    SwapVerified cfg as n st' := by
  rwa [SwapVerified, hs, ht, hr]

theorem SwapVerified.of_core {st st' : ZFSEvacuationStatus} (h : SwapVerified cfg as n st)
    (hcore : st'.core = st.core) : SwapVerified cfg as n st' := by
  have hs := congrArg ZFSEvacuationStatus.source hcore
  have ht := congrArg ZFSEvacuationStatus.target hcore
  have hr := congrArg ZFSEvacuationStatus.pvcRef hcore
  exact h.congr hs ht hr

theorem SwapVerified.later {st : ZFSEvacuationStatus} (h : SwapVerified cfg as n st)
    (a : SysAction) : SwapVerified cfg (as ++ [a]) n st := by
  obtain ⟨source, target, ref, pv, hs, ht, hr, hadvance, hpv⟩ := h
  exact ⟨source, target, ref, pv, hs, ht, hr, hadvance.append [a], hpv⟩

/-- A PV that looks like the one of the manifest has the volume on the target. -/
theorem manifest_handle {st : ZFSEvacuationStatus} (h : SwapRecorded n st)
    {manifest : ObjectMeta × PersistentVolume} (hm : st.newPvManifest = some manifest)
    {pv : Obj .pv}
    (hobs : observed csiHandle pv = observed csiHandle (⟨manifest.1, manifest.2⟩ : Obj .pv)) :
    ∃ target, st.target = some target ∧
      (pvSpec pv).bind csiHandle = some target.newVolumeHandle := by
  obtain ⟨source, target, ref, oldPv, newPv, hrec⟩ := h
  obtain ⟨spec, hnew⟩ := hrec.isReplacement
  obtain rfl : manifest = (newPv.metadata, newPv.data) :=
    Option.some.inj (hm.symm.trans hrec.manifest)
  obtain ⟨csi, hcsi, hhandle⟩ := hnew.handle
  refine ⟨target, hrec.target_eq, ?_⟩
  have hsame : (pvSpec pv).map csiHandle = some (csiHandle spec) := by
    rw [show (pvSpec pv).map csiHandle = observed csiHandle pv from rfl, hobs, observed]
    exact congrArg (Option.map csiHandle) hnew.spec_eq
  cases hspec : pvSpec pv with
  | none =>
    rw [hspec] at hsame
    cases hsame
  | some spec' =>
    rw [hspec] at hsame
    rw [Option.bind_some, Option.some.inj hsame, csiHandle, hcsi]
    exact congrArg some hhandle

/-- The PV that Swapping takes for the replacement points at the target. -/
theorem pointsAtTarget_of_swapped (hb : WindowBase cfg s) (hx : SwapTracked csiHandle s)
    {r : Running} {source : SourceInfo} {ref : PvcRef} {pv : Obj .pv}
    (hr : s.running.get n = some r) (hwrote : written r.trace = none)
    (hphase : (viewStatus r.view).phase = .swapping)
    (hs : (viewStatus r.view).source = some source)
    (hseen : sawEvent .pv (pvKey r.view) (some pv) ∈ r.trace)
    (huid : pv.metadata.uid ≠ source.pvUid) (hbound : boundTo pv ref.uid = true) :
    ∃ target, (viewStatus r.view).target = some target ∧ PointsAtTarget pv ref target := by
  rcases hx.swapping n r pv hr hwrote hphase hseen with ⟨source', hs', hold⟩ | ⟨manifest, hm, hobs⟩
  · obtain rfl : source = source' := Option.some.inj (hs.symm.trans hs')
    exact absurd hold huid
  · have hrecorded : SwapRecorded n (viewStatus r.view) :=
      hb.recorded.known n r _ hr (knows_view hwrote) (by rw [hphase]; rfl)
    obtain ⟨target, ht, hhandle⟩ := manifest_handle hrecorded hm hobs
    exact ⟨target, ht, hbound, hhandle⟩

/-- Every status behind the swap that is or was stored, or is known to a reconcile, is one of
a verified swap. -/
structure AllVerified (cfg : Config) (as : List SysAction) (s : System) : Prop where
  versions : ∀ v ∈ s.world.versions, (viewStatus v).phase.swapped = true →
    SwapVerified cfg as v.name (viewStatus v)
  known : ∀ n r st, s.running.get n = some r → Knows r.view r.trace st →
    st.phase.swapped = true → SwapVerified cfg as n st

/-- A status behind the swap is written by Swapping, or after a status behind the swap. -/
theorem verified_of_write (hb : WindowBase cfg s) (hx : SwapTracked csiHandle s)
    (hv : AllVerified cfg as s) (hrun : runList (step cfg) init as = some s) {r : Running}
    (o : Outcome) {w st : ZFSEvacuationStatus} {next : Except ApiError Unit → M Action}
    (hr : s.running.get n = some r)
    (hprog : r.prog = .call (.patch .evacuation (evacKey r.view) (.status w)) next)
    (hk : Knows r.view r.trace st) (hw : Writes cfg r.view r.trace st w)
    (hphase : w.phase.swapped = true) : SwapVerified cfg (as ++ [.call n o]) n w := by
  have hbefore : st.phase.swapped = true → SwapVerified cfg (as ++ [.call n o]) n st :=
    fun hst => (hv.known n r st hr hk hst).later (.call n o)
  cases hw with
  | swapped source ref pv hp hwrote hs hc seen huid hbound =>
    have hview : viewStatus r.view = st := by
      have heq := hk.eq
      rwa [hwrote] at heq
    have hstatus : r.status = st := hk.eq
    obtain ⟨target, ht, hpv⟩ := pointsAtTarget_of_swapped hb hx hr hwrote (by rw [hview, hp])
      (by rw [hview, hs]) seen huid hbound
    rw [hview] at ht
    rw [evacKey, name_of_running hr] at hprog
    rw [hb.swap.pvKey_eq hr] at seen
    exact ⟨source, target, ref, pv, hs, ht, hc, .now hrun ⟨o, r, _, next, rfl, hr, hprog,
      hstatus ▸ hp, rfl, hstatus ▸ hs, hstatus ▸ ht, hstatus ▸ hc, seen⟩, hpv⟩
  | shown _ _ _ =>
    have hst := hbefore hphase
    exact hst.congr rfl rfl rfl
  | snapDeleteIssued _ =>
    have hst := hbefore hphase
    exact hst.congr rfl rfl rfl
  | completed hp _ =>
    have hst := hbefore (by rw [hp]; rfl)
    exact hst.congr rfl rfl rfl
  | settles _ hp | attempted _ _ _ _ _ hp _ _ _ _ | attemptFailing _ _ hp | progressed _ _ hp _
  | blocked _ hp =>
    have hcon : st.phase.swapped = true := hphase
    rw [hp] at hcon
    cases hcon
  | _ => cases hphase

theorem allVerified_step (hb : WindowBase cfg s) (hx : SwapTracked csiHandle s)
    (hrun : runList (step cfg) init as = some s) (hv : AllVerified cfg as s)
    (hl : KeepsEvacs s a) (h : step cfg s a = some s') : AllVerified cfg (as ++ [a]) s' := by
  have hevery : EveryStatus (fun n st => st.phase.swapped = true → SwapVerified cfg as n st) s :=
    ⟨hv.versions, hv.known⟩
  have hnext : EveryStatus (fun n st => st.phase.swapped = true →
      SwapVerified cfg (as ++ [a]) n st) s' := by
    refine hevery.step hb.swap.grounded hl h (fun _ _ hst hphase => (hst hphase).later a)
      (fun _ _ _ hcore hst hphase => (hst (by rwa [← phase_congr hcore])).of_core hcore)
      (fun _ hphase => by cases hphase) ?_
    intro n o r st w next ha hr hprog hk hw hphase
    rw [ha]
    exact verified_of_write hb hx hv hrun o hr hprog hk hw hphase
  exact ⟨hnext.versions, hnext.known⟩

theorem allVerified_run (h : Run (step cfg) (SwapsAlone csiHandle) init as s) :
    AllVerified cfg as s := by
  have hevery := everyStatus_init fun n st => st.phase.swapped = true → SwapVerified cfg [] n st
  have hinit : AllVerified cfg [] init := ⟨hevery.versions, hevery.known⟩
  exact h.invariant_past hinit fun as s a s' prior hv hg hs =>
    allVerified_step (windowBase_run (fun _ _ hg => hg.1) prior)
      (swapTracked_run ignoresPolicy_csiHandle prior) prior.runList_eq hv hg.1.1 hs

/-! ## The PV during the cleanup -/

/-- Once Swapping has read another PV than the old one, the old one is not stored any more. -/
def OldPvGone (s : System) : Prop :=
  ∀ n r source pv, s.running.get n = some r → written r.trace = none →
    (viewStatus r.view).phase = .swapping → (viewStatus r.view).source = some source →
    sawEvent .pv (pvKey r.view) (some pv) ∈ r.trace → pv.metadata.uid ≠ source.pvUid →
    ∀ cur, s.world.get .pv ⟨"", n⟩ = some cur → cur.metadata.uid ≠ source.pvUid

theorem oldPvGone_step (hb : WindowBase cfg s) (hd : AllDated s) (hx : OldPvGone s)
    (h : step cfg s a = some s') : OldPvGone s' := by
  intro n r' source pv hr' hwrote hphase hs hseen huid cur' hcur'
  -- an identity that is given out now is none of a recorded source
  have hlater : ∀ r, s.running.get n = some r → written r.trace = none →
      (viewStatus r.view).source = some source →
      (∀ cur, s.world.get .pv ⟨"", n⟩ = some cur → cur.metadata.uid ≠ source.pvUid) →
      cur'.metadata.uid ≠ source.pvUid := by
    intro r hr hbefore hsource hcur
    have hdated := hd.known n r _ hr (knows_view hbefore) source hsource
    cases pv_step hb.swap.grounded.contracted h hcur' with
    | kept pv₀ _ stored uid _ | edited pv₀ _ stored _ uid _ =>
      rw [uid]
      exact hcur pv₀ stored
    | appeared _ _ _ uid _ | created _ _ _ _ _ _ _ _ _ uid _ =>
      rw [uid]
      exact Nat.ne_of_gt hdated
  cases running_step h hr' with
  | kept _ hr _ => exact hlater r' hr hwrote hs (hx n r' source pv hr hwrote hphase hs hseen huid)
  | started version _ _ _ heq =>
    rw [heq] at hseen
    cases hseen
  | called o r c next hr hprog _ heq =>
    rw [heq] at hwrote hphase hs hseen
    have hbefore := (written_of_cons hwrote).2
    refine hlater r hr hbefore hs fun cur hcur => ?_
    rcases seen_step hseen with hnow | hold
    · rw [hb.swap.pvKey_eq hr, hcur] at hnow
      rwa [Option.some.inj hnow]
    · exact hx n r source pv hr hbefore hphase hs hold huid cur hcur

/-- The PV does not point at the volume of the source, if the target has another one. -/
def SparesSource (st : ZFSEvacuationStatus) (pv : Obj .pv) : Prop :=
  ∀ source target, st.source = some source → st.target = some target →
    target.newVolumeHandle ≠ source.volumeHandle →
      (pvSpec pv).bind csiHandle ≠ some source.volumeHandle

theorem SparesSource.congr {st st' : ZFSEvacuationStatus} {pv pv' : Obj .pv}
    (h : SparesSource st pv) (hs : st'.source = st.source) (ht : st'.target = st.target)
    (hspec : observed csiHandle pv' = observed csiHandle pv) : SparesSource st' pv' := by
  have hbind : ∀ x : Obj .pv, (pvSpec x).bind csiHandle = (observed csiHandle x).bind id := by
    intro x
    rw [observed]
    cases pvSpec x <;> rfl
  rw [SparesSource, hs, ht, hbind, hspec, ← hbind]
  exact h

/-- While a source is cleaned up, nobody else stores a PV under the name that points at it. -/
def KeepsPvOff (s : System) : SysAction → Prop
  | .env (.create .pv o) | .env (.update .pv o) => ∀ e,
    s.world.get .evacuation ⟨"", o.name⟩ = some e → (viewStatus e).phase = .cleaningUp →
      ∀ source, (viewStatus e).source = some source →
        (pvSpec o).bind csiHandle ≠ some source.volumeHandle
  | _ => True

/-- What is stored under the name of an evacuation in its cleanup does not point at its source. -/
def SourceSpared (s : System) : Prop :=
  ∀ n e, s.world.get .evacuation ⟨"", n⟩ = some e → (viewStatus e).phase = .cleaningUp →
    ∀ pv, s.world.get .pv ⟨"", n⟩ = some pv → SparesSource (viewStatus e) pv

/-- During the cleanup the PV under the name goes on sparing the source. -/
theorem spares_cleaning (hb : WindowBase cfg s) (hx : SourceSpared s) (hk : KeepsPvOff s a)
    (h : step cfg s a = some s') {e : Obj .evacuation}
    (he : s.world.get .evacuation ⟨"", n⟩ = some e) (hphase : (viewStatus e).phase = .cleaningUp)
    {cur' : Obj .pv} (hcur : s'.world.get .pv ⟨"", n⟩ = some cur') :
    SparesSource (viewStatus e) cur' := by
  cases pv_step hb.swap.grounded.contracted h hcur with
  | kept pv _ stored _ same =>
    exact (hx n e he hphase pv stored).congr rfl rfl (observed_congr ignoresPolicy_csiHandle same)
  | edited pv o _ hkey _ spec | appeared o _ hkey _ spec =>
    intro source _ hs _ _
    have hname : o.name = n := congrArg Key.name hkey
    rw [spec]
    exact hk e (hname ▸ he) hphase source hs
  | created n' o r pv next _ hr hprog hkey _ _ =>
    obtain ⟨st, hknows, hst, -, hkey'⟩ := hb.created hr hprog
    obtain rfl : n' = n := congrArg Key.name (hkey'.symm.trans hkey)
    have hcore := (hb.informed.synced n' r e hr he).status st hknows
    rw [phase_congr hcore, hst] at hphase
    cases hphase

/-- When Swapping advances, the PV under the name points at the target. -/
theorem spares_swapped (hb : WindowBase cfg s) (hx : SwapTracked csiHandle s) (hg : OldPvGone s)
    {r : Running} {source : SourceInfo} {pv cur : Obj .pv} {e : Obj .evacuation}
    (hr : s.running.get n = some r) (hwrote : written r.trace = none)
    (he : s.world.get .evacuation ⟨"", n⟩ = some e)
    (hcore : (viewStatus e).core = (viewStatus r.view).core)
    (hphase : (viewStatus r.view).phase = .swapping)
    (hs : (viewStatus r.view).source = some source)
    (hseen : sawEvent .pv (pvKey r.view) (some pv) ∈ r.trace)
    (huid : pv.metadata.uid ≠ source.pvUid) (hcur : s.world.get .pv ⟨"", n⟩ = some cur) :
    SparesSource (viewStatus r.view) cur := by
  have hother := hg n r source pv hr hwrote hphase hs hseen huid cur hcur
  have hstored := (hx.stored n e he ((phase_congr hcore).trans hphase) cur hcur).of_core hcore.symm
  rcases hstored with ⟨source', hs', hold⟩ | ⟨manifest, hm, hobs⟩
  · obtain rfl : source = source' := Option.some.inj (hs.symm.trans hs')
    exact absurd hold hother
  · have hrecorded : SwapRecorded n (viewStatus r.view) :=
      hb.recorded.known n r _ hr (knows_view hwrote) (by rw [hphase]; rfl)
    obtain ⟨target, ht, hhandle⟩ := manifest_handle hrecorded hm hobs
    intro source' target' hs' ht' hne heq
    obtain rfl : source = source' := Option.some.inj (hs.symm.trans hs')
    obtain rfl : target = target' := Option.some.inj (ht.symm.trans ht')
    exact hne (Option.some.inj (hhandle.symm.trans heq))

theorem sourceSpared_step (hb : WindowBase cfg s) (ht : SwapTracked csiHandle s)
    (hg : OldPvGone s) (hx : SourceSpared s) (hl : KeepsEvacs s a) (hk : KeepsPvOff s a)
    (h : step cfg s a = some s') : SourceSpared s' := by
  intro n e' he' hphase cur' hcur'
  rcases status_step hb.informed hl h he' with ⟨e, he, hstep⟩ | ⟨-, hnone, -⟩
  · cases hstep with
    | kept same status _ _ =>
      rw [viewStatus_congr status] at hphase ⊢
      exact spares_cleaning hb hx hk h he hphase hcur'
    | wrote r o st w next same running prog knows writes old new spec =>
      have hsource := congrArg ZFSEvacuationStatus.source new
      have htarget := congrArg ZFSEvacuationStatus.target new
      rw [phase_congr new] at hphase
      -- a write of the cleanup itself records the same source and target
      have hstays : st.phase = .cleaningUp → w.source = st.source → w.target = st.target →
          SparesSource (viewStatus e') cur' := by
        intro hst hws hwt
        have holds := congrArg ZFSEvacuationStatus.source old
        have holdt := congrArg ZFSEvacuationStatus.target old
        have hcleaning := spares_cleaning hb hx hk h he ((phase_congr old).trans hst) hcur'
        exact hcleaning.congr (hsource.trans (hws.trans holds.symm))
          (htarget.trans (hwt.trans holdt.symm)) rfl
      cases writes with
      | swapped source ref pv hp hwrote hs _ seen huid _ =>
        obtain rfl : viewStatus r.view = st := by
          have heq := knows.eq
          rwa [hwrote] at heq
        cases pv_step hb.swap.grounded.contracted h hcur' with
        | kept cur _ stored _ pvSame =>
          have hspared := spares_swapped hb ht hg running hwrote he old hp hs seen huid stored
          exact hspared.congr hsource htarget (observed_congr ignoresPolicy_csiHandle pvSame)
        | created _ _ r' pv' next' _ hr' hprog' _ _ _ =>
          obtain rfl : r = r' := Option.some.inj (running.symm.trans hr')
          rw [prog] at hprog'
          cases hprog'
      | shown _ _ _ => exact hstays hphase rfl rfl
      | snapDeleteIssued hp => exact hstays hp rfl rfl
      | settles _ hp | attempted _ _ _ _ _ hp _ _ _ _ | attemptFailing _ _ hp
      | progressed _ _ hp _ | blocked _ hp =>
        have hcon : st.phase = .cleaningUp := hphase
        rw [hp] at hcon
        cases hcon
      | _ => cases hphase
  · rw [viewStatus, hnone] at hphase
    cases hphase

/-- Reconciles start from what is stored, and nobody else touches the PV of an evacuation
during the swap, or points it at the source again during the cleanup. -/
def SourceApart (s : System) (a : SysAction) : Prop := SwapsAlone csiHandle s a ∧ KeepsPvOff s a

theorem sourceSpared_run (h : Run (step cfg) SourceApart init as s) : SourceSpared s := by
  have hcurrent : ∀ s a, SourceApart s a → Current s a := fun _ _ hg => hg.1.1
  have hbase : ∀ {as s}, Run (step cfg) SourceApart init as s → WindowBase cfg s ∧ AllDated s :=
    fun hrun => ⟨windowBase_run hcurrent hrun, (dated_run hcurrent hrun).2⟩
  have hgone : ∀ {as s}, Run (step cfg) SourceApart init as s →
      (WindowBase cfg s ∧ SwapTracked csiHandle s) ∧ OldPvGone s := by
    refine fun hrun => ⟨⟨(hbase hrun).1, swapTracked_run ignoresPolicy_csiHandle
      (hrun.mono fun _ _ hg => hg.1)⟩, hrun.invariant_over hbase ?_ ?_⟩
    · intro n r source pv hr
      cases hr
    · exact fun _ _ _ hb hx _ hs => oldPvGone_step hb.1 hb.2 hx hs
  refine h.invariant_over hgone ?_ fun _ _ _ hb hx hg hs =>
    sourceSpared_step hb.1.1 hb.1.2 hb.2 hx hg.1.1.1 hg.2 hs
  intro n e he
  cases he

/-! ## The source -/

/-- The next call of the reconcile deletes the source volume or takes its guard off. -/
def ActsOnSource (cfg : Config) (r : Running) (source : SourceInfo) : Prop :=
  (∃ next : Except ApiError Unit → M Action,
      r.prog = .call (.delete .zfsVolume (source.volKey cfg)) next) ∨
    ∃ fs, ∃ next : Except ApiError Unit → M Action,
      r.prog = .call (.patch .zfsVolume (source.volKey cfg) (.finalizers fs)) next

theorem ActsOnSource.knows (hc : Contracted cfg s) {r : Running} {source : SourceInfo}
    (hr : s.running.get n = some r) (h : ActsOnSource cfg r source) :
    Knows r.view r.trace r.status := by
  rcases h with ⟨next, hprog⟩ | ⟨fs, next, hprog⟩
  · obtain ⟨st, hk, -⟩ := hc.allowed hr hprog
    rwa [show r.status = st from hk.eq]
  · obtain ⟨st, hk, -⟩ := hc.allowed hr hprog
    rwa [show r.status = st from hk.eq]

theorem ActsOnSource.busy {r : Running} {source : SourceInfo} (h : ActsOnSource cfg r source) :
    r.prog.finished = false := by
  rcases h with ⟨next, hprog⟩ | ⟨fs, next, hprog⟩ <;> rw [hprog] <;> rfl

/-- In every run in which reconciles start from what is stored, and nobody else creates the PV
of an evacuation or changes its volume handle during the commit and the swap, or points it at
the source during the cleanup: when the cleanup acts on the source, Swapping has read a PV that
was bound to the claim and pointed at the target before it advanced, and the PV that is stored
now does not point at the source, if the target has another volume. -/
theorem source_goes_last (cfg : Config) (as : List SysAction) (s : System) (n : String)
    (r : Running) (source : SourceInfo)
    (h : Run (step cfg) SourceApart init as s) (hr : s.running.get n = some r)
    (hphase : r.status.phase = .cleaningUp) (hs : r.status.source = some source)
    (hact : ActsOnSource cfg r source) : ∃ target ref pv, r.status.target = some target ∧
      r.status.pvcRef = some ref ∧
      Happened (step cfg) init (Advances n source target ref pv) as ∧
      PointsAtTarget pv ref target ∧
      (target.newVolumeHandle ≠ source.volumeHandle → ∀ cur, s.world.get .pv ⟨"", n⟩ = some cur →
        (pvSpec cur).bind csiHandle ≠ some source.volumeHandle) := by
  obtain ⟨-, hconsistent, hanchored⟩ := anchored_run (fun _ _ hg => hg.1.1) h
  have hb := windowBase_run (fun _ _ hg => hg.1.1) h
  have hknows := hact.knows hb.swap.grounded.contracted hr
  obtain ⟨source', target, ref, pv, hs', ht, href, hadvance, hpv⟩ :=
    (allVerified_run (h.mono fun _ _ hg => hg.1)).known n r r.status hr hknows
      (by rw [hphase]; rfl)
  obtain rfl : source = source' := Option.some.inj (hs.symm.trans hs')
  refine ⟨target, ref, pv, ht, href, hadvance, hpv, fun hne cur hcur => ?_⟩
  obtain ⟨e, he⟩ := hanchored.exists_stored_of_busy hconsistent hb.swap.grounded.recorded hr hknows
    (by rw [hphase]; rfl) hact.busy
  have hcore := (hb.informed.synced n r e hr he).status _ hknows
  have hspared := sourceSpared_run h n e he ((phase_congr hcore).trans hphase) cur hcur
  have hsource := congrArg ZFSEvacuationStatus.source hcore
  have htarget := congrArg ZFSEvacuationStatus.target hcore
  exact hspared source target (hsource.trans hs) (htarget.trans ht) hne

/-! ### A PV of another origin -/

instance : Decidable (KeepsPvOff s a) := by
  unfold KeepsPvOff
  rcases a with (⟨⟨⟩, _⟩ | ⟨⟨⟩, _⟩ | _) | _ <;> dsimp only <;> infer_instance

instance : Decidable (SourceApart s a) := inferInstanceAs (Decidable (_ ∧ _))

/-- A PV under the old name that somebody else creates, for the same claim and with the
volume of the source. -/
def foreignPv : Obj .pv := Sample.boundPv "pv1" "c1" "vol1" 5

/-- The agents finish the deletion of the transfer resources. -/
def transferTornDown : List SysAction :=
  [ .env (.update .zfsBackup ⟨{ ns := "openebs", name := "pv1-evac-a1" },
      ({ spec := ⟨"", "", none, none, ""⟩ } : ZFSBackup)⟩),
    .env (.update .zfsRestore ⟨{ ns := "openebs", name := "pv1-evacr-a1" },
      ({ spec := ⟨"", "", ""⟩ } : ZFSRestore)⟩) ]

def snapshotReport (finalizers : List String) : SysAction :=
  .env (.update .zfsSnapshot ⟨{ ns := "openebs", name := "zevac-a1-0000", finalizers },
    ({ spec := { ownerNodeId := "n2", poolName := "tank" } } : ZFSSnapshot)⟩)

/-- The swap and the cleanup up to the deletion of the source, with the events between the
deletion of the old PV and the next reconcile. -/
def swapAround (between : List SysAction) : List SysAction :=
  committedOnce ++ Sample.reconcileOf "pv1" 12 4 ++ between ++ Sample.reconcileOf "pv1" 12 3 ++
    Sample.reconcileOf "pv1" 13 5 ++ transferTornDown ++ Sample.reconcileOf "pv1" 14 6 ++
    [snapshotReport [zfsFinalizer]] ++ Sample.reconcileOf "pv1" 15 6 ++ [snapshotReport []] ++
    Sample.reconcileOf "pv1" 17 4

/-- The PVs that were read in this trace. -/
def seenPvs (tr : Trace) : List (Obj .pv) :=
  tr.filterMap fun
    | ⟨.get .pv _, (ans : Except ApiError (Option (Obj .pv)))⟩ => ans.toOption.bind id
    | _ => none

theorem mem_seenPvs {tr : Trace} {key : Key} {pv : Obj .pv}
    (h : sawEvent .pv key (some pv) ∈ tr) : pv ∈ seenPvs tr :=
  List.mem_filterMap.mpr ⟨_, h, rfl⟩

/-- The reconcile is about to delete the source in the cleanup. -/
def deletesSource (r : Running) : Bool :=
  r.status.phase = .cleaningUp && match r.prog with
  | .call (.delete .zfsVolume key) _ => key = ⟨"openebs", "vol1"⟩
  | _ => false

theorem actsOnSource_of_deletes {r : Running} (h : deletesSource r = true) :
    r.status.phase = .cleaningUp ∧ ∃ next : Except ApiError Unit → M Action,
      r.prog = .call (.delete .zfsVolume ⟨"openebs", "vol1"⟩) next := by
  obtain ⟨hphase, hmatch⟩ := Bool.and_eq_true_iff.mp h
  refine ⟨of_decide_eq_true hphase, ?_⟩
  split at hmatch
  · rename_i key next hprog
    obtain rfl : key = ⟨"openebs", "vol1"⟩ := of_decide_eq_true hmatch
    exact ⟨next, hprog⟩
  · cases hmatch

theorem not_source_goes_last : ¬ ∀ (cfg : Config) (as : List SysAction) (s : System) (n : String)
    (r : Running) (source : SourceInfo), Run (step cfg) Current init as s →
    s.running.get n = some r → r.status.phase = .cleaningUp → r.status.source = some source →
    ActsOnSource cfg r source → ∃ target ref pv, r.status.target = some target ∧
      r.status.pvcRef = some ref ∧
      Happened (step cfg) init (Advances n source target ref pv) as ∧
      PointsAtTarget pv ref target := by
  intro hall
  obtain ⟨s, hrun, hs⟩ := Run.exists_of_runList
    (p := fun s : System => (s.running.get "pv1").any fun r => deletesSource r &&
      (r.status.source.any fun source => source.volumeHandle = "vol1") &&
      (r.status.target.any fun target => target.newVolumeHandle = Sample.newHandle))
    (show (runList (guarded (step Sample.config) Current) init
      (swapAround [.env (.create .pv foreignPv)])).any _ = true by decide +kernel)
  obtain ⟨r, hr, hboth⟩ := (Option.any_eq_true ..).mp hs
  obtain ⟨hdelsource, htarget⟩ := Bool.and_eq_true_iff.mp hboth
  obtain ⟨hdel, hsource⟩ := Bool.and_eq_true_iff.mp hdelsource
  obtain ⟨hphase, next, hprog⟩ := actsOnSource_of_deletes hdel
  obtain ⟨source, hs, hvol⟩ := (Option.any_eq_true ..).mp hsource
  obtain ⟨target, ht, hnew⟩ := (Option.any_eq_true ..).mp htarget
  have hact : ActsOnSource Sample.config r source := by
    refine .inl ⟨next, ?_⟩
    rw [SourceInfo.volKey, of_decide_eq_true hvol]
    exact hprog
  obtain ⟨target', ref, pv, ht', -, hadvance, hpv⟩ :=
    hall _ _ s "pv1" r source hrun hr hphase hs hact
  obtain rfl : target = target' := Option.some.inj (ht.symm.trans ht')
  -- no PV that Swapping reads in this run points at the target
  obtain ⟨t, hmem, _, o, x, w, next', -, hx, -, hswapping, -, -, -, -, hseen⟩ := hadvance.visited
  have hnone : ∀ t ∈ visited (step Sample.config) init (swapAround [.env (.create .pv foreignPv)]),
      ∀ x, t.running.get "pv1" = some x → x.status.phase = .swapping →
        ∀ pv ∈ seenPvs x.trace, (pvSpec pv).bind csiHandle ≠ some Sample.newHandle := by
    decide +kernel
  have hhandle := hpv.handle
  rw [of_decide_eq_true hnew] at hhandle
  exact hnone t hmem x hx hswapping pv (mem_seenPvs hseen) hhandle

/-- The source of a small cluster is deleted after the replacement was seen bound, with the
replacement still there. -/
theorem source_goes_last_small : ∃ (as : List SysAction) (s : System) (r : Running)
    (source : SourceInfo) (target : TargetInfo) (ref : PvcRef) (pv cur : Obj .pv),
    Run (step Sample.config) SourceApart init as s ∧
    s.running.get "pv1" = some r ∧ ActsOnSource Sample.config r source ∧
    Happened (step Sample.config) init (Advances "pv1" source target ref pv) as ∧
    PointsAtTarget pv ref target ∧ s.world.get .pv ⟨"", "pv1"⟩ = some cur ∧
    (pvSpec cur).bind csiHandle ≠ some source.volumeHandle := by
  obtain ⟨s, hrun, hs⟩ := Run.exists_of_runList
    (p := fun s : System => (s.running.get "pv1").any fun r => deletesSource r &&
      (r.status.source.any fun source => source.volumeHandle = "vol1") &&
      (r.status.target.any fun target => target.newVolumeHandle = Sample.newHandle) &&
      (s.world.get .pv ⟨"", "pv1"⟩).isSome)
    (show (runList (guarded (step Sample.config) SourceApart) init
      (swapAround (Sample.reconcileOf "pv1" 12 2 ++ [Sample.replacementBound]))).any _ = true by
        decide +kernel)
  obtain ⟨r, hr, hfacts⟩ := (Option.any_eq_true ..).mp hs
  simp only [Bool.and_eq_true, Option.any_eq_true, Option.isSome_iff_exists,
    decide_eq_true_eq] at hfacts
  obtain ⟨⟨⟨hdel, source, hs, hvol⟩, target, ht, hnew⟩, cur, hcur⟩ := hfacts
  obtain ⟨hphase, next, hprog⟩ := actsOnSource_of_deletes hdel
  have hact : ActsOnSource Sample.config r source := by
    refine .inl ⟨next, ?_⟩
    rw [SourceInfo.volKey, hvol]
    exact hprog
  obtain ⟨target', ref, pv, ht', -, hadvance, hpv, hspared⟩ :=
    source_goes_last _ _ s "pv1" r source hrun hr hphase hs hact
  obtain rfl : target = target' := Option.some.inj (ht.symm.trans ht')
  have hne : target.newVolumeHandle ≠ source.volumeHandle := by
    rw [hnew, hvol]
    decide
  exact ⟨_, s, r, source, target, ref, pv, cur, hrun, hr, hact, hadvance, hpv, hcur,
    hspared hne cur hcur⟩

end System

end ZfsEvacuation
