import ZfsEvacuation.SwapRecord
import ZfsEvacuation.EvacAnchor

/-!
# The PV in the swap window

Swapping tells the replacement from the old PV by its identity alone. So what it takes for the
replacement is the PV of the manifest only as long as nobody else creates a PV of that name.
-/
namespace ZfsEvacuation
open ClientProgram Program GuardedRun

/-! ## How a PV changes -/

/-- The same PV but for its reclaim policy. -/
def SameVolume (pv pv' : Obj .pv) : Prop :=
  pvSpec pv' = pvSpec pv ∨ ∃ policy, pvSpec pv' =
    (pvSpec pv).map fun spec => { spec with persistentVolumeReclaimPolicy := policy }

theorem Patch.sameVolume (p : Patch .pv) (pv : Obj .pv) : SameVolume pv (p.apply pv) := by
  cases p with
  | reclaimPolicy policy => exact .inr ⟨some policy, rfl⟩
  | _ => exact .inl rfl

/-- The source of a status is recorded from a PV that was seen. -/
theorem Writes.source_seen {cfg : Config} {view : Obj .evacuation} {tr : Trace}
    {st w : ZFSEvacuationStatus} {source : SourceInfo} (h : Writes cfg view tr st w)
    (hs : w.source = some source) : st.source = some source ∨
      ∃ pv, sawEvent .pv (pvKey view) (some pv) ∈ tr ∧ source.pvUid = pv.metadata.uid := by
  cases h with
  | accepted _ source' pv _ seen _ huid _ =>
    obtain rfl := Option.some.inj hs
    exact .inr ⟨pv, seen, huid⟩
  | _ => exact .inl hs

namespace System
variable {cfg : Config} {s s' : System} {a : SysAction} {n : String} {key : Key}

/-- Where the PV stored under this key comes from. -/
inductive PvStep (s : System) (key : Key) (pv' : Obj .pv) : SysAction → Prop
  | kept (pv : Obj .pv) (a : SysAction) (stored : s.world.get .pv key = some pv)
      (uid : pv'.metadata.uid = pv.metadata.uid) (same : SameVolume pv pv') : PvStep s key pv' a
  | edited (pv o : Obj .pv) (stored : s.world.get .pv key = some pv) (hkey : o.key = key)
      (uid : pv'.metadata.uid = pv.metadata.uid) (spec : pvSpec pv' = pvSpec o) :
      PvStep s key pv' (.env (.update .pv o))
  | appeared (o : Obj .pv) (absent : s.world.get .pv key = none) (hkey : o.key = key)
      (uid : pv'.metadata.uid = s.world.revision) (spec : pvSpec pv' = pvSpec o) :
      PvStep s key pv' (.env (.create .pv o))
  | created (n : String) (o : Outcome) (r : Running) (pv : Obj .pv)
      (next : Except ApiError Unit → M Action) (absent : s.world.get .pv key = none)
      (running : s.running.get n = some r) (prog : r.prog = .call (.create .pv pv) next)
      (hkey : pv.key = key) (uid : pv'.metadata.uid = s.world.revision)
      (spec : pvSpec pv' = pvSpec pv) : PvStep s key pv' (.call n o)

theorem pv_step (hc : Contracted cfg s) (h : step cfg s a = some s') {pv' : Obj .pv}
    (hpv : s'.world.get .pv key = some pv') : PvStep s key pv' a := by
  cases step_cases h with
  | env e =>
    rcases World.get_env hpv with hold | ⟨o, hw, hkey, rfl, -⟩
    · exact .kept pv' _ hold rfl (.inl rfl)
    · cases hw with
      | create o hnone => exact .appeared o (hkey ▸ hnone) hkey rfl rfl
      | update o cur hcur => exact .edited cur o (hkey ▸ hcur) hkey rfl rfl
      | delete key' o hget _ =>
        have hkey' : key' = key := (World.get_key hget).symm.trans hkey
        exact .kept o _ (hkey' ▸ hget) rfl (.inl rfl)
  | start name version view _ _ _ _ => exact .kept pv' _ hpv rfl (.inl rfl)
  | call name o r c next hr hprog _ =>
    rw [world_proceed] at hpv
    rcases World.after_cases s.world o c with ⟨heq, -⟩ | heq
    · have hold : s.world.get .pv key = some pv' := heq ▸ hpv
      exact .kept pv' _ hold rfl (.inl rfl)
    rcases World.get_effect (heq ▸ hpv) with hold | ⟨x, hw, hkey, rfl, -⟩
    · exact .kept pv' _ hold rfl (.inl rfl)
    · cases hw with
      | create x hnone => exact .created name o r x next (hkey ▸ hnone) hr hprog hkey rfl rfl
      | replace x cur hcur _ =>
        obtain ⟨st, -, hfalse⟩ := hc.allowed hr hprog
        exact hfalse.elim
      | delete key' x hget _ =>
        have hkey' : key' = key := (World.get_key hget).symm.trans hkey
        exact .kept x _ (hkey' ▸ hget) rfl (.inl rfl)
      | patch key' p x hget =>
        have hkey' : key' = key := (World.get_key hget).symm.trans ((Patch.key_apply p x).symm.trans hkey)
        exact .kept x _ (hkey' ▸ hget) (Patch.uid_apply p x) (p.sameVolume x)
  | crash => exact .kept pv' _ hpv rfl (.inl rfl)

/-! ## The window -/

variable {β : Type} (obs : PersistentVolumeSpec → β)

/-- What is observed of a PV, when the reclaim policy is not. -/
def observed (pv : Obj .pv) : Option β := (pvSpec pv).map obs

/-- The reclaim policy is not observed. -/
def IgnoresPolicy : Prop :=
  ∀ spec policy, obs { spec with persistentVolumeReclaimPolicy := policy } = obs spec

variable {obs}

theorem observed_congr (hobs : IgnoresPolicy obs) {pv pv' : Obj .pv} (h : SameVolume pv pv') :
    observed obs pv' = observed obs pv := by
  rcases h with heq | ⟨policy, heq⟩
  · rw [observed, heq, observed]
  · rw [observed, heq, observed, Option.map_map]
    congr 1
    funext spec
    exact hobs spec policy

variable (obs)

/-- While the evacuation is committed and its PV swapped, nobody else creates a PV of that
name, and in the swap nobody else changes what is observed of it. -/
def KeepsSwapPv (s : System) : SysAction → Prop
  | .env (.create .pv o) => ∀ e, s.world.get .evacuation ⟨"", o.name⟩ = some e →
    (viewStatus e).phase ≠ .committing ∧ (viewStatus e).phase ≠ .swapping
  | .env (.update .pv o) => ∀ e, s.world.get .evacuation ⟨"", o.name⟩ = some e →
    (viewStatus e).phase = .swapping → ∀ cur, s.world.get .pv o.key = some cur →
      observed obs o = observed obs cur
  | _ => True

/-- The PV is the one the status recorded at first, or looks like the one of its manifest. -/
def OldOrNew (st : ZFSEvacuationStatus) (pv : Obj .pv) : Prop :=
  (∃ source, st.source = some source ∧ pv.metadata.uid = source.pvUid) ∨
    ∃ manifest, st.newPvManifest = some manifest ∧
      observed obs pv = observed obs (⟨manifest.1, manifest.2⟩ : Obj .pv)

/-- The PVs that the commit and the swap work with. -/
structure SwapTracked (s : System) : Prop where
  committing : ∀ n r pv, s.running.get n = some r → written r.trace = none →
    (viewStatus r.view).phase = .committing → sawEvent .pv (pvKey r.view) (some pv) ∈ r.trace →
      ∀ cur, s.world.get .pv ⟨"", n⟩ = some cur → cur.metadata.uid = pv.metadata.uid
  stored : ∀ n e, s.world.get .evacuation ⟨"", n⟩ = some e → (viewStatus e).phase = .swapping →
    ∀ cur, s.world.get .pv ⟨"", n⟩ = some cur → OldOrNew obs (viewStatus e) cur
  swapping : ∀ n r pv, s.running.get n = some r → written r.trace = none →
    (viewStatus r.view).phase = .swapping → sawEvent .pv (pvKey r.view) (some pv) ∈ r.trace →
      OldOrNew obs (viewStatus r.view) pv

/-- What the tracking of the PVs rests on. -/
structure WindowBase (cfg : Config) (s : System) : Prop where
  swap : SwapBase cfg s
  recorded : AllRecorded s
  informed : Informed cfg s
  anchored : Anchored cfg s

variable {obs}

/-- A PV that a reconcile creates is the one of its manifest. -/
theorem WindowBase.created (hb : WindowBase cfg s) {r : Running} {pv : Obj .pv}
    {next : Except ApiError Unit → M Action} (hr : s.running.get n = some r)
    (hprog : r.prog = .call (.create .pv pv) next) : ∃ st, Knows r.view r.trace st ∧
      st.phase = .swapping ∧ st.newPvManifest = some (pv.metadata, pv.data) ∧ pv.key = ⟨"", n⟩ := by
  obtain ⟨st, hk, manifest, hphase, hmanifest, rfl⟩ := hb.swap.grounded.contracted.allowed hr hprog
  obtain ⟨source, target, ref, oldPv, newPv, hrec⟩ :=
    hb.recorded.known n r st hr hk (by rw [hphase]; rfl)
  obtain ⟨spec, hnew⟩ := hrec.isReplacement
  obtain rfl : manifest = (newPv.metadata, newPv.data) :=
    Option.some.inj (hmanifest.symm.trans hrec.manifest)
  exact ⟨st, hk, hphase, hmanifest, hnew.key⟩

theorem OldOrNew.congr {st st' : ZFSEvacuationStatus} {pv : Obj .pv} (h : OldOrNew obs st pv)
    (hs : st'.source = st.source) (hm : st'.newPvManifest = st.newPvManifest) :
    OldOrNew obs st' pv := by
  rwa [OldOrNew, hs, hm]

theorem OldOrNew.of_core {st st' : ZFSEvacuationStatus} {pv : Obj .pv} (h : OldOrNew obs st pv)
    (hcore : st'.core = st.core) : OldOrNew obs st' pv := by
  have hs := congrArg ZFSEvacuationStatus.source hcore
  have hm := congrArg ZFSEvacuationStatus.newPvManifest hcore
  exact h.congr hs hm

theorem OldOrNew.of_pv {st : ZFSEvacuationStatus} {pv pv' : Obj .pv} (h : OldOrNew obs st pv)
    (huid : pv'.metadata.uid = pv.metadata.uid) (hobs : observed obs pv' = observed obs pv) :
    OldOrNew obs st pv' := by
  rwa [OldOrNew, huid, hobs]

/-- A reconcile that has written no status knows the one it started from. -/
theorem knows_view {view : Obj .evacuation} {tr : Trace} (h : written tr = none) :
    Knows view tr (viewStatus view) := by
  refine ⟨by rw [h, Option.getD_none], fun e he hfailed => ?_⟩
  obtain ⟨key, st, err, rfl⟩ := hfailed
  have hnone := (List.findSome?_eq_none_iff.mp h) _ he
  simp [statusWrite] at hnone

/-- A reconcile that has written nothing yet works on a stored evacuation of the same status. -/
theorem WindowBase.stored_view (hb : WindowBase cfg s) {r : Running}
    (hr : s.running.get n = some r) (hwrote : written r.trace = none)
    (hphase : (viewStatus r.view).phase.working = true) :
    ∃ e, s.world.get .evacuation ⟨"", n⟩ = some e ∧
      (viewStatus e).core = (viewStatus r.view).core := by
  have hk : Knows r.view r.trace (viewStatus r.view) := knows_view hwrote
  obtain ⟨e, he⟩ := hb.anchored.exists_stored hr hk hphase (Phase.ended_of_working hphase)
  exact ⟨e, he, (hb.informed.synced n r e hr he).status _ hk⟩

/-- During the commit the PV under the name keeps its identity, and does not appear anew. -/
theorem WindowBase.pv_committing (hb : WindowBase cfg s) (hk : KeepsSwapPv obs s a)
    (h : step cfg s a = some s') {e : Obj .evacuation}
    (he : s.world.get .evacuation ⟨"", n⟩ = some e) (hphase : (viewStatus e).phase = .committing)
    {cur' : Obj .pv} (hcur : s'.world.get .pv ⟨"", n⟩ = some cur') :
    ∃ cur, s.world.get .pv ⟨"", n⟩ = some cur ∧ cur'.metadata.uid = cur.metadata.uid := by
  cases pv_step hb.swap.grounded.contracted h hcur with
  | kept pv _ stored uid _ => exact ⟨pv, stored, uid⟩
  | edited pv _ stored _ uid _ => exact ⟨pv, stored, uid⟩
  | appeared o _ hkey _ =>
    have hname : o.name = n := congrArg Key.name hkey
    exact absurd hphase (hk e (hname ▸ he)).1
  | created n' o r pv next _ hr hprog hkey _ _ =>
    obtain ⟨st, hknows, hst, -, hkey'⟩ := hb.created hr hprog
    obtain rfl : n' = n := congrArg Key.name (hkey'.symm.trans hkey)
    have hcore := (hb.informed.synced n' r e hr he).status st hknows
    rw [phase_congr hcore, hst] at hphase
    cases hphase

/-- During the swap the PV under the name stays the old one or the one of the manifest. -/
theorem WindowBase.pv_swapping (hb : WindowBase cfg s) (hobs : IgnoresPolicy obs)
    (hx : SwapTracked obs s) (hk : KeepsSwapPv obs s a) (h : step cfg s a = some s')
    {e : Obj .evacuation} (he : s.world.get .evacuation ⟨"", n⟩ = some e)
    (hphase : (viewStatus e).phase = .swapping) {cur' : Obj .pv}
    (hcur : s'.world.get .pv ⟨"", n⟩ = some cur') : OldOrNew obs (viewStatus e) cur' := by
  cases pv_step hb.swap.grounded.contracted h hcur with
  | kept pv _ stored uid same =>
    exact (hx.stored n e he hphase pv stored).of_pv uid (observed_congr hobs same)
  | edited pv o stored hkey uid spec =>
    have hname : o.name = n := congrArg Key.name hkey
    have hsame : observed obs o = observed obs pv :=
      hk e (hname ▸ he) hphase pv (hkey ▸ stored)
    refine (hx.stored n e he hphase pv stored).of_pv uid ?_
    rw [← hsame, observed, spec, observed]
  | appeared o _ hkey _ =>
    have hname : o.name = n := congrArg Key.name hkey
    exact absurd hphase (hk e (hname ▸ he)).2
  | created n' o r pv next _ hr hprog hkey _ spec =>
    obtain ⟨st, hknows, -, hmanifest, hkey'⟩ := hb.created hr hprog
    obtain rfl : n' = n := congrArg Key.name (hkey'.symm.trans hkey)
    have hcore := (hb.informed.synced n' r e hr he).status st hknows
    have hsame := congrArg ZFSEvacuationStatus.newPvManifest hcore
    refine .inr ⟨_, Eq.trans hsame hmanifest, ?_⟩
    rw [observed, spec, observed]

/-- A call of the reconcile that reads the PV, or one that reads something else. -/
theorem seen_step {r : Running} {c : Call} {o : Outcome} {k : Kind} {key : Key} {x : Obj k}
    (hseen : sawEvent k key (some x) ∈ (⟨c, s.world.answer o c⟩ :: r.trace : Trace)) :
    s.world.get k key = some x ∨ sawEvent k key (some x) ∈ r.trace := by
  rcases List.mem_cons.mp hseen with hnow | hbefore
  · obtain rfl : Call.get k key = c := congrArg Sigma.fst hnow
    exact .inl (answer_get hnow.symm)
  · exact .inr hbefore

theorem SwapTracked.committing_step (hb : WindowBase cfg s) (hx : SwapTracked obs s)
    (hk : KeepsSwapPv obs s a) (h : step cfg s a = some s') {r' : Running} {pv cur' : Obj .pv}
    (hr' : s'.running.get n = some r') (hwrote : written r'.trace = none)
    (hphase : (viewStatus r'.view).phase = .committing)
    (hseen : sawEvent .pv (pvKey r'.view) (some pv) ∈ r'.trace)
    (hcur' : s'.world.get .pv ⟨"", n⟩ = some cur') : cur'.metadata.uid = pv.metadata.uid := by
  cases running_step h hr' with
  | kept _ hr _ =>
    obtain ⟨e, he, hcore⟩ := hb.stored_view hr hwrote (by rw [hphase]; rfl)
    obtain ⟨cur, hcur, huid⟩ := hb.pv_committing hk h he (by rw [phase_congr hcore, hphase]) hcur'
    rw [huid]
    exact hx.committing n r' pv hr hwrote hphase hseen cur hcur
  | started version _ _ _ heq =>
    rw [heq] at hseen
    cases hseen
  | called o r c next hr hprog _ heq =>
    rw [heq] at hwrote hphase hseen
    have hbefore := (written_of_cons hwrote).2
    obtain ⟨e, he, hcore⟩ := hb.stored_view hr hbefore (by rw [hphase]; rfl)
    obtain ⟨cur, hcur, huid⟩ := hb.pv_committing hk h he (by rw [phase_congr hcore, hphase]) hcur'
    rw [huid]
    rcases seen_step hseen with hnow | hold
    · have hkey : s.world.get .pv (pvKey r.view) = some cur := by rw [hb.swap.pvKey_eq hr, hcur]
      rw [Option.some.inj (hkey.symm.trans hnow)]
    · exact hx.committing n r pv hr hbefore hphase hold cur hcur

/-- The PV of an evacuation in Swapping is the old one or the one of its manifest. -/
theorem SwapTracked.stored_step (hb : WindowBase cfg s) (hobs : IgnoresPolicy obs)
    (hx : SwapTracked obs s) (hl : KeepsEvacs s a) (hk : KeepsSwapPv obs s a)
    (h : step cfg s a = some s') {e' : Obj .evacuation} {cur' : Obj .pv}
    (he' : s'.world.get .evacuation ⟨"", n⟩ = some e') (hphase : (viewStatus e').phase = .swapping)
    (hcur' : s'.world.get .pv ⟨"", n⟩ = some cur') : OldOrNew obs (viewStatus e') cur' := by
  rcases status_step hb.informed hl h he' with ⟨e, he, hstep⟩ | ⟨-, hnone, -⟩
  · cases hstep with
    | kept same status _ _ =>
      rw [viewStatus_congr status] at hphase ⊢
      exact hb.pv_swapping hobs hx hk h he hphase hcur'
    | wrote r o st w next same running prog knows writes old new spec =>
      rw [phase_congr new] at hphase
      cases writes with
      | shown msg _ _ =>
        have hst : (viewStatus e).phase = .swapping := by
          rw [phase_congr old]
          exact hphase
        have hold := hb.pv_swapping hobs hx hk h he hst hcur'
        have hcore := hold.of_core old.symm
        have hshown : OldOrNew obs { st with message := some msg } cur' := hcore.congr rfl rfl
        exact hshown.of_core new
      | committed source target ref oldPv newPv hst hwrote hs ht hr seen huid hnew _ _ _ =>
        have hview : viewStatus r.view = st := by
          have heq := knows.eq
          rwa [hwrote] at heq
        obtain ⟨cur, hcur, hsame⟩ :=
          hb.pv_committing hk h he (by rw [phase_congr old, hst]) hcur'
        have hseen := hx.committing n r oldPv running hwrote (by rw [hview, hst]) seen cur hcur
        have hsource := congrArg ZFSEvacuationStatus.source new
        exact .inl ⟨source, Eq.trans hsource hs, (hsame.trans hseen).trans huid⟩
      | snapDeleteIssued hst | settles _ hst | attempted _ _ _ _ _ hst _ _ _ _
      | attemptFailing _ _ hst | progressed _ _ hst _ | blocked _ hst =>
        have hcon : st.phase = .swapping := hphase
        rw [hst] at hcon
        cases hcon
      | _ => cases hphase
  · rw [viewStatus, hnone] at hphase
    cases hphase

theorem SwapTracked.swapping_step (hb : WindowBase cfg s) (hx : SwapTracked obs s)
    (h : step cfg s a = some s') {r' : Running} {pv : Obj .pv}
    (hr' : s'.running.get n = some r') (hwrote : written r'.trace = none)
    (hphase : (viewStatus r'.view).phase = .swapping)
    (hseen : sawEvent .pv (pvKey r'.view) (some pv) ∈ r'.trace) :
    OldOrNew obs (viewStatus r'.view) pv := by
  cases running_step h hr' with
  | kept _ hr _ => exact hx.swapping n r' pv hr hwrote hphase hseen
  | started version _ _ _ heq =>
    rw [heq] at hseen
    cases hseen
  | called o r c next hr hprog _ heq =>
    rw [heq] at hwrote hphase hseen ⊢
    have hbefore := (written_of_cons hwrote).2
    rcases seen_step hseen with hnow | hold
    · obtain ⟨e, he, hcore⟩ := hb.stored_view hr hbefore (by rw [hphase]; rfl)
      have hkey : s.world.get .pv ⟨"", n⟩ = some pv := by
        rw [← hb.swap.pvKey_eq hr]
        exact hnow
      have hstored := hx.stored n e he (by rw [phase_congr hcore, hphase]) pv hkey
      exact hstored.of_core hcore.symm
    · exact hx.swapping n r pv hr hbefore hphase hold

theorem swapTracked_step (hb : WindowBase cfg s) (hobs : IgnoresPolicy obs)
    (hx : SwapTracked obs s) (hl : KeepsEvacs s a) (hk : KeepsSwapPv obs s a)
    (h : step cfg s a = some s') : SwapTracked obs s' where
  committing _ _ _ hr hwrote hphase hseen _ hcur :=
    hx.committing_step hb hk h hr hwrote hphase hseen hcur
  stored _ _ he hphase _ hcur := hx.stored_step hb hobs hl hk h he hphase hcur
  swapping _ _ _ hr hwrote hphase hseen := hx.swapping_step hb h hr hwrote hphase hseen

/-! ## The identities of PVs -/

/-- The PVs that are stored or were read have identities given out before, and none is stored
that has nothing left to wait for. -/
structure PvDated (s : System) : Prop where
  stored : ∀ key pv, s.world.get .pv key = some pv → pv.metadata.uid < s.world.revision
  seen : ∀ n r key pv, s.running.get n = some r → sawEvent .pv key (some pv) ∈ r.trace →
    pv.metadata.uid < s.world.revision
  kept : ∀ key pv, s.world.get .pv key = some pv → pv.gone = false

theorem pvDated_init : PvDated init := by
  constructor
  · intro key pv hpv
    cases hpv
  · intro n r key pv hr
    cases hr
  · intro key pv hpv
    cases hpv

theorem pvKept_step (hx : PvDated s) (h : step cfg s a = some s') {key : Key} {pv : Obj .pv}
    (hpv : s'.world.get .pv key = some pv) : pv.gone = false := by
  cases step_cases h with
  | env e =>
    rcases World.get_env hpv with hold | ⟨o, -, -, rfl, hkept⟩
    · exact hx.kept key pv hold
    · exact hkept
  | start name version view _ _ _ _ => exact hx.kept key pv hpv
  | call name o r c next _ _ _ =>
    rw [world_proceed] at hpv
    rcases World.after_cases s.world o c with ⟨heq, -⟩ | heq
    · exact hx.kept key pv (heq ▸ hpv)
    rcases World.get_effect (heq ▸ hpv) with hold | ⟨x, -, -, rfl, hkept⟩
    · exact hx.kept key pv hold
    · exact hkept
  | crash => exact hx.kept key pv hpv

theorem pvDated_step (hc : Contracted cfg s) (hx : PvDated s) (h : step cfg s a = some s') :
    PvDated s' := by
  have hsucc := world_succeeds h
  refine ⟨fun key pv hpv => ?_, fun n r' key pv hr' hseen => ?_, fun key pv hpv =>
    pvKept_step hx h hpv⟩
  · rcases hsucc.fresh _ _ _ hpv with hold | ⟨-, hlt⟩
    · exact Nat.lt_of_lt_of_le (hx.stored key pv hold) hsucc.revision
    · cases pv_step hc h hpv with
      | kept pv₀ _ hstored huid _ | edited pv₀ _ hstored _ huid _ =>
        rw [huid]
        exact Nat.lt_of_lt_of_le (hx.stored key pv₀ hstored) hsucc.revision
      | appeared _ _ _ huid _ | created _ _ _ _ _ _ _ _ _ huid _ =>
        rw [huid]
        exact hlt
  · refine Nat.lt_of_lt_of_le ?_ hsucc.revision
    cases running_step h hr' with
    | kept _ hr _ => exact hx.seen n r' key pv hr hseen
    | started version _ _ _ heq =>
      rw [heq] at hseen
      cases hseen
    | called o r c next hr _ _ heq =>
      rw [heq] at hseen
      rcases seen_step hseen with hnow | hold
      · exact hx.stored key pv hnow
      · exact hx.seen n r key pv hr hold

/-- The PV of a status has an identity given out before. -/
def SourceDated (s : System) (st : ZFSEvacuationStatus) : Prop :=
  ∀ source, st.source = some source → source.pvUid < s.world.revision

def AllDated (s : System) : Prop := EveryStatus (fun _ => SourceDated s) s

theorem allDated_step (hg : Grounded cfg s) (hp : PvDated s) (hx : AllDated s)
    (hl : KeepsEvacs s a) (h : step cfg s a = some s') : AllDated s' := by
  have hle := (world_succeeds h).revision
  refine EveryStatus.step hx hg hl h (fun _ st hst source hs => Nat.lt_of_lt_of_le (hst source hs) hle)
    (fun _ st st' hcore hst source hs => ?_) (fun _ source hs => by cases hs) ?_
  · have hsame := congrArg ZFSEvacuationStatus.source hcore
    exact hst source (Eq.trans (Eq.symm hsame) hs)
  · intro n o r st w next _ hr _ hk hw source hs
    refine Nat.lt_of_lt_of_le ?_ hle
    rcases hw.source_seen hs with hold | ⟨pv, hseen, huid⟩
    · exact hx.known n r st hr hk source hold
    · rw [huid]
      exact hp.seen n r _ pv hr hseen

/-! ## Runs -/

variable (obs)

/-- Reconciles start from what is stored, and nobody else touches the PV during the swap. -/
def SwapsAlone (s : System) (a : SysAction) : Prop := Current s a ∧ KeepsSwapPv obs s a

instance [DecidableEq β] : Decidable (KeepsSwapPv obs s a) := by
  unfold KeepsSwapPv
  split <;> infer_instance

instance [DecidableEq β] : Decidable (SwapsAlone obs s a) := inferInstanceAs (Decidable (_ ∧ _))

variable {obs} {as : List SysAction}

theorem anchored_run {guard : System → SysAction → Prop} (hguard : ∀ s a, guard s a → Current s a)
    (h : Run (step cfg) guard init as s) : Informed cfg s ∧ AllConsistent s ∧ Anchored cfg s := by
  have hgrounded : ∀ {as s}, Run (step cfg) guard init as s → Grounded cfg s :=
    fun hrun => grounded_run (fun s a hg => (hguard s a hg).1) hrun
  have hconsistent : ∀ {as s}, Run (step cfg) guard init as s → AllConsistent s := by
    intro as s hrun
    exact hrun.invariant_over hgrounded allConsistent_init fun s a _ hb hx hg hs =>
      consistent_step hb hx (hguard s a hg).1 hs
  have hbase : ∀ {as s}, Run (step cfg) guard init as s →
      (Informed cfg s ∧ AllConsistent s) ∧ Recorded s :=
    fun hrun => ⟨⟨informed_run (hrun.mono hguard), hconsistent hrun⟩, recorded_run hrun⟩
  have hanchored : Anchored cfg s := h.invariant_over hbase anchored_init
    fun s a _ hb hx hg hs => anchored_step hb.1.1 hb.1.2 hb.2 hx (hguard s a hg) hs
  exact ⟨(hbase h).1.1, (hbase h).1.2, hanchored⟩

theorem windowBase_run {guard : System → SysAction → Prop} (hguard : ∀ s a, guard s a → Current s a)
    (h : Run (step cfg) guard init as s) : WindowBase cfg s := by
  obtain ⟨hinformed, -, hanchored⟩ := anchored_run hguard h
  have hevacs : ∀ s a, guard s a → KeepsEvacs s a := fun s a hg => (hguard s a hg).1
  exact ⟨swapBase_run hevacs h, allRecorded_run hevacs h, hinformed, hanchored⟩

theorem dated_run {guard : System → SysAction → Prop} (hguard : ∀ s a, guard s a → Current s a)
    (h : Run (step cfg) guard init as s) : PvDated s ∧ AllDated s := by
  have hbase : ∀ {as s}, Run (step cfg) guard init as s → WindowBase cfg s :=
    fun hrun => windowBase_run hguard hrun
  have hdated : ∀ {as s}, Run (step cfg) guard init as s → WindowBase cfg s ∧ PvDated s :=
    fun hrun => ⟨hbase hrun, hrun.invariant_over hbase pvDated_init
      fun _ _ _ hb hx _ hs => pvDated_step hb.swap.grounded.contracted hx hs⟩
  have hsources : AllDated init := everyStatus_init _
  exact ⟨(hdated h).2, h.invariant_over hdated hsources fun _ _ _ hb hx hg hs =>
    allDated_step hb.1.swap.grounded hb.2 hx (hguard _ _ hg).1 hs⟩

theorem swapTracked_run (hobs : IgnoresPolicy obs)
    (h : Run (step cfg) (SwapsAlone obs) init as s) : SwapTracked obs s := by
  have hbase : ∀ {as s}, Run (step cfg) (SwapsAlone obs) init as s → WindowBase cfg s :=
    fun hrun => windowBase_run (fun _ _ hg => hg.1) hrun
  have hinit : SwapTracked obs init := by
    constructor
    · intro n r pv hr
      cases hr
    · intro n e he
      cases he
    · intro n r pv hr
      cases hr
  exact h.invariant_over hbase hinit fun _ _ _ hb hx hg hs =>
    swapTracked_step hb hobs hx hg.1.1 hg.2 hs

end System

end ZfsEvacuation
