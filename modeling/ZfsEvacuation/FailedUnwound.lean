import ZfsEvacuation.SwapSurvival
import ZfsEvacuation.SnapshotTeardown

/-!
# What Failed leaves behind

Nothing is unwound any more once an evacuation has failed. The abort path gets there with
everything undone, the direct failures in the middle of the way do not.
-/
namespace ZfsEvacuation
open ClientProgram Program GuardedRun

def reclaimPolicyOf (pv : Obj .pv) : Option (Option String) :=
  (pvSpec pv).map (·.persistentVolumeReclaimPolicy)

/-- Nothing is on record of an evacuation that is pending. -/
theorem RecordShape.blank {st : ZFSEvacuationStatus} (hst : RecordShape st)
    (hp : st.phase = .pending) : st.source = none ∧ st.pvcRef = none ∧ st.transfer = none := by
  obtain ⟨hs, href, -⟩ := hst.unstarted hp
  refine ⟨hs, href, Option.not_isSome_iff_eq_none.mp fun ht => ?_⟩
  have hplaced := hst.placed (hst.targeted ht)
  rw [hs] at hplaced
  cases hplaced

namespace System
variable {cfg : Config} {s s' : System} {a : SysAction} {n : String}

/-- Everything that is on record of an evacuation is undone: its claim is not locked, its source
is not guarded, no resource of its attempts exists, and its PV has its own reclaim policy. -/
structure AllUndone (cfg : Config) (s : System) (n : String) (st : ZFSEvacuationStatus) : Prop where
  lock : ∀ ref, st.pvcRef = some ref → ¬ s.world.params.Locked ref.lockKey
  guard : ∀ source, st.source = some source → ∀ zv,
    s.world.get .zfsVolume (source.volKey cfg) = some zv →
      guardFinalizer ∉ zv.metadata.finalizers
  crs : ∀ t, st.transfer = some t → ∀ k cr, 1 ≤ k → k ≤ t.attempt → ¬ HasCr cfg s n k cr
  policy : ∀ source orig, st.source = some source → st.originalReclaimPolicy = some orig →
    ∀ pv, s.world.get .pv ⟨"", n⟩ = some pv → pv.metadata.uid = source.pvUid →
      ∀ policy, reclaimPolicyOf pv = some policy → policy = some orig

/-! ## Aborts in progress -/

/-- The reconcile has started in Aborting. -/
def Unwinds (r : Running) : Prop := (viewStatus r.view).phase = .aborting

instance (r : Running) : Decidable (Unwinds r) := inferInstanceAs (Decidable (_ = _))

/-- The volume whose finalizers the next call patches. -/
def patchedVolume (r : Running) : Option Key :=
  match r.prog with
  | .call (.patch .zfsVolume key (.finalizers _)) _ => some key
  | _ => none

/-- While the abort of an evacuation is in progress, nobody else guards its source volume, or
changes the reclaim policy of its PV, and no other evacuation takes the lock of its claim or
patches the finalizers of its source volume. -/
def SparesUnwinding (cfg : Config) (s : System) : SysAction → Prop
  | .env (.create .zfsVolume o) => ∀ r ∈ s.running.items, Unwinds r →
    ∀ source, (viewStatus r.view).source = some source → o.key = source.volKey cfg →
      guardFinalizer ∉ o.metadata.finalizers
  | .env (.update .zfsVolume o) => ∀ r ∈ s.running.items, Unwinds r →
    ∀ source, (viewStatus r.view).source = some source → o.key = source.volKey cfg →
      ∀ cur, s.world.get .zfsVolume o.key = some cur →
        guardFinalizer ∈ o.metadata.finalizers → guardFinalizer ∈ cur.metadata.finalizers
  | .env (.update .pv o) => ∀ r ∈ s.running.items, Unwinds r → o.key = pvKey r.view →
    ∀ cur, s.world.get .pv o.key = some cur → reclaimPolicyOf o = reclaimPolicyOf cur
  | .call m _ => ∀ r ∈ s.running.items, Unwinds r → r.view.name ≠ m →
    ∀ x, s.running.get m = some x →
      (x.status.phase = .locking → writesParams x = true → ∀ ref, x.status.pvcRef = some ref →
        ∀ ref', (viewStatus r.view).pvcRef = some ref' → ref'.lockKey ≠ ref.lockKey) ∧
      ∀ source, (viewStatus r.view).source = some source →
        patchedVolume x ≠ some (source.volKey cfg)
  | _ => True

/-- The reconcile has listed the evacuations just now. -/
def listedEvacs (tr : Trace) : Bool :=
  tr.head?.any fun e => match e.1 with
    | .list .evacuation _ => true
    | _ => false

def listedPods (tr : Trace) : Bool :=
  tr.any fun e => match e.1 with
    | .list .pod _ => true
    | _ => false

/-- The next call reads this PV. -/
def readPv (r : Running) : Option Key :=
  match r.prog with
  | .call (.get .pv key) _ => some key
  | _ => none

/-- The target selection finds the PV, and the commit does not find another one in its place. -/
def FindsOldPv (s : System) : SysAction → Prop
  | .call m _ => ∀ r, s.running.get m = some r → ∀ key, readPv r = some key →
    (r.status.phase = .targetSelecting → listedEvacs r.trace = true →
      s.world.get .pv key ≠ none) ∧
    (r.status.phase = .committing → listedPods r.trace = true →
      ∀ pv, s.world.get .pv key = some pv → ∀ source, r.status.source = some source →
        pv.metadata.uid = source.pvUid)
  | _ => True

/-- Reconciles start from what is stored, only the controller writes the lock parameters, nobody
else creates transfer resources of an evacuation, and aborts are spared. -/
structure LeavesAborts (cfg : Config) (s : System) (a : SysAction) : Prop where
  current : Current s a
  params : KeepsParams a
  crs : ∀ n, OwnCrs cfg n a
  spares : SparesUnwinding cfg s a

/-- The steps of the runs in which an evacuation fails by way of its abort, or before it has done
anything. -/
def FailsByAbort (cfg : Config) (s : System) (a : SysAction) : Prop :=
  LeavesAborts cfg s a ∧ FindsOldPv s a

/-! ## What a reconcile in Aborting works with -/

/-- What the abort path undoes is not changed on the way. -/
theorem writes_ended {view : Obj .evacuation} {tr : Trace} {st w : ZFSEvacuationStatus}
    (h : Writes cfg view tr st w) (hst : st.phase.ended = true) :
    w.source = st.source ∧ w.pvcRef = st.pvcRef ∧
      w.originalReclaimPolicy = st.originalReclaimPolicy := by
  cases h with
  | accepted _ _ _ hp _ _ _ _ =>
    rw [hp] at hst
    cases hst
  | _ => exact ⟨rfl, rfl, rfl⟩

/-- What a reconcile that has started in Aborting works with. -/
structure AbortKept (s : System) : Prop where
  source : ∀ n r, s.running.get n = some r → Unwinds r →
    r.status.source = (viewStatus r.view).source
  pvcRef : ∀ n r, s.running.get n = some r → Unwinds r →
    r.status.pvcRef = (viewStatus r.view).pvcRef
  policy : ∀ n r, s.running.get n = some r → Unwinds r →
    r.status.originalReclaimPolicy = (viewStatus r.view).originalReclaimPolicy

theorem status_of_called {r : Running} {c : Call} {ans : c.Resp} {prog : M Action} :
    Running.status { r with trace := ⟨c, ans⟩ :: r.trace, prog } =
      (statusWrite c).getD r.status := by
  simp only [Running.status, written, List.findSome?_cons]
  cases statusWrite c <;> rfl

/-- A reconcile that has started in Aborting goes no other way. -/
theorem ended_of_unwinds (ha : Anchored cfg s) {r : Running} {st : ZFSEvacuationStatus}
    (hr : s.running.get n = some r) (hu : Unwinds r) (hk : Knows r.view r.trace st) :
    st.phase.ended = true :=
  ha.dead n r hr (by rw [show (viewStatus r.view).phase = .aborting from hu]; rfl) st hk

theorem abortKept_step (hc : Contracted cfg s) (ha : Anchored cfg s) (hx : AbortKept s)
    (h : step cfg s a = some s') : AbortKept s' := by
  have hstep : ∀ n r', s'.running.get n = some r' → Unwinds r' →
      r'.status.source = (viewStatus r'.view).source ∧
        r'.status.pvcRef = (viewStatus r'.view).pvcRef ∧
        r'.status.originalReclaimPolicy = (viewStatus r'.view).originalReclaimPolicy := by
    intro n r' hr' hu
    cases running_step h hr' with
    | kept _ hr _ => exact ⟨hx.source n r' hr hu, hx.pvcRef n r' hr hu, hx.policy n r' hr hu⟩
    | started version _ _ _ heq =>
      rw [heq]
      exact ⟨rfl, rfl, rfl⟩
    | called o r c next hr hprog _ heq =>
      subst heq
      have hsame := And.intro (hx.source n r hr hu) (And.intro (hx.pvcRef n r hr hu)
        (hx.policy n r hr hu))
      rw [status_of_called]
      cases hw : statusWrite c with
      | none => exact hsame
      | some w =>
        obtain ⟨key, rfl⟩ := statusWrite_some hw
        obtain ⟨st, hk, -, hwrites⟩ := hc.allowed hr hprog
        obtain rfl : r.status = st := hk.eq
        obtain ⟨hs, href, hp⟩ := writes_ended hwrites (ended_of_unwinds ha hr hu hk)
        exact ⟨hs.trans hsame.1, href.trans hsame.2.1, hp.trans hsame.2.2⟩
  exact ⟨fun n r hr hu => (hstep n r hr hu).1, fun n r hr hu => (hstep n r hr hu).2.1,
    fun n r hr hu => (hstep n r hr hu).2.2⟩

/-! ## What is undone stays undone -/

/-- What holds of the evacuations and of the parameters in these runs. -/
structure UnwindBase (cfg : Config) (s : System) : Prop where
  swap : SwapSound cfg s
  params : ParamsSound cfg s
  kept : AbortKept s

theorem UnwindBase.contracted (hb : UnwindBase cfg s) : Contracted cfg s := hb.swap.status.contracted

theorem UnwindBase.ended (hb : UnwindBase cfg s) {r : Running} {st : ZFSEvacuationStatus}
    (hr : s.running.get n = some r) (hu : Unwinds r) (hk : Knows r.view r.trace st) :
    st.phase.ended = true := ended_of_unwinds hb.swap.base.anchored hr hu hk

theorem not_ended {p q : Phase} (hp : p.ended = true) (hq : p = q) (h : q.ended = false) : False := by
  rw [hq, h] at hp
  cases hp

/-- A claim that is not locked is not locked by anybody else during an abort. -/
theorem unlocked_step (hb : UnwindBase cfg s) (hg : LeavesAborts cfg s a)
    (h : step cfg s a = some s') {r : Running} {ref : PvcRef} (hr : s.running.get n = some r)
    (hu : Unwinds r) (href : (viewStatus r.view).pvcRef = some ref)
    (hold : ¬ s.world.params.Locked ref.lockKey) : ¬ s'.world.params.Locked ref.lockKey := by
  cases params_step hb.contracted hb.params.versioned hb.params.alive hg.params h with
  | kept _ heq => rwa [heq]
  | wrote m o x ref' hwriter hwrite =>
    generalize s'.world.params = p at hwrite
    cases hwrite with
    | unlock _ =>
      rw [EvacuationParamsSpec.locked_unlock]
      exact fun hlocked => hold hlocked.2
    | lock hphase =>
      have hother : m ≠ n := by
        rintro rfl
        obtain rfl : x = r := Option.some.inj (hwriter.running.symm.trans hr)
        exact not_ended (hb.ended hr hu hwriter.knows) hphase rfl
      have hwrites : writesParams x = true := by
        obtain ⟨c, next, hprog, hc⟩ := hwriter.next
        rw [writesParams, hprog]
        exact hc
      have hne := (hg.spares r (KeyedStore.get_eq_some_iff.mp hr).1 hu
        (name_of_running hr ▸ Ne.symm hother) x hwriter.running).1 hphase hwrites ref' hwriter.claim
        ref href
      rw [EvacuationParamsSpec.locked_lock]
      exact fun hlocked => hlocked.elim hne hold

/-- The PV of this identity has this reclaim policy, if it is stored under the name. -/
def OwnPolicy (w : World) (n : String) (source : SourceInfo) (orig : String) : Prop :=
  ∀ pv, w.get .pv ⟨"", n⟩ = some pv → pv.metadata.uid = source.pvUid →
    ∀ policy, reclaimPolicyOf pv = some policy → policy = some orig

/-- A PV that has its own policy keeps it during an abort. -/
theorem ownPolicy_step (hb : UnwindBase cfg s) (hg : LeavesAborts cfg s a)
    (h : step cfg s a = some s') {r : Running} {source : SourceInfo} {orig : String}
    (hr : s.running.get n = some r) (hu : Unwinds r)
    (hs : (viewStatus r.view).source = some source)
    (horig : (viewStatus r.view).originalReclaimPolicy = some orig)
    (hold : OwnPolicy s.world n source orig) : OwnPolicy s'.world n source orig := by
  intro pv hpv huid policy hpolicy
  have hdated : source.pvUid < s.world.revision :=
    hb.swap.sources.versions r.view (hb.swap.base.swap.grounded.recorded.views n r hr) source hs
  have hnew : source.pvUid ≠ s.world.revision := Nat.ne_of_lt hdated
  cases obj_step hb.contracted h hpv with
  | same _ hstored => exact hold pv hstored huid policy hpolicy
  | env e x hedit hkey heq _ =>
    subst heq
    cases hedit with
    | create x _ => exact absurd huid.symm hnew
    | update x cur hcur =>
      have hkey' : x.key = ⟨"", n⟩ := hkey
      have hname := hb.swap.base.swap.pvKey_eq hr
      have hsame := hg.spares r (KeyedStore.get_eq_some_iff.mp hr).1 hu (hkey'.trans hname.symm)
        cur hcur
      refine hold cur (hkey' ▸ hcur) huid policy ?_
      rw [← hsame]
      exact hpolicy
    | delete key x hget _ =>
      have hkey' : key = ⟨"", n⟩ := (World.get_key hget).symm.trans hkey
      exact hold x (hkey' ▸ hget) huid policy hpolicy
  | call m o x c next y hx hprog hallowed hwritten hkey heq _ =>
    subst heq
    cases hwritten with
    | create y _ => exact absurd huid.symm hnew
    | replace y cur _ _ =>
      obtain ⟨_, -, hfalse⟩ := hallowed
      exact hfalse.elim
    | delete key y hget _ =>
      have hkey' : key = ⟨"", n⟩ := (World.get_key hget).symm.trans hkey
      exact hold y (hkey' ▸ hget) huid policy hpolicy
    | patch key p y hget =>
      have hkey' : key = ⟨"", n⟩ :=
        (World.get_key hget).symm.trans ((Patch.key_apply p y).symm.trans hkey)
      subst hkey'
      have huid' : y.metadata.uid = source.pvUid := (Patch.uid_apply p y).symm.trans huid
      cases p with
      | finalizers _ | annotate _ _ => exact hold y hget huid' policy hpolicy
      | label _ _ =>
        obtain ⟨_, -, hfalse⟩ := hallowed
        exact hfalse.elim
      | reclaimPolicy own =>
        obtain ⟨st, hk, hown, hpermit⟩ := hallowed
        have hname := hb.swap.base.swap.pvKey_eq hx
        obtain rfl : m = n := congrArg Key.name (hname.symm.trans hown.symm)
        obtain rfl : x = r := Option.some.inj (hx.symm.trans hr)
        obtain rfl : x.status = st := hk.eq
        rcases hpermit with ⟨hphase, -⟩ | ⟨-, hsame⟩
        · exact (not_ended (hb.ended hr hu hk) hphase rfl).elim
        · rw [hb.kept.policy _ _ hr hu, horig] at hsame
          obtain ⟨spec, hspec, rfl⟩ := Option.map_eq_some_iff.mp hpolicy
          have hpatched : (pvSpec y).map (fun old =>
              { old with persistentVolumeReclaimPolicy := some own }) = some spec := hspec
          obtain ⟨_, -, rfl⟩ := Option.map_eq_some_iff.mp hpatched
          exact hsame.symm

/-- The volume is not guarded, if it is stored. -/
def Unguarded (w : World) (key : Key) : Prop :=
  ∀ zv, w.get .zfsVolume key = some zv → guardFinalizer ∉ zv.metadata.finalizers

/-- What the reconcile read last of the volume had no guard. -/
def ReadUnguarded (tr : Trace) (key : Key) : Prop :=
  ∀ zv, tr.head? = some (sawEvent .zfsVolume key (some zv)) →
    guardFinalizer ∉ zv.metadata.finalizers

theorem guard_not_mem_stripZfs {fs : List String} (h : guardFinalizer ∉ fs) :
    guardFinalizer ∉ stripZfs fs := fun hmem => h (List.mem_filter.mp hmem).1

theorem guard_not_mem_unguard (fs : List String) : guardFinalizer ∉ unguard fs := by
  intro hmem
  simpa using (List.mem_filter.mp hmem).2

/-- The patches of finalizers after Aborting put no guard on. -/
theorem FinalizerEdit.unguarded {key : Key} {tr : Trace} {fs : List String}
    (hread : ReadUnguarded tr key) (h : FinalizerEdit .zfsVolume key tr fs stripZfs ∨
      FinalizerEdit .zfsVolume key tr fs unguard) : guardFinalizer ∉ fs := by
  rcases h with ⟨o, hseen, rfl⟩ | ⟨o, hseen, rfl⟩
  · exact guard_not_mem_stripZfs (hread o hseen)
  · exact guard_not_mem_unguard _

/-- A volume without the guard does not get one during the abort. -/
theorem unguarded_step (hb : UnwindBase cfg s) (hg : LeavesAborts cfg s a)
    (h : step cfg s a = some s') {r : Running} {source : SourceInfo}
    (hr : s.running.get n = some r) (hu : Unwinds r)
    (hs : (viewStatus r.view).source = some source)
    (hread : ReadUnguarded r.trace (source.volKey cfg))
    (hold : Unguarded s.world (source.volKey cfg)) : Unguarded s'.world (source.volKey cfg) := by
  intro zv hzv
  have hitems := (KeyedStore.get_eq_some_iff.mp hr).1
  cases obj_step hb.contracted h hzv with
  | same _ hstored => exact hold zv hstored
  | env e x hedit hkey heq _ =>
    subst heq
    cases hedit with
    | create x _ => exact hg.spares r hitems hu source hs hkey
    | update x cur hcur =>
      have hkey' : x.key = source.volKey cfg := hkey
      exact fun hmem => hold cur (hkey' ▸ hcur) (hg.spares r hitems hu source hs hkey' cur hcur hmem)
    | delete key x hget _ =>
      have hkey' : key = source.volKey cfg := (World.get_key hget).symm.trans hkey
      exact hold x (hkey' ▸ hget)
  | call m o x c next y hx hprog hallowed hwritten hkey heq _ =>
    subst heq
    cases hwritten with
    | create y _ =>
      obtain ⟨_, -, target, info, -, -, rfl⟩ := hallowed
      exact List.not_mem_nil
    | replace y cur _ _ =>
      obtain ⟨_, -, hfalse⟩ := hallowed
      exact hfalse.elim
    | delete key y hget _ =>
      have hkey' : key = source.volKey cfg := (World.get_key hget).symm.trans hkey
      exact hold y (hkey' ▸ hget)
    | patch key p y hget =>
      have hkey' : key = source.volKey cfg :=
        (World.get_key hget).symm.trans ((Patch.key_apply p y).symm.trans hkey)
      subst hkey'
      cases p with
      | label _ _ | annotate _ _ =>
        obtain ⟨_, -, hfalse⟩ := hallowed
        exact hfalse.elim
      | finalizers fs =>
        have hpatch : patchedVolume x = some (source.volKey cfg) := by rw [patchedVolume, hprog]
        have hown : m = n := by
          by_contra hother
          have hne := name_of_running hr ▸ Ne.symm hother
          exact (hg.spares r hitems hu hne x hx).2 source hs hpatch
        subst hown
        obtain rfl : x = r := Option.some.inj (hx.symm.trans hr)
        obtain ⟨st, hk, ⟨hphase, -⟩ | ⟨-, hedit⟩⟩ := hallowed
        · exact (not_ended (hb.ended hr hu hk) hphase rfl).elim
        · exact FinalizerEdit.unguarded hread (hedit.imp id fun hunguard => hunguard.2)

/-! ## What an abort has seen undone -/

/-- The volume was seen to be gone or to be without the guard, or was left so. -/
def GuardDropped (tr : Trace) (key : Key) : Prop :=
  sawEvent .zfsVolume key none ∈ tr ∨
    (∃ zv, guardFinalizer ∉ zv.metadata.finalizers ∧
      sawEvent .zfsVolume key (some zv) ∈ tr) ∨
    ∃ fs, guardFinalizer ∉ fs ∧ patchedEvent .zfsVolume key (.finalizers fs) ∈ tr

theorem guardDropped_of_off {tr : Trace} {key : Key} (h : GuardOff tr key) :
    GuardDropped tr key := by
  rcases h with hnone | ⟨zv, hseen, hsame | hpatched⟩
  · exact .inl hnone
  · exact .inr (.inl ⟨zv, hsame ▸ guard_not_mem_unguard _, hseen⟩)
  · exact .inr (.inr ⟨_, guard_not_mem_unguard _, hpatched⟩)

/-- The PV was seen to be gone or to be another one, or was left with this reclaim policy. -/
def PolicySettled (tr : Trace) (key : Key) (source : SourceInfo) (orig : String) : Prop :=
  sawEvent .pv key none ∈ tr ∨
    (∃ pv, pv.metadata.uid ≠ source.pvUid ∧ sawEvent .pv key (some pv) ∈ tr) ∨
    patchedEvent .pv key (.reclaimPolicy orig) ∈ tr

/-- What a reconcile that has started in Aborting has seen undone is undone. -/
structure SeenUndone (cfg : Config) (s : System) (n : String) (r : Running) : Prop where
  lock : ∀ ref, (viewStatus r.view).pvcRef = some ref → UnlockSeen r.trace ref.lockKey →
    ¬ s.world.params.Locked ref.lockKey
  guard : ∀ source, (viewStatus r.view).source = some source →
    GuardDropped r.trace (source.volKey cfg) → Unguarded s.world (source.volKey cfg)
  read : ∀ source, (viewStatus r.view).source = some source →
    GuardDropped r.trace (source.volKey cfg) → ReadUnguarded r.trace (source.volKey cfg)
  policy : ∀ source orig, (viewStatus r.view).source = some source →
    (viewStatus r.view).originalReclaimPolicy = some orig →
    PolicySettled r.trace ⟨"", n⟩ source orig → OwnPolicy s.world n source orig

section Called
variable {o : Outcome} {r : Running} {c : Call} {next : c.Resp → M Action}

/-- What is seen or left unlocked in this call is unlocked after it. -/
theorem unlocked_called (hb : UnwindBase cfg s) (h : step cfg s (.call n o) = some s')
    (hr : s.running.get n = some r) (hprog : r.prog = .call c next) {k : String}
    (hseen : UnlockSeen (⟨c, s.world.answer o c⟩ :: r.trace) k) :
    UnlockSeen r.trace k ∨ ¬ s'.world.params.Locked k := by
  rw [world_call h hr hprog]
  rcases hseen with hnone | ⟨md, spec, hunlocked, hleft⟩
  · rcases List.mem_cons.mp hnone with hnow | hold
    · obtain rfl : Call.get .params paramsKey = c := congrArg Sigma.fst hnow
      refine .inr ?_
      rw [World.after_get, World.params, answer_get hnow.symm]
      simp [EvacuationParamsSpec.Locked]
    · exact .inl (.inl hold)
  · have hnow : ParamsLeft ⟨c, s.world.answer o c⟩ md spec →
        ¬ (s.world.after o c).params.Locked k := fun hnow =>
      (params_left hb.params hr hprog hnow).symm ▸ hunlocked
    rcases hleft with hm | hm | hm <;> rcases List.mem_cons.mp hm with heq | hold
    · exact .inr (hnow (.inl heq))
    · exact .inl (.inr ⟨md, spec, hunlocked, .inl hold⟩)
    · exact .inr (hnow (.inr (.inl heq)))
    · exact .inl (.inr ⟨md, spec, hunlocked, .inr (.inl hold)⟩)
    · exact .inr (hnow (.inr (.inr heq)))
    · exact .inl (.inr ⟨md, spec, hunlocked, .inr (.inr hold)⟩)

/-- What is seen or left without the guard in this call is without it after the call. -/
theorem unguarded_called (h : step cfg s (.call n o) = some s') (hr : s.running.get n = some r)
    (hprog : r.prog = .call c next) {key : Key}
    (hseen : GuardDropped (⟨c, s.world.answer o c⟩ :: r.trace) key) :
    GuardDropped r.trace key ∨ Unguarded s'.world key := by
  rw [world_call h hr hprog]
  rcases hseen with hm | ⟨zv, hno, hm⟩ | ⟨fs, hno, hm⟩ <;>
    rcases List.mem_cons.mp hm with hnow | hold
  · obtain rfl : Call.get .zfsVolume key = c := congrArg Sigma.fst hnow
    refine .inr fun zv hzv => ?_
    rw [World.after_get, answer_get hnow.symm] at hzv
    cases hzv
  · exact .inl (.inl hold)
  · obtain rfl : Call.get .zfsVolume key = c := congrArg Sigma.fst hnow
    refine .inr fun x hx => ?_
    rw [World.after_get, answer_get hnow.symm] at hx
    exact Option.some.inj hx ▸ hno
  · exact .inl (.inr (.inl ⟨zv, hno, hold⟩))
  · obtain rfl : Call.patch .zfsVolume key (.finalizers fs) = c := congrArg Sigma.fst hnow
    refine .inr fun x hx => ?_
    obtain ⟨old, -, rfl⟩ := World.stored_of_patch (eq_of_heq (Sigma.mk.inj hnow).2).symm hx
    exact hno
  · exact .inl (.inr (.inr ⟨fs, hno, hold⟩))

/-- What is seen gone or another one, or left with its policy in this call, is so after it. -/
theorem ownPolicy_called (h : step cfg s (.call n o) = some s') (hr : s.running.get n = some r)
    (hprog : r.prog = .call c next) {source : SourceInfo} {orig : String}
    (hseen : PolicySettled (⟨c, s.world.answer o c⟩ :: r.trace) ⟨"", n⟩ source orig) :
    PolicySettled r.trace ⟨"", n⟩ source orig ∨ OwnPolicy s'.world n source orig := by
  rw [world_call h hr hprog]
  rcases hseen with hm | ⟨pv, hother, hm⟩ | hm <;> rcases List.mem_cons.mp hm with hnow | hold
  · obtain rfl : Call.get .pv ⟨"", n⟩ = c := congrArg Sigma.fst hnow
    refine .inr fun pv hpv => ?_
    rw [World.after_get, answer_get hnow.symm] at hpv
    cases hpv
  · exact .inl (.inl hold)
  · obtain rfl : Call.get .pv ⟨"", n⟩ = c := congrArg Sigma.fst hnow
    refine .inr fun x hx huid => ?_
    rw [World.after_get, answer_get hnow.symm] at hx
    exact absurd huid (Option.some.inj hx ▸ hother)
  · exact .inl (.inr (.inl ⟨pv, hother, hold⟩))
  · obtain rfl : Call.patch .pv ⟨"", n⟩ (.reclaimPolicy orig) = c := congrArg Sigma.fst hnow
    refine .inr fun x hx _ policy hpolicy => ?_
    obtain ⟨old, -, rfl⟩ := World.stored_of_patch (eq_of_heq (Sigma.mk.inj hnow).2).symm hx
    obtain ⟨spec, hspec, rfl⟩ := Option.map_eq_some_iff.mp hpolicy
    have hpatched : (pvSpec old).map (fun old =>
        { old with persistentVolumeReclaimPolicy := some orig }) = some spec := hspec
    obtain ⟨_, -, rfl⟩ := Option.map_eq_some_iff.mp hpatched
    rfl
  · exact .inl (.inr (.inr hold))

/-- The guard is off whatever this call reads of a volume that has lost it. -/
theorem readUnguarded_called {key : Key} (hold : GuardDropped r.trace key → Unguarded s.world key)
    (hseen : GuardDropped (⟨c, s.world.answer o c⟩ :: r.trace) key) :
    ReadUnguarded (⟨c, s.world.answer o c⟩ :: r.trace) key := by
  intro zv hhead
  have hnow := Option.some.inj hhead
  have hstored : s.world.get .zfsVolume key = some zv := by
    obtain rfl : c = .get .zfsVolume key := congrArg Sigma.fst hnow
    exact answer_get hnow
  rw [hnow] at hseen
  rcases hseen with hm | ⟨x, hno, hm⟩ | ⟨fs, hno, hm⟩ <;> rcases List.mem_cons.mp hm with heq | hm
  · have hanswer := eq_of_heq (Sigma.mk.inj heq).2
    cases Except.ok.inj hanswer
  · exact hold (.inl hm) zv hstored
  · have hanswer := eq_of_heq (Sigma.mk.inj heq).2
    cases Except.ok.inj hanswer
    exact hno
  · exact hold (.inr (.inl ⟨x, hno, hm⟩)) zv hstored
  · have hcall := congrArg Sigma.fst heq
    cases hcall
  · exact hold (.inr (.inr ⟨fs, hno, hm⟩)) zv hstored

end Called

/-- A reconcile that has seen nothing yet. -/
theorem seenUndone_of_nil {r : Running} (h : r.trace = []) : SeenUndone cfg s n r := by
  constructor
  · intro ref _ hseen
    rw [h] at hseen
    rcases hseen with hm | ⟨_, _, _, hm | hm | hm⟩ <;> cases hm
  · intro source _ hseen
    rw [h] at hseen
    rcases hseen with hm | ⟨_, _, hm⟩ | ⟨_, _, hm⟩ <;> cases hm
  · intro source _ _ zv hhead
    rw [h] at hhead
    cases hhead
  · intro source orig _ _ hseen
    rw [h] at hseen
    rcases hseen with hm | ⟨_, _, hm⟩ | hm <;> cases hm

theorem seenUndone_step (hb : UnwindBase cfg s) (hg : LeavesAborts cfg s a)
    (hx : ∀ r, s.running.get n = some r → Unwinds r → SeenUndone cfg s n r)
    (h : step cfg s a = some s') {r' : Running} (hr' : s'.running.get n = some r')
    (hu : Unwinds r') : SeenUndone cfg s' n r' := by
  cases running_step h hr' with
  | kept _ hr _ =>
    have hold := hx r' hr hu
    constructor
    · exact fun ref href hseen => unlocked_step hb hg h hr hu href (hold.lock ref href hseen)
    · exact fun source hs hseen => unguarded_step hb hg h hr hu hs (hold.read source hs hseen)
        (hold.guard source hs hseen)
    · exact hold.read
    · exact fun source orig hs horig hseen => ownPolicy_step hb hg h hr hu hs horig
        (hold.policy source orig hs horig hseen)
  | started version _ _ _ heq => exact seenUndone_of_nil (by rw [heq])
  | called o r c next hr hprog _ heq =>
    subst heq
    have hold := hx r hr hu
    constructor
    · intro ref href hseen
      rcases unlocked_called hb h hr hprog hseen with hbefore | hnow
      · exact unlocked_step hb hg h hr hu href (hold.lock ref href hbefore)
      · exact hnow
    · intro source hs hseen
      rcases unguarded_called h hr hprog hseen with hbefore | hnow
      · exact unguarded_step hb hg h hr hu hs (hold.read source hs hbefore)
          (hold.guard source hs hbefore)
      · exact hnow
    · exact fun source hs hseen => readUnguarded_called (hold.guard source hs) hseen
    · intro source orig hs horig hseen
      rcases ownPolicy_called h hr hprog hseen with hbefore | hnow
      · exact ownPolicy_step hb hg h hr hu hs horig (hold.policy source orig hs horig hbefore)
      · exact hnow

/-! ## The resources of earlier attempts -/

/-- The resources of the attempts before the one on record are gone. -/
def EarlierGone (cfg : Config) (s : System) : Prop :=
  ∀ n st t, (n, st) ∈ records s → st.transfer = some t →
    ∀ k cr, 1 ≤ k → k < t.attempt → ¬ HasCr cfg s n k cr

theorem earlierGone_step (hc : Contracted cfg s) (haware : AllAware s)
    (hgone : ∀ n, GoneSeen cfg n s) (hx : EarlierGone cfg s) (hstatus : StatusCurrent s a)
    (hown : ∀ n, OwnCrs cfg n a) (h : step cfg s a = some s') : EarlierGone cfg s' := by
  have hkept : ∀ n st t, (n, st) ∈ records s → st.transfer = some t → ∀ k cr, k ≠ t.attempt →
      ¬ HasCr cfg s n k cr → ¬ HasCr cfg s' n k cr := by
    intro n st t hm ht k cr hne hold hnew
    obtain ⟨r, o, c, next, st₁, t₁, -, hr, -, -, hk, ht₁, hattempt, -⟩ :=
      cr_created hc (hown n) h hold hnew
    obtain rfl : r.status = st₁ := hk.eq
    have hsame := transfer_congr (haware.agree hr hk hm)
    obtain rfl : t = t₁ := Option.some.inj (ht.symm.trans (hsame.trans ht₁))
    exact hne hattempt.symm
  intro n st t hm ht k cr hpos hlt
  cases record_step hc hstatus h hm with
  | kept _ st₀ mem same =>
    rw [transfer_congr same] at ht
    exact hkept n st₀ t mem ht k cr (Nat.ne_of_lt hlt) (hx n st₀ t mem ht k cr hpos hlt)
  | wrote r o w next hr hprog hk hw same =>
    rw [transfer_congr same] at ht
    have hmem := mem_records_running hr
    have hcr : HasCr cfg s' n k cr ↔ HasCr cfg s n k cr := by
      rw [HasCr, HasCr, get_of_statusWrite h hr hprog (by cases cr <;> decide)]
    rw [hcr]
    rcases hw.transfer with hsame | ⟨hcrs, t', ht', hturn⟩
    · cases ht₀ : r.status.transfer with
      | none =>
        rw [ht₀, ht] at hsame
        exact hsame.elim
      | some t₀ =>
        obtain ⟨t₁, ht₁, hattempt⟩ := hsame.attempt ht₀
        obtain rfl : t = t₁ := Option.some.inj (ht.symm.trans ht₁)
        exact hx n _ t₀ hmem ht₀ k cr hpos (hattempt ▸ hlt)
    · obtain rfl : t = t' := Option.some.inj (ht.symm.trans ht')
      cases ht₀ : r.status.transfer with
      | none =>
        simp only [NextAttempt, ht₀] at hturn
        omega
      | some t₀ =>
        simp only [NextAttempt, ht₀] at hturn
        rcases Nat.lt_or_ge k t₀.attempt with hbefore | hnow
        · exact hx n _ t₀ hmem ht₀ k cr hpos hbefore
        · obtain rfl : k = t₀.attempt := by omega
          exact (hgone n).crsGone hr hcrs ht₀ cr
  | fresh _ new =>
    rw [new] at ht
    cases ht

/-! ## The direct failures -/

/-- What the reads of the PV before a direct failure have found. -/
structure OldPvFound (s : System) : Prop where
  selecting : ∀ n r key evacs rest, s.running.get n = some r →
    r.status.phase = .targetSelecting →
    r.trace ≠ sawEvent .pv key none :: listedEvent .evacuation {} evacs :: rest
  committing : ∀ n r key pv sel pods rest source, s.running.get n = some r →
    r.status.phase = .committing → r.status.source = some source →
    r.trace = sawEvent .pv key (some pv) :: rest → listedEvent .pod sel pods ∈ rest →
    pv.metadata.uid = source.pvUid

theorem oldPvFound_step (hx : OldPvFound s) (hg : FindsOldPv s a) (h : step cfg s a = some s') :
    OldPvFound s' := by
  constructor
  · intro n r' key evacs rest hr' hphase htrace
    cases running_step h hr' with
    | kept _ hr _ => exact hx.selecting n r' key evacs rest hr hphase htrace
    | started version _ _ _ heq =>
      rw [heq] at htrace
      cases htrace
    | called o r c next hr hprog _ heq =>
      subst heq
      obtain ⟨hhead, htail⟩ := List.cons.inj htrace
      obtain rfl : c = .get .pv key := congrArg Sigma.fst hhead
      have hread : readPv r = some key := by rw [readPv, hprog]
      have hlisted : listedEvacs r.trace = true := by
        rw [htail]
        rfl
      rw [status_of_called] at hphase
      exact (hg r hr key hread).1 hphase hlisted (answer_get hhead)
  · intro n r' key pv sel pods rest source hr' hphase hs htrace hpods
    cases running_step h hr' with
    | kept _ hr _ => exact hx.committing n r' key pv sel pods rest source hr hphase hs htrace hpods
    | started version _ _ _ heq =>
      rw [heq] at htrace
      cases htrace
    | called o r c next hr hprog _ heq =>
      subst heq
      obtain ⟨hhead, htail⟩ := List.cons.inj htrace
      obtain rfl : c = .get .pv key := congrArg Sigma.fst hhead
      have hread : readPv r = some key := by rw [readPv, hprog]
      have hlisted : listedPods r.trace = true := by
        rw [htail]
        exact List.any_eq_true.mpr ⟨_, hpods, rfl⟩
      rw [status_of_called] at hphase hs
      exact (hg r hr key hread).2 hphase hlisted pv (answer_get hhead) source hs

/-! ## The way to Failed -/

/-- What every state of these runs keeps. -/
structure FailSound (cfg : Config) (s : System) : Prop where
  base : UnwindBase cfg s
  shape : ∀ n st, (n, st) ∈ records s → RecordShape st
  gone : ∀ n, GoneSeen cfg n s
  earlier : EarlierGone cfg s
  undone : ∀ n r, s.running.get n = some r → Unwinds r → SeenUndone cfg s n r
  found : OldPvFound s

/-- Before anything is recorded there is nothing to undo. -/
theorem allUndone_of_blank {st : ZFSEvacuationStatus} (hs : st.source = none)
    (href : st.pvcRef = none) (ht : st.transfer = none) : AllUndone cfg s n st := by
  constructor
  · intro ref h
    rw [href] at h
    cases h
  · intro source h
    rw [hs] at h
    cases h
  · intro t h
    rw [ht] at h
    cases h
  · intro source orig h
    rw [hs] at h
    cases h

/-- What an abort leaves when it is through. -/
theorem FailSound.allUndone (hx : FailSound cfg s) {r : Running} {st : ZFSEvacuationStatus}
    (hr : s.running.get n = some r) (hu : Unwinds r) (hstatus : r.status = st)
    (facts : Unwound cfg r.view r.trace st) : AllUndone cfg s n st := by
  have hundone := hx.undone n r hr hu
  have hs := hx.base.kept.source n r hr hu
  have href := hx.base.kept.pvcRef n r hr hu
  have hpolicy := hx.base.kept.policy n r hr hu
  have hshape := hx.shape n st (hstatus ▸ mem_records_running hr)
  rw [hstatus] at hs href hpolicy
  constructor
  · exact fun ref h => hundone.lock ref (href ▸ h) (facts.lock ref h)
  · exact fun source h => hundone.guard source (hs ▸ h) (guardDropped_of_off (facts.guard source h))
  · intro t ht k cr hpos hle
    have hcrs := facts.crs (hshape.targeted (by rw [ht]; rfl))
    rcases Nat.lt_or_eq_of_le hle with hbefore | rfl
    · exact hx.earlier n st t (hstatus ▸ mem_records_running hr) ht k cr hpos hbefore
    · exact (hx.gone n).crsGone hr hcrs ht cr
  · intro source orig h horig
    refine hundone.policy source orig (hs ▸ h) (hpolicy ▸ horig) ?_
    rw [← hx.base.swap.base.swap.pvKey_eq hr]
    rcases facts.policy source orig h horig with hnone | ⟨pv, hseen, hother⟩ | hpatched
    · exact .inl hnone
    · exact .inr (.inl ⟨pv, hother, hseen⟩)
    · exact .inr (.inr hpatched)

theorem AllUndone.congr {st w : ZFSEvacuationStatus} (h : AllUndone cfg s n st)
    (hs : w.source = st.source) (href : w.pvcRef = st.pvcRef) (ht : w.transfer = st.transfer)
    (horig : w.originalReclaimPolicy = st.originalReclaimPolicy) : AllUndone cfg s n w where
  lock ref hw := h.lock ref (href ▸ hw)
  guard source hw := h.guard source (hs ▸ hw)
  crs t hw := h.crs t (ht ▸ hw)
  policy source orig hw hpolicy := h.policy source orig (hs ▸ hw) (horig ▸ hpolicy)

/-- Failed is only written when everything is undone. -/
theorem FailSound.fails (hx : FailSound cfg s) {r : Running} {w : ZFSEvacuationStatus}
    (hr : s.running.get n = some r) (hw : Writes cfg r.view r.trace r.status w)
    (hphase : w.phase = .failed) :
    AllUndone cfg s n w := by
  have hshape := hx.shape n _ (mem_records_running hr)
  cases hw with
  | unwound msg hp hv hlive facts =>
    have hu : Unwinds r := by
      simp only [entersAbort, hlive, Bool.false_and, Bool.false_or, Bool.and_eq_true,
        decide_eq_true_eq] at hv
      exact hv.2
    exact (hx.allUndone hr hu rfl facts).congr rfl rfl rfl rfl
  | refused msg hp =>
    obtain ⟨hs, href, ht⟩ := hshape.blank hp
    exact allUndone_of_blank hs href ht
  | pvLost msg hp evacs rest seen => exact absurd seen (hx.found.selecting n r _ evacs rest hr hp)
  | pvReplaced msg source pv sel pods rest hp hs seen hpods hother =>
    exact absurd (hx.found.committing n r _ pv sel pods rest source hr hp hs seen hpods) hother
  | shown _ _ hfailed => exact absurd hphase hfailed
  | settles _ hp | blocked _ hp | attempted _ _ _ _ _ hp _ _ _ _ _ | attemptFailing _ _ hp
  | progressed _ _ hp _ | snapDeleteIssued hp _ _ =>
    have hcon : r.status.phase = .failed := hphase
    rw [hp] at hcon
    cases hcon
  | _ => cases hphase

theorem failSound_init : FailSound cfg init := by
  have hnone : ∀ n, init.running.get n = none := fun _ => rfl
  refine ⟨⟨swapSound_run .start, paramsSound_init, ?_⟩, ?_, ?_, ?_, ?_, ?_⟩
  · constructor <;> intro n r hr <;> cases hr
  · intro n st hm
    cases hm
  · intro n r k cr hr
    cases hr
  · intro n st t hm
    cases hm
  · intro n r hr
    cases hr
  · constructor
    · intro n r key evacs rest hr
      cases hr
    · intro n r key pv sel pods rest source hr
      cases hr

theorem FailSound.step (hx : FailSound cfg s) (hswap : SwapSound cfg s') (hg : FailsByAbort cfg s a)
    (h : step cfg s a = some s') : FailSound cfg s' where
  base :=
    ⟨hswap, hx.base.params.step hg.1.current hg.1.params h,
      abortKept_step hx.base.contracted hx.base.swap.base.anchored hx.base.kept h⟩
  shape _ _ hm := recordShape_step hx.base.contracted hg.1.current.status hx.shape h hm
  gone n := gone_step hx.base.contracted (hx.gone n) (hg.1.crs n) h
  earlier := earlierGone_step hx.base.contracted hx.base.swap.status.aware hx.gone hx.earlier
    hg.1.current.status hg.1.crs h
  undone n _ hr hu := seenUndone_step hx.base hg.1 (hx.undone n) h hr hu
  found := oldPvFound_step hx.found hg.2 h

theorem failSound_run {as : List SysAction} (h : Run (step cfg) (FailsByAbort cfg) init as s) :
    FailSound cfg s := by
  have hcurrent : ∀ {as s}, Run (step cfg) (FailsByAbort cfg) init as s → SwapSound cfg s :=
    fun hrun => swapSound_run (hrun.mono fun _ _ hg => hg.1.current)
  induction h with
  | start => exact failSound_init
  | snoc prior hg hs ih => exact ih.step (hcurrent (prior.snoc hg hs)) hg hs

/-- A step after which everything else is as it was leaves undone what is. -/
theorem AllUndone.world {st : ZFSEvacuationStatus} (h : AllUndone cfg s n st)
    (hsame : ∀ (k : Kind) (key : Key), k ≠ .evacuation → s'.world.get k key = s.world.get k key) :
    AllUndone cfg s' n st := by
  constructor
  · intro ref href
    rw [World.params_congr (hsame _ _ (by decide))]
    exact h.lock ref href
  · intro source hs zv hzv
    rw [hsame _ _ (by decide)] at hzv
    exact h.guard source hs zv hzv
  · intro t ht k cr hpos hle
    rw [HasCr, hsame _ _ (by cases cr <;> decide)]
    exact h.crs t ht k cr hpos hle
  · intro source orig hs horig pv hpv
    rw [hsame _ _ (by decide)] at hpv
    exact h.policy source orig hs horig pv hpv

/-- The status of the evacuation becomes Failed in this step. -/
structure BecomesFailed (s s' : System) (n : String) (st : ZFSEvacuationStatus) : Prop where
  stored : persisted s' n = some st
  failed : st.phase = .failed
  before : ∀ st₀, persisted s n = some st₀ → st₀.phase ≠ .failed

/-- In every run in which aborts are spared, the target selection finds the PV and the commit
finds no other one: whenever an evacuation becomes Failed, everything on record of it is undone. -/
theorem failed_all_undone (cfg : Config) (as : List SysAction) (s s' : System) (a : SysAction)
    (n : String) (st : ZFSEvacuationStatus) (h : Run (step cfg) (FailsByAbort cfg) init as s)
    (hg : FailsByAbort cfg s a) (hs : step cfg s a = some s') (hf : BecomesFailed s s' n st) :
    AllUndone cfg s' n st := by
  have hx := failSound_run h
  obtain ⟨e', he', rfl⟩ := Option.map_eq_some_iff.mp hf.stored
  rcases status_after core_mergeStatus hx.base.contracted hx.base.swap.status.aware
    hg.1.current.status hs he' with ⟨e, he, -, hsame | ⟨st₀, w, hwrite⟩⟩ | ⟨-, hfresh, -⟩
  · have hold : persisted s n = some (viewStatus e) := by rw [persisted, he, Option.map_some]
    exact absurd (hsame ▸ hf.failed) (hf.before _ hold)
  · obtain ⟨r, o, next, rfl, hr, hprog, hk, hw⟩ := hwrite.caller
    obtain rfl : r.status = st₀ := hk.eq
    have hphase : w.phase = .failed := (phase_congr hwrite.new).symm.trans hf.failed
    have hundone := (hx.fails hr hw hphase).world fun k key hne =>
      get_of_statusWrite hs hr hprog hne
    have hcore := hwrite.new
    have hsource := congrArg ZFSEvacuationStatus.source hcore
    have hpolicy := congrArg ZFSEvacuationStatus.originalReclaimPolicy hcore
    exact hundone.congr hsource (pvcRef_congr hcore) (transfer_congr hcore) hpolicy
  · have hpending := hf.failed
    rw [hfresh] at hpending
    cases hpending

/-! ### A direct failure and an abort -/

/-- A decidable case of `LeavesAborts`. -/
def AbortsQuietly (cfg : Config) (s : System) (a : SysAction) : Prop :=
  Current s a ∧ KeepsParams a ∧ NoCrs a ∧ SparesUnwinding cfg s a

theorem AbortsQuietly.leaves (h : AbortsQuietly cfg s a) : LeavesAborts cfg s a :=
  ⟨h.1, h.2.1, fun _ => h.2.2.1.ownCrs, h.2.2.2⟩

instance : Decidable (SparesUnwinding cfg s a) := by
  unfold SparesUnwinding
  rcases a with (⟨⟨⟩, _⟩ | ⟨⟨⟩, _⟩ | _) | _ <;> dsimp only <;> infer_instance

instance : Decidable (AbortsQuietly cfg s a) := inferInstanceAs (Decidable (_ ∧ _ ∧ _ ∧ _))

instance : Decidable (FindsOldPv s a) := by
  unfold FindsOldPv
  rcases a with _ | _ | _ | _ <;> dsimp only <;> infer_instance

/-- A decidable case of `FailsByAbort`. -/
def FailsQuietly (cfg : Config) (s : System) (a : SysAction) : Prop :=
  AbortsQuietly cfg s a ∧ FindsOldPv s a

theorem FailsQuietly.byAbort (h : FailsQuietly cfg s a) : FailsByAbort cfg s a := ⟨h.1.leaves, h.2⟩

instance : Decidable (FailsQuietly cfg s a) := inferInstanceAs (Decidable (_ ∧ _))

/-- The evacuation pv1 becomes Failed, and its claim is locked or not. -/
def failsLocked (locked : Bool) (s s' : System) : Bool :=
  ((persisted s "pv1").all fun st => st.phase ≠ .failed) &&
    (persisted s' "pv1").any fun st => st.phase = .failed &&
      st.pvcRef.any fun ref => decide (s'.world.params.Locked ref.lockKey) == locked

theorem becomesFailed_of_failsLocked {locked : Bool} (h : failsLocked locked s s' = true) :
    ∃ st ref, BecomesFailed s s' "pv1" st ∧ st.pvcRef = some ref ∧
      (locked = true → s'.world.params.Locked ref.lockKey) := by
  obtain ⟨hbefore, hafter⟩ := Bool.and_eq_true_iff.mp h
  obtain ⟨st, hst, hboth⟩ := (Option.any_eq_true ..).mp hafter
  obtain ⟨hfailed, hclaim⟩ := Bool.and_eq_true_iff.mp hboth
  obtain ⟨ref, href, hlocked⟩ := (Option.any_eq_true ..).mp hclaim
  refine ⟨st, ref, ⟨hst, of_decide_eq_true hfailed, fun st₀ h₀ => ?_⟩, href, fun heq => ?_⟩
  · rw [h₀] at hbefore
    simpa using hbefore
  · subst heq
    simpa using hlocked

/-- The PV is deleted and created again before the commit, and the next reconcile is about to
write that the evacuation has failed. -/
def failsAtCommit : List SysAction :=
  Sample.toCommitting ++
    [ .env (.delete .pv ⟨"", "pv1"⟩),
      .env (.create .pv (Sample.pv "pv1" "c1" "vol1" Sample.requested)) ] ++
    Sample.reconcileOf "pv1" 11 5

theorem not_failed_all_undone : ¬ ∀ (cfg : Config) (as : List SysAction) (s s' : System)
    (a : SysAction) (n : String) (st : ZFSEvacuationStatus),
    Run (step cfg) (LeavesAborts cfg) init as s → LeavesAborts cfg s a →
    step cfg s a = some s' → BecomesFailed s s' n st → AllUndone cfg s' n st := by
  intro hall
  obtain ⟨s, hrun, hs⟩ := Run.exists_of_runList
    (p := fun s : System => decide (AbortsQuietly Sample.config s (.call "pv1" {})) &&
      (step Sample.config s (.call "pv1" {})).any (failsLocked true s))
    (show (runList (guarded (step Sample.config) (AbortsQuietly Sample.config)) init
      failsAtCommit).any _ = true by decide +kernel)
  obtain ⟨hguard, hfails⟩ := Bool.and_eq_true_iff.mp hs
  obtain ⟨s', hstep, hlocked⟩ := (Option.any_eq_true ..).mp hfails
  obtain ⟨st, ref, hfailed, href, hheld⟩ := becomesFailed_of_failsLocked hlocked
  have hundone := hall _ _ s s' (.call "pv1" {}) "pv1" st (hrun.mono fun _ _ hg => hg.leaves)
    (of_decide_eq_true hguard).leaves hstep hfailed
  exact hundone.lock ref href (hheld rfl)

/-- The PV is not to be moved any more. -/
def unrequested : SysAction :=
  .env (.update .pv ⟨{ name := "pv1" },
    ({ spec := some
         { claimRef := some { ns := some "d", name := some "c1" }
           persistentVolumeReclaimPolicy := some "Retain"
           csi := some { driver := zfsDriver, volumeHandle := "vol1" } }
       phase := some "Bound" } : PersistentVolume)⟩)

/-- A transfer that is cancelled, up to the last call of the abort. -/
def cancelledTransfer : List SysAction :=
  Sample.toTransfer ++ [unrequested] ++ Sample.reconcileOf "pv1" 9 2 ++
    Sample.reconcileOf "pv1" 10 8 ++ Sample.reconcileOf "pv1" 11 15

/-- A cancelled transfer of a small cluster becomes Failed with everything undone. -/
theorem failed_all_undone_cancelled : ∃ (as : List SysAction) (s s' : System) (a : SysAction)
    (st : ZFSEvacuationStatus), Run (step Sample.config) (FailsByAbort Sample.config) init as s ∧
    step Sample.config s a = some s' ∧ BecomesFailed s s' "pv1" st ∧
    AllUndone Sample.config s' "pv1" st := by
  obtain ⟨s, hrun, hs⟩ := Run.exists_of_runList
    (p := fun s : System => decide (FailsQuietly Sample.config s (.call "pv1" {})) &&
      (step Sample.config s (.call "pv1" {})).any (failsLocked false s))
    (show (runList (guarded (step Sample.config) (FailsQuietly Sample.config)) init
      cancelledTransfer).any _ = true by decide +kernel)
  obtain ⟨hguard, hfails⟩ := Bool.and_eq_true_iff.mp hs
  obtain ⟨s', hstep, hunlocked⟩ := (Option.any_eq_true ..).mp hfails
  obtain ⟨st, _, hfailed, -⟩ := becomesFailed_of_failsLocked hunlocked
  have hquiet : FailsQuietly Sample.config s (.call "pv1" {}) := of_decide_eq_true hguard
  have hruns : Run (step Sample.config) (FailsByAbort Sample.config) init cancelledTransfer s :=
    hrun.mono fun _ _ hg => hg.byAbort
  exact ⟨_, s, s', _, st, hruns, hstep, hfailed,
    failed_all_undone _ _ s s' _ "pv1" st hruns hquiet.byAbort hstep hfailed⟩

end System

end ZfsEvacuation
