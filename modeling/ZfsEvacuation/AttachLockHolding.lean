import ZfsEvacuation.SyncedViews

/-!
# The attach lock over whole runs

The two lists of the lock parameters are shared by all evacuations, and a key in them has
no owner. What an evacuation needs of the lists survives the writes of the others exactly
as long as nobody unlocks its key, and its mode as long as nobody edits it.
-/
namespace ZfsEvacuation
open ClientProgram Program GuardedRun

/-! ## Resource versions -/

namespace World
variable {w w' : World}

/-- Whatever is new in the second world carries a version that the first has not given out. -/
structure Succeeds (w w' : World) : Prop where
  revision : w.revision ≤ w'.revision
  fresh : ∀ k key (x : Obj k), w'.get k key = some x →
    w.get k key = some x ∨ x.metadata.resourceVersion = w.revision ∧ w.revision < w'.revision

theorem Succeeds.of_same (hobj : w'.objects = w.objects) (hrev : w'.revision = w.revision) :
    Succeeds w w' := by
  refine ⟨Nat.le_of_eq hrev.symm, fun k key x hx => ?_⟩
  rw [get, hobj] at hx
  exact .inl hx

theorem succeeds_update (w : World) {k : Kind} (o : Obj k) : Succeeds w (w.update o) := by
  refine ⟨revision_le_update w o, fun k' key x hx => ?_⟩
  rcases get_update_some hx with hold | ⟨hk, -, hx, hgone⟩
  · exact .inl hold
  · subst hk
    have hkept : o.gone = false := hgone
    refine .inr ⟨by rw [hx]; rfl, ?_⟩
    simp [update, store, hkept]

theorem succeeds_effect (w : World) (c : Call) : Succeeds w (w.effect c) := by
  rcases effect_cases w c with ⟨hobj, hrev, -⟩ | ⟨k, o, -, heq⟩
  · exact .of_same hobj hrev
  · rw [heq]
    exact succeeds_update w o

theorem succeeds_after (w : World) (o : Outcome) (c : Call) : Succeeds w (w.after o c) := by
  rcases after_cases w o c with ⟨heq, -⟩ | heq
  · rw [heq]
    exact .of_same rfl rfl
  · rw [heq]
    exact succeeds_effect w c

theorem succeeds_env (w : World) (e : EnvAction) : Succeeds w (w.env e) := by
  rcases env_cases w e with ⟨hobj, hrev, -⟩ | ⟨k, o, -, heq⟩
  · exact .of_same hobj hrev
  · rw [heq]
    exact succeeds_update w o

end World

namespace System
variable {cfg : Config} {s s' : System} {a : SysAction} {n : String}

/-- What was read of an object is what is stored, unless the stored version is another one. -/
structure ReadNow (w : World) {k : Kind} (key : Key) (x : Obj k) : Prop where
  key_eq : x.key = key
  older : x.metadata.resourceVersion < w.revision
  same : ∀ cur, w.get k key = some cur →
    cur.metadata.resourceVersion = x.metadata.resourceVersion → cur = x

structure Versioned (s : System) : Prop where
  stored : ∀ k key (x : Obj k), s.world.get k key = some x →
    x.metadata.resourceVersion < s.world.revision
  seen : ∀ n r k key (x : Obj k), s.running.get n = some r →
    sawEvent k key (some x) ∈ r.trace → ReadNow s.world key x

theorem versioned_init : Versioned init := by
  constructor
  · intro k key x h
    cases h
  · intro n r k key x h
    cases h

theorem ReadNow.step {w w' : World} {k : Kind} {key : Key} {x : Obj k}
    (h : ReadNow w key x) (hw : World.Succeeds w w') : ReadNow w' key x := by
  refine ⟨h.key_eq, Nat.lt_of_lt_of_le h.older hw.revision, fun cur hcur hversion => ?_⟩
  rcases hw.fresh k key cur hcur with hold | ⟨hnew, -⟩
  · exact h.same cur hold hversion
  · have hlt := h.older
    omega

theorem world_succeeds (h : step cfg s a = some s') : World.Succeeds s.world s'.world := by
  cases step_cases h with
  | env e => exact World.succeeds_env s.world e
  | start name version view _ _ _ _ => exact .of_same rfl rfl
  | call name o r c next _ _ _ => exact World.succeeds_after s.world o c
  | crash => exact .of_same rfl rfl

theorem versioned_step (hv : Versioned s) (h : step cfg s a = some s') : Versioned s' := by
  have hw := world_succeeds h
  constructor
  · intro k key x hx
    rcases hw.fresh k key x hx with hold | ⟨hnew, hlt⟩
    · exact Nat.lt_of_lt_of_le (hv.stored k key x hold) hw.revision
    · omega
  · intro n r' k key x hr' hseen
    cases running_step h hr' with
    | kept _ hr _ => exact (hv.seen n r' k key x hr hseen).step hw
    | started version _ _ _ heq =>
      rw [heq] at hseen
      cases hseen
    | called o r c next hr hprog _ heq =>
      rw [heq] at hseen
      rcases List.mem_cons.mp hseen with hnow | hbefore
      · obtain rfl : Call.get k key = c := congrArg Sigma.fst hnow
        have hstored := answer_get hnow.symm
        have hread : ReadNow s.world key x := by
          refine ⟨World.get_key hstored, hv.stored k key x hstored, fun cur hcur _ => ?_⟩
          rw [hstored] at hcur
          exact (Option.some.inj hcur).symm
        exact hread.step hw
      · exact (hv.seen n r k key x hr hbefore).step hw

end System

/-! ## The stored parameters -/

/-- The lock parameters as they are stored; an absent object is an empty one. -/
def World.params (w : World) : EvacuationParamsSpec :=
  match w.get .params paramsKey with
  | some o => o.data
  | none => {}

theorem World.params_some {w : World} {x : Obj .params}
    (h : w.get .params paramsKey = some x) : w.params = x.data := by rw [params, h]

theorem World.params_congr {w w' : World}
    (h : w'.get .params paramsKey = w.get .params paramsKey) : w'.params = w.params := by
  rw [params, h, params]

def Call.writesParams : Call → Bool
  | .create .params _ | .replace .params _ => true
  | _ => false

namespace System
variable {cfg : Config} {s s' : System} {a : SysAction} {n : String}

/-- Only the controller writes the lock parameters. -/
def KeepsParams : SysAction → Prop
  | .env (.create .params _) | .env (.update .params _) | .env (.delete .params _) => False
  | _ => True

instance : Decidable (KeepsParams a) := by
  unfold KeepsParams
  split <;> infer_instance

/-- The next call writes the parameters. -/
def writesParams (r : Running) : Bool :=
  match r.prog with
  | .call c _ => c.writesParams
  | _ => false

/-- A reconcile in progress is about to write the parameters. -/
structure ParamsWriter (s : System) (n : String) (r : Running) (ref : PvcRef) : Prop where
  running : s.running.get n = some r
  next : ∃ c next, r.prog = .call c next ∧ c.writesParams = true
  knows : Knows r.view r.trace r.status
  claim : r.status.pvcRef = some ref

/-- How one step changes the parameters. -/
inductive ParamsStep (s s' : System) : SysAction → Prop
  | kept (a : SysAction) (h : s'.world.params = s.world.params) : ParamsStep s s' a
  | wrote (n : String) (o : Outcome) (r : Running) (ref : PvcRef) (writer : ParamsWriter s n r ref)
      (write : ParamsWrite r.view r.status ref s.world.params s'.world.params) :
      ParamsStep s s' (.call n o)

/-- The stored parameters are not being deleted. -/
def ParamsAlive (s : System) : Prop :=
  ∀ x, s.world.get .params paramsKey = some x → x.deleting = false

/-- What a reconcile writes to the parameters comes from what is stored. -/
theorem params_written (hc : Contracted cfg s) (hv : Versioned s) (hp : ParamsAlive s)
    {r : Running} {c : Call} {next : c.Resp → M Action} (hr : s.running.get n = some r)
    (hprog : r.prog = .call c next) {o : Obj .params} (hw : World.Written s.world c .params o) :
    o.key = paramsKey ∧ o.deleting = false ∧ ∃ ref, ParamsWriter s n r ref ∧
      ParamsWrite r.view r.status ref s.world.params o.data := by
  have hallowed := hc.allowed hr hprog
  cases hw with
  | create o hnone =>
    obtain ⟨st, hk, ref, href, hmeta, hwrite⟩ := hallowed
    obtain rfl : r.status = st := hk.eq
    have hkey : o.key = paramsKey := congrArg ObjectMeta.key hmeta
    have hempty : s.world.params = {} := by rw [World.params, ← hkey, hnone]
    exact ⟨hkey, rfl, ref, ⟨hr, ⟨.create .params o, next, hprog, rfl⟩, hk, href⟩, hempty ▸ hwrite⟩
  | replace o cur hcur hversion =>
    obtain ⟨st, hk, ref, spec, href, hseen, hwrite⟩ := hallowed
    obtain rfl : r.status = st := hk.eq
    have hread := hv.seen n r .params paramsKey _ hr hseen
    have hkey : o.key = paramsKey := hread.key_eq
    rw [hkey] at hcur
    obtain rfl := hread.same cur hcur hversion
    have hspec : s.world.params = spec := World.params_some hcur
    have hdel := hp _ hcur
    exact ⟨hkey, hdel, ref, ⟨hr, ⟨.replace .params o, next, hprog, rfl⟩, hk, href⟩, hspec ▸ hwrite⟩
  | delete key o hget hdel =>
    obtain ⟨st, -, hfalse⟩ := hallowed
    exact hfalse.elim
  | patch key p o hget =>
    cases p with
    | finalizers _ | label _ _ | annotate _ _ =>
      obtain ⟨st, -, hfalse⟩ := hallowed
      exact hfalse.elim

theorem get_params_env {e : EnvAction} (hp : KeepsParams (.env e)) :
    (s.world.env e).get .params paramsKey = s.world.get .params paramsKey := by
  rcases World.env_cases s.world e with ⟨hobj, -, -⟩ | ⟨k, o, hw, heq⟩
  · rw [World.get, hobj, World.get]
  · rw [heq]
    refine World.get_update_other s.world o fun hk => ?_
    subst hk
    cases hw <;> exact hp.elim

theorem params_step (hc : Contracted cfg s) (hv : Versioned s) (hp : ParamsAlive s)
    (hk : KeepsParams a) (h : step cfg s a = some s') : ParamsStep s s' a := by
  cases step_cases h with
  | env e => exact .kept _ (World.params_congr (get_params_env hk))
  | start name version view _ _ _ _ => exact .kept _ rfl
  | call name o r c next hr hprog hfree =>
    rcases World.after_cases s.world o c with ⟨heq, -⟩ | heq
    · refine .kept _ ?_
      rw [world_proceed]
      exact congrArg World.params heq
    rcases World.effect_cases s.world c with ⟨hobj, -, -⟩ | ⟨k, x, hw, hupdate⟩
    · refine .kept _ (World.params_congr ?_)
      rw [world_proceed, World.get]
      exact congrArg (fun objs => (objs Kind.params).get paramsKey)
        ((congrArg World.objects heq).trans hobj)
    have hworld : s.world.after o c = s.world.update x := heq.trans hupdate
    by_cases hkind : k = .params
    · subst hkind
      obtain ⟨hkey, hdel, ref, hwriter, hwrite⟩ := params_written hc hv hp hr hprog hw
      have hgone : x.gone = false := by simp [Obj.gone, hdel]
      have hstored : (s.world.after o c).get .params paramsKey =
          some (x.stamped s.world.revision) := by
        rw [hworld, ← hkey, World.get_update_self, if_neg (by simp [hgone])]
      refine .wrote name o r ref hwriter ?_
      rw [world_proceed, World.params_some hstored]
      exact hwrite
    · refine .kept _ (World.params_congr ?_)
      rw [world_proceed]
      have hother : (s.world.update x).get .params paramsKey = s.world.get .params paramsKey :=
        World.get_update_other s.world x fun heq => absurd heq.symm hkind
      exact (congrArg (fun w => World.get w .params paramsKey) hworld).trans hother
  | crash => exact .kept _ rfl

theorem paramsAlive_step (hc : Contracted cfg s) (hv : Versioned s) (hp : ParamsAlive s)
    (hk : KeepsParams a) (h : step cfg s a = some s') : ParamsAlive s' := by
  intro x' hx'
  cases step_cases h with
  | env e => exact hp x' ((get_params_env hk).symm.trans hx')
  | start name version view _ _ _ _ => exact hp x' hx'
  | call name o r c next hr hprog hfree =>
    rw [world_proceed] at hx'
    rcases World.after_cases s.world o c with ⟨heq, -⟩ | heq
    · exact hp x' (heq ▸ hx')
    rcases World.get_effect (heq ▸ hx') with hold | ⟨x, hw, -, rfl, -⟩
    · exact hp x' hold
    · exact (params_written hc hv hp hr hprog hw).2.1
  | crash => exact hp x' hx'

/-- The runs in which nobody else touches statuses or parameters. -/
structure ParamsSound (cfg : Config) (s : System) : Prop where
  informed : Informed cfg s
  versioned : Versioned s
  alive : ParamsAlive s

theorem paramsSound_init : ParamsSound cfg init :=
  ⟨informed_init, versioned_init, fun _ h => by cases h⟩

theorem ParamsSound.step (hs : ParamsSound cfg s) (hg : Current s a) (hk : KeepsParams a)
    (h : step cfg s a = some s') : ParamsSound cfg s' :=
  ⟨hs.informed.step hg h, versioned_step hs.versioned h,
    paramsAlive_step hs.informed.contracted hs.versioned hs.alive hk h⟩

end System

/-! ## Who needs the lock -/

/-- The phases from the lock on to the end of the swap. -/
def Phase.held : Phase → Bool
  | .quiescing | .targetSelecting | .transferring | .adopting | .committing | .swapping => true
  | _ => false

/-- A phase of these is entered from one of them, with the same claim, or by a reconcile that
has seen the lock. -/
theorem Writes.held {cfg : Config} {view : Obj .evacuation} {tr : Trace}
    {st w : ZFSEvacuationStatus} (h : Writes cfg view tr st w) (hw : w.phase.held = true) :
    (st.phase.held = true ∧ w.pvcRef = st.pvcRef) ∨
      ∃ r, st.phase = .locking ∧ st.pvcRef = some r ∧ w.pvcRef = some r ∧ written tr = none ∧
        LockSeen tr r.lockKey (specOf view).mode := by
  cases h with
  | locked r lockedAt hp hr hwrote seen => exact .inr ⟨r, hp, hr, hr, hwrote, seen⟩
  | gaveUp msg hp => cases hw
  | _ => first
    | (cases hw; done)
    | exact .inl ⟨by simp_all [Phase.held], rfl⟩

/-- The key an evacuation is locked under, and the mode its spec asks for. -/
structure Wants (e : Obj .evacuation) (k : String) (m : EvacuationMode) : Prop where
  claim : ∃ ref, (viewStatus e).pvcRef = some ref ∧ ref.lockKey = k
  mode : (specOf e).mode = m

namespace System
variable {cfg : Config} {s s' : System} {a : SysAction} {n k : String} {m : EvacuationMode}

/-- An evacuation relies on the lock of its key: it is past Locking, or its reconcile started
there, or its reconcile has seen the lock and is about to go on. -/
inductive Needs (s : System) (n k : String) (m : EvacuationMode) : Prop
  | stored (e : Obj .evacuation) (he : s.world.get .evacuation ⟨"", n⟩ = some e)
      (held : (viewStatus e).phase.held = true) (wants : Wants e k m)
  | working (r : Running) (hr : s.running.get n = some r) (hw : written r.trace = none)
      (held : (viewStatus r.view).phase.held = true) (wants : Wants r.view k m)
  | locking (r : Running) (hr : s.running.get n = some r) (hw : written r.trace = none)
      (h : (viewStatus r.view).phase = .locking) (wants : Wants r.view k m)
      (seen : LockSeen r.trace k m)

/-- No abort and no cleanup unlocks a key that an evacuation needs. -/
def SparesNeeded (s : System) : SysAction → Prop
  | .call n _ => ∀ r ref, ParamsWriter s n r ref →
    (r.status.phase = .aborting ∨ r.status.phase = .cleaningUp) →
      ∀ n' m, ¬ Needs s n' ref.lockKey m
  | _ => True

/-- Nobody edits the mode of an evacuation that needs its lock or is taking it, and nobody
takes the lock of a key that is needed for the other mode. -/
def KeepsModes (s : System) : SysAction → Prop
  | .call n _ => ∀ r ref, ParamsWriter s n r ref → r.status.phase = .locking →
    ∀ n' m, Needs s n' ref.lockKey m → m = (specOf r.view).mode
  | .env (.update .evacuation o) => ∀ cur, s.world.get .evacuation o.key = some cur →
    (specOf o).mode = (specOf cur).mode ∨ (viewStatus cur).phase.held = false ∧
      ∀ r, s.running.get o.name = some r → (viewStatus r.view).phase ≠ .locking
  | _ => True

/-! ## What a step leaves of it -/

/-- What the lists hold for who needs them; the mode only counts where modes are kept. -/
structure Secured (modes : Prop) (p : EvacuationParamsSpec) (k : String) (m : EvacuationMode) :
    Prop where
  locked : p.Locked k
  mode : modes → p.LockedAs k m

theorem Secured.of_lockedAs {modes : Prop} {p : EvacuationParamsSpec} (h : p.LockedAs k m) :
    Secured modes p k m := ⟨h.locked, fun _ => h⟩

/-- The locks of others, and what is not needed, are all that a step takes away. -/
theorem Secured.step {modes : Prop} (hsec : Secured modes s.world.params k m)
    (hn : Needs s n k m) (h : ParamsStep s s' a) (hspare : SparesNeeded s a)
    (hmodes : modes → KeepsModes s a) : Secured modes s'.world.params k m := by
  cases h with
  | kept _ heq =>
    rw [heq]
    exact hsec
  | wrote n' o r ref hwriter hwrite =>
    generalize s'.world.params = p at hwrite
    cases hwrite with
    | lock hphase =>
      by_cases hk : k = ref.lockKey
      · have hmode : modes → (specOf r.view).mode = m := fun hm =>
          (hmodes hm r ref hwriter hphase n m (hk ▸ hn)).symm
        subst hk
        refine ⟨(EvacuationParamsSpec.lockedAs_lock ..).locked, fun hm => ?_⟩
        rw [hmode hm]
        exact EvacuationParamsSpec.lockedAs_lock ..
      · refine ⟨EvacuationParamsSpec.locked_lock.mpr (.inr hsec.locked), fun hm => ?_⟩
        exact (EvacuationParamsSpec.lockedAs_lock_other hk).mpr (hsec.mode hm)
    | unlock hphase =>
      have hk : k ≠ ref.lockKey := fun heq => hspare r ref hwriter hphase n m (heq ▸ hn)
      refine ⟨EvacuationParamsSpec.locked_unlock.mpr ⟨hk, hsec.locked⟩, fun hm => ?_⟩
      exact (EvacuationParamsSpec.lockedAs_unlock_other hk).mpr (hsec.mode hm)

theorem written_of_cons {c : Call} {ans : c.Resp} {tr : Trace} (h : written (⟨c, ans⟩ :: tr) = none) :
    statusWrite c = none ∧ written tr = none := by
  cases hc : statusWrite c with
  | none => exact ⟨rfl, by simpa [written, hc] using h⟩
  | some w => simp [written, hc] at h

end System

theorem Outcome.write_ok {o : Outcome} {r : Except ApiError Unit} (h : o.write r = .ok ()) :
    o.fault = .none ∧ r = .ok () := by
  cases hf : o.fault with
  | none => exact ⟨rfl, by simpa [Outcome.write, hf] using h⟩
  | lost => simp [Outcome.write, hf] at h
  | unacked => simp [Outcome.write, hf] at h

theorem World.create_ok {w : World} {kind : Kind} {o : Obj kind} (h : (w.create o).1 = .ok ()) :
    w.get kind o.key = none := by
  cases hget : w.get kind o.key with
  | none => rfl
  | some cur => simp [World.create, hget] at h

theorem World.replace_ok {w : World} {kind : Kind} {o : Obj kind}
    (h : (w.replace o).1 = .ok ()) : ∃ cur, w.get kind o.key = some cur ∧
      cur.metadata.resourceVersion = o.metadata.resourceVersion := by
  cases hget : w.get kind o.key with
  | none => simp [World.replace, hget] at h
  | some cur =>
    refine ⟨cur, rfl, ?_⟩
    by_contra hne
    simp [World.replace, hget, hne] at h

namespace System
variable {cfg : Config} {s s' : System} {a : SysAction} {n k : String} {m : EvacuationMode}

/-- The call reads the parameters as these, or leaves them so. -/
def ParamsLeft (e : Event kubeInterface) (m : ObjectMeta) (spec : EvacuationParamsSpec) : Prop :=
  sawEvent .params paramsKey (some ⟨m, spec⟩) = e ∨
    createdEvent .params ⟨m, spec⟩ (.ok ()) = e ∨ replacedEvent .params ⟨m, spec⟩ (.ok ()) = e

/-- What a reconcile reads or leaves of the parameters is what is stored after the call. -/
theorem params_left (hs : ParamsSound cfg s) {r : Running} {o : Outcome} {c : Call}
    {next : c.Resp → M Action} (hr : s.running.get n = some r) (hprog : r.prog = .call c next)
    {md : ObjectMeta} {spec : EvacuationParamsSpec}
    (h : ParamsLeft ⟨c, s.world.answer o c⟩ md spec) : (s.world.after o c).params = spec := by
  have hwrote : ∀ x : Obj .params, World.Written s.world c .params x → o.fault = .none →
      x.data = spec → (s.world.after o c).params = spec := by
    intro x hw hfault hdata
    obtain ⟨hkey, hdel, -⟩ :=
      params_written hs.informed.contracted hs.versioned hs.alive hr hprog hw
    have hgone : x.gone = false := by simp [Obj.gone, hdel]
    have hstored : (s.world.after o c).get .params paramsKey =
        some (x.stamped s.world.revision) := by
      rw [World.after, if_neg (by simp [hfault]), World.effect_of_written hw, ← hkey,
        World.get_update_self, if_neg (by simp [hgone])]
    rw [World.params_some hstored, Obj.data_stamped, hdata]
  rcases h with heq | heq | heq
  · obtain rfl : Call.get .params paramsKey = c := congrArg Sigma.fst heq
    have hstored := answer_get heq.symm
    rw [World.after_get, World.params_some hstored]
  · obtain rfl : Call.create .params ⟨md, spec⟩ = c := congrArg Sigma.fst heq
    obtain ⟨hfault, hok⟩ := Outcome.write_ok (eq_of_heq (Sigma.mk.inj heq).2.symm)
    exact hwrote _ (.create _ (World.create_ok hok)) hfault rfl
  · obtain rfl : Call.replace .params ⟨md, spec⟩ = c := congrArg Sigma.fst heq
    obtain ⟨hfault, hok⟩ := Outcome.write_ok (eq_of_heq (Sigma.mk.inj heq).2.symm)
    obtain ⟨cur, hcur, hversion⟩ := World.replace_ok hok
    exact hwrote _ (.replace _ cur hcur hversion) hfault rfl

/-- A reconcile that sees or leaves the lock sees or leaves it in the stored parameters. -/
theorem lockedAs_of_seen (hs : ParamsSound cfg s) {r : Running} {o : Outcome} {c : Call}
    {next : c.Resp → M Action} (hr : s.running.get n = some r) (hprog : r.prog = .call c next)
    (h : LockSeen (⟨c, s.world.answer o c⟩ :: r.trace) k m) :
    LockSeen r.trace k m ∨ (s.world.after o c).params.LockedAs k m := by
  obtain ⟨md, spec, hlocked, hseen⟩ := h
  have hnow : ParamsLeft ⟨c, s.world.answer o c⟩ md spec →
      (s.world.after o c).params.LockedAs k m := fun hleft =>
    params_left hs hr hprog hleft ▸ hlocked
  rcases hseen with hseen | hseen | hseen <;> rcases List.mem_cons.mp hseen with heq | hbefore
  · exact .inr (hnow (.inl heq))
  · exact .inl ⟨md, spec, hlocked, .inl hbefore⟩
  · exact .inr (hnow (.inr (.inl heq)))
  · exact .inl ⟨md, spec, hlocked, .inr (.inl hbefore)⟩
  · exact .inr (hnow (.inr (.inr heq)))
  · exact .inl ⟨md, spec, hlocked, .inr (.inr hbefore)⟩

/-- Reconciles that are in Locking work with the mode of the stored spec. -/
def Agree (s : System) : Prop :=
  ∀ n r e, s.running.get n = some r → s.world.get .evacuation ⟨"", n⟩ = some e →
    (viewStatus r.view).phase = .locking → (specOf e).mode = (specOf r.view).mode

/-- A mode that is kept where it counts. -/
theorem mode_of_edit {e e' : Obj .evacuation} (hk : KeepsModes s a) (hspec : SpecEdit n e e' a)
    (he : s.world.get .evacuation ⟨"", n⟩ = some e)
    (hneeded : (viewStatus e).phase.held = true ∨
      ∃ r, s.running.get n = some r ∧ (viewStatus r.view).phase = .locking) :
    (specOf e').mode = (specOf e).mode := by
  rcases hspec with heq | ⟨o, rfl, hkey, heq⟩
  · rw [heq]
  · rw [heq]
    rcases hk e (hkey ▸ he) with hsame | ⟨hheld, hidle⟩
    · exact hsame
    · rcases hneeded with h | ⟨r, hr, hphase⟩
      · rw [h] at hheld
        cases hheld
      · have hname : o.name = n := congrArg Key.name hkey
        exact absurd hphase (hidle r (hname ▸ hr))

theorem agree_step (hi : Informed cfg s) (ha : Agree s) (hg : Current s a) (hk : KeepsModes s a)
    (h : step cfg s a = some s') : Agree s' := by
  intro n r' e' hr' he' hphase
  have hold : ∀ r, s.running.get n = some r → (viewStatus r.view).phase = .locking →
      (∀ o, a ≠ .env (.create .evacuation o)) → (specOf e').mode = (specOf r.view).mode := by
    intro r hr hphase hnew
    rcases status_step hi hg.1 h he' with ⟨e, he, hstep⟩ | ⟨-, -, o, rfl, -⟩
    · have hmode : (specOf e').mode = (specOf e).mode := by
        cases hstep with
        | kept _ _ _ spec => exact mode_of_edit hk spec he (.inr ⟨r, hr, hphase⟩)
        | wrote _ _ _ _ _ _ _ _ _ _ _ _ spec => rw [spec]
      exact hmode.trans (ha n r e hr he hphase)
    · exact absurd rfl (hnew o)
  cases running_step h hr' with
  | kept _ hr hother =>
    by_cases hnew : ∃ o, a = .env (.create .evacuation o)
    · obtain ⟨o, rfl⟩ := hnew
      rcases status_step hi hg.1 h he' with ⟨e, he, hstep⟩ | ⟨hnone, -, o', heq, hname⟩
      · cases hstep with
        | kept _ _ _ spec =>
          have hmode := mode_of_edit hk spec he (.inr ⟨r', hr, hphase⟩)
          exact hmode.trans (ha n r' e hr he hphase)
      · cases heq
        have hidle : s.running.get o.name = none := hg.2 (hname ▸ hnone)
        rw [hname, hr] at hidle
        cases hidle
    · exact hold r' hr hphase fun o heq => hnew ⟨o, heq⟩
  | started version _ hstored _ _ =>
    obtain ⟨view, hversion, hcur⟩ := hg.2
    obtain rfl : view = r'.view := Option.some.inj (hversion.symm.trans hstored)
    have he : s.world.get .evacuation ⟨"", n⟩ = some e' := by
      cases step_cases h with
      | start _ _ _ _ _ _ _ => exact he'
    rw [Option.some.inj (he.symm.trans hcur)]
  | called o r c next hr hprog _ heq =>
    rw [heq] at hphase ⊢
    exact hold r hr hphase fun _ h => by cases h

theorem phase_congr {st st' : ZFSEvacuationStatus} (h : st.core = st'.core) :
    st.phase = st'.phase := by
  have hcore := congrArg ZFSEvacuationStatus.phase h
  exact hcore

theorem pvcRef_congr {st st' : ZFSEvacuationStatus} (h : st.core = st'.core) :
    st.pvcRef = st'.pvcRef := by
  have hcore := congrArg ZFSEvacuationStatus.pvcRef h
  exact hcore

/-- Who needs the lock after a step needed it before, or has just seen it. -/
theorem needs_step {modes : Prop} (hs : ParamsSound cfg s) (hg : Current s a)
    (hmodes : modes → KeepsModes s a ∧ Agree s) (h : step cfg s a = some s')
    (hn : Needs s' n k m) : (∃ m₀, Needs s n k m₀ ∧ (modes → m₀ = m)) ∨
      s'.world.params.LockedAs k m := by
  cases hn with
  | stored e' he' hheld hwants =>
    obtain ⟨⟨ref, href, hkey⟩, hmode⟩ := hwants
    refine .inl ?_
    rcases status_step hs.informed hg.1 h he' with ⟨e, he, hstep⟩ | ⟨-, hnone, -⟩
    · cases hstep with
      | kept same status _ spec =>
        have hview := viewStatus_congr status
        rw [hview] at hheld href
        refine ⟨_, .stored e he hheld ⟨⟨ref, href, hkey⟩, rfl⟩, fun hm => ?_⟩
        rw [← hmode]
        exact (mode_of_edit (hmodes hm).1 spec he (.inl hheld)).symm
      | wrote r o st w next same running prog knows writes old new spec =>
        rw [phase_congr new] at hheld
        rw [pvcRef_congr new] at href
        rcases writes.held hheld with ⟨hst, hclaim⟩ | ⟨ref', hphase, hst, hw, hwrote, hseen⟩
        · rw [← phase_congr old] at hst
          rw [hclaim, ← pvcRef_congr old] at href
          exact ⟨m, .stored e he hst ⟨⟨ref, href, hkey⟩, spec ▸ hmode⟩, fun _ => rfl⟩
        · obtain rfl : ref' = ref := Option.some.inj (hw.symm.trans href)
          obtain rfl : viewStatus r.view = st := by
            have heq := knows.eq
            rwa [hwrote] at heq
          refine ⟨_, .locking r running hwrote hphase ⟨⟨ref', hst, hkey⟩, rfl⟩ (hkey ▸ hseen),
            fun hm => ?_⟩
          rw [← (hmodes hm).2 n r e running he hphase, ← hmode, spec]
    · rw [viewStatus, hnone] at hheld
      cases hheld
  | working r' hr' hwrote hheld hwants =>
    refine .inl ⟨m, ?_, fun _ => rfl⟩
    cases running_step h hr' with
    | kept _ hr _ => exact .working r' hr hwrote hheld hwants
    | started version _ hstored _ _ =>
      obtain ⟨view, hversion, hcur⟩ := hg.2
      obtain rfl : view = r'.view := Option.some.inj (hversion.symm.trans hstored)
      exact .stored r'.view hcur hheld hwants
    | called o r c next hr hprog _ heq =>
      rw [heq] at hwrote hheld hwants
      exact .working r hr (written_of_cons hwrote).2 hheld hwants
  | locking r' hr' hwrote hphase hwants hseen =>
    have hrun := running_step h hr'
    cases hrun with
    | kept _ hr _ => exact .inl ⟨m, .locking r' hr hwrote hphase hwants hseen, fun _ => rfl⟩
    | started version _ hstored _ heq =>
      rw [heq] at hseen
      obtain ⟨_, _, -, hseen | hseen | hseen⟩ := hseen <;> cases hseen
    | called o r c next hr hprog _ heq =>
      rw [heq] at hwrote hphase hwants hseen
      rcases lockedAs_of_seen hs hr hprog hseen with hbefore | hlocked
      · exact .inl ⟨m, .locking r hr (written_of_cons hwrote).2 hphase hwants hbefore, fun _ => rfl⟩
      · refine .inr ?_
        cases step_cases h with
        | call _ _ r₁ c₁ next₁ hr₁ hprog₁ _ =>
          obtain rfl : r = r₁ := Option.some.inj (hr.symm.trans hr₁)
          rw [hprog] at hprog₁
          cases hprog₁
          exact hlocked

/-! ## Whole runs -/

/-- The lock of everybody who needs one is held. -/
structure LocksHeld (modes : Prop) (cfg : Config) (s : System) : Prop where
  sound : ParamsSound cfg s
  secured : ∀ n k m, Needs s n k m → Secured modes s.world.params k m
  agree : modes → Agree s
  claimed : ∀ n e, s.world.get .evacuation ⟨"", n⟩ = some e →
    (viewStatus e).phase.held = true → ∃ ref, (viewStatus e).pvcRef = some ref

/-- Reconciles start from the stored status, and nobody else touches statuses or parameters. -/
def Undisturbed (s : System) (a : SysAction) : Prop := Current s a ∧ KeepsParams a

/-- No abort or cleanup unlocks a key that is needed. -/
def HoldsLocks (s : System) (a : SysAction) : Prop := Undisturbed s a ∧ SparesNeeded s a

theorem locksHeld_init (modes : Prop) : LocksHeld modes cfg init := by
  refine ⟨paramsSound_init, fun n k m hn => ?_, fun _ n r e hr => ?_, fun n e he => ?_⟩
  · cases hn with
    | stored e he _ _ => cases he
    | working r hr _ _ _ => cases hr
    | locking r hr _ _ _ _ => cases hr
  · cases hr
  · cases he

theorem claimed_step (hi : Informed cfg s) (hl : KeepsEvacs s a) (h : step cfg s a = some s')
    (hc : ∀ n e, s.world.get .evacuation ⟨"", n⟩ = some e →
      (viewStatus e).phase.held = true → ∃ ref, (viewStatus e).pvcRef = some ref)
    {e' : Obj .evacuation} (he' : s'.world.get .evacuation ⟨"", n⟩ = some e')
    (hheld : (viewStatus e').phase.held = true) :
    ∃ ref, (viewStatus e').pvcRef = some ref := by
  rcases status_step hi hl h he' with ⟨e, he, hstep⟩ | ⟨-, hnone, -⟩
  · cases hstep with
    | kept same status _ _ =>
      rw [viewStatus_congr status] at hheld ⊢
      exact hc n e he hheld
    | wrote r o st w next same running prog knows writes old new spec =>
      rw [phase_congr new] at hheld
      rw [pvcRef_congr new]
      rcases writes.held hheld with ⟨hst, hclaim⟩ | ⟨ref, -, -, hw, -⟩
      · rw [← phase_congr old] at hst
        rw [hclaim, ← pvcRef_congr old]
        exact hc n e he hst
      · exact ⟨ref, hw⟩
  · rw [viewStatus, hnone] at hheld
    cases hheld

theorem LocksHeld.step {modes : Prop} (hx : LocksHeld modes cfg s) (hg : HoldsLocks s a)
    (hmodes : modes → KeepsModes s a) (h : step cfg s a = some s') : LocksHeld modes cfg s' := by
  obtain ⟨⟨hcur, hkeep⟩, hspare⟩ := hg
  have hi := hx.sound.informed
  refine ⟨hx.sound.step hcur hkeep h, fun n k m hn => ?_,
    fun hm => agree_step hi (hx.agree hm) hcur (hmodes hm) h,
    fun n e he hheld => claimed_step hi hcur.1 h hx.claimed he hheld⟩
  rcases needs_step hx.sound hcur (fun hm => ⟨hmodes hm, hx.agree hm⟩) h hn with
    ⟨m₀, hn₀, hmode⟩ | hlocked
  · have hparams := params_step hi.contracted hx.sound.versioned hx.sound.alive hkeep h
    have hsec := (hx.secured n k m₀ hn₀).step hn₀ hparams hspare hmodes
    exact ⟨hsec.locked, fun hm => hmode hm ▸ hsec.mode hm⟩
  · exact .of_lockedAs hlocked

/-- In every run in which no key is unlocked that an evacuation needs, every evacuation from
Quiescing to Swapping has its key in the lists. -/
theorem lock_held (cfg : Config) (as : List SysAction) (s : System)
    (h : Run (step cfg) HoldsLocks init as s) (n : String) (e : Obj .evacuation)
    (he : s.world.get .evacuation ⟨"", n⟩ = some e) (hheld : (viewStatus e).phase.held = true) :
    ∃ ref, (viewStatus e).pvcRef = some ref ∧ s.world.params.Locked ref.lockKey := by
  have hx : LocksHeld False cfg s := h.invariant (locksHeld_init False)
    fun _ _ _ hx hg hstep => hx.step hg False.elim hstep
  obtain ⟨ref, href⟩ := hx.claimed n e he hheld
  have hneeds : Needs s n ref.lockKey (specOf e).mode :=
    .stored e he hheld ⟨⟨ref, href, rfl⟩, rfl⟩
  exact ⟨ref, href, (hx.secured n _ _ hneeds).locked⟩

/-! ### A claim that is deleted and made anew -/

instance : Decidable (Undisturbed s a) := inferInstanceAs (Decidable (_ ∧ _))

/-- The evacuation is in a phase that needs the lock, and its key is in no list. -/
def lostLock (s : System) (n : String) : Bool :=
  (s.world.get .evacuation ⟨"", n⟩).any fun e => (viewStatus e).phase.held &&
    (viewStatus e).pvcRef.any fun ref => !decide (s.world.params.Locked ref.lockKey)

/-- The claim of a volume being evacuated is deleted and made anew for another volume, which
is evacuated as well: the abort of the first evacuation unlocks the second one. -/
def replacedClaim : List SysAction :=
  Sample.setup ++ Sample.reconcileOf "pv1" 0 7 ++ Sample.reconcileOf "pv1" 2 5 ++
    Sample.reconcileOf "pv1" 3 4 ++ Sample.reconcileOf "pv1" 4 7 ++
    [ .env (.delete .pvc ⟨"d", "c1"⟩),
      .env (.create .pv (Sample.pv "pv2" "c1" "vol2" Sample.requested)),
      .env (.create .pvc (Sample.pvc "c1" "pv2")),
      .env (.create .zfsVolume (Sample.zfsVolume "vol2" "n1")),
      .env (.create .evacuation (Sample.evacuation "pv2" .whenIdle)) ] ++
    Sample.reconcileOf "pv1" 5 3 ++ Sample.reconcileOf "pv2" 6 7 ++ Sample.reconcileOf "pv2" 9 5 ++
    Sample.reconcileOf "pv2" 10 4 ++ Sample.reconcileOf "pv2" 11 6 ++ Sample.reconcileOf "pv1" 7 5

theorem not_lock_held : ¬ ∀ (cfg : Config) (as : List SysAction) (s : System),
    Run (step cfg) Undisturbed init as s → ∀ (n : String) (e : Obj .evacuation),
      s.world.get .evacuation ⟨"", n⟩ = some e → (viewStatus e).phase.held = true →
        ∃ ref, (viewStatus e).pvcRef = some ref ∧ s.world.params.Locked ref.lockKey := by
  intro hall
  obtain ⟨s, hrun, hs⟩ := Run.exists_of_runList (p := fun s : System => lostLock s "pv2")
    (show (runList (guarded (step Sample.config) Undisturbed) init replacedClaim).any _ = true
      by decide +kernel)
  obtain ⟨e, he, hlost⟩ := (Option.any_eq_true ..).mp hs
  obtain ⟨hheld, hkey⟩ := Bool.and_eq_true_iff.mp hlost
  obtain ⟨ref, href, hnone⟩ := (Option.any_eq_true ..).mp hkey
  obtain ⟨ref', href', hlocked⟩ := hall _ _ s hrun "pv2" e he hheld
  obtain rfl : ref = ref' := Option.some.inj (href.symm.trans href')
  simp [hlocked] at hnone

/-- No stored evacuation past Locking has the key, and no reconcile that started there or in
Locking. -/
def Unneeded (s : System) (k : String) : Prop :=
  (∀ e ∈ s.world.list .evacuation {}, (viewStatus e).phase.held = true →
    ∀ ref, (viewStatus e).pvcRef = some ref → ref.lockKey ≠ k) ∧
  ∀ r ∈ s.running.items,
    (viewStatus r.view).phase.held = true ∨ (viewStatus r.view).phase = .locking →
      ∀ ref, (viewStatus r.view).pvcRef = some ref → ref.lockKey ≠ k

instance : Decidable (Unneeded s k) := inferInstanceAs (Decidable (_ ∧ _))

theorem Unneeded.not_needs (h : Unneeded s k) : ¬ Needs s n k m := by
  intro hn
  cases hn with
  | stored e he hheld hwants =>
    obtain ⟨ref, href, hkey⟩ := hwants.claim
    have hmem : e ∈ s.world.list .evacuation {} :=
      World.mem_list.mpr ((evac_key_name he).1 ▸ he)
    exact h.1 e hmem hheld ref href hkey
  | working r hr _ hheld hwants =>
    obtain ⟨ref, href, hkey⟩ := hwants.claim
    exact h.2 r (KeyedStore.mem_of_get hr) (.inl hheld) ref href hkey
  | locking r hr _ hphase hwants _ =>
    obtain ⟨ref, href, hkey⟩ := hwants.claim
    exact h.2 r (KeyedStore.mem_of_get hr) (.inr hphase) ref href hkey

/-- An abort or a cleanup only writes the parameters for a key without use. -/
def UnlocksUnneeded (s : System) : SysAction → Prop
  | .call n _ => ∀ r, s.running.get n = some r → writesParams r = true →
    (r.status.phase = .aborting ∨ r.status.phase = .cleaningUp) →
      ∀ ref, r.status.pvcRef = some ref → Unneeded s ref.lockKey
  | _ => True

instance : Decidable (UnlocksUnneeded s a) := by
  unfold UnlocksUnneeded
  split <;> infer_instance

theorem UnlocksUnneeded.spares (h : UnlocksUnneeded s a) : SparesNeeded s a := by
  cases a with
  | call n o =>
    intro r ref hwriter hphase n' m
    obtain ⟨c, next, hprog, hwrites⟩ := hwriter.next
    have hnext : writesParams r = true := by rw [writesParams, hprog]; exact hwrites
    exact (h r hwriter.running hnext hphase ref hwriter.claim).not_needs
  | _ => trivial

/-- Two evacuations take their locks at the same time, so that one of them has to read the
parameters again. It is cancelled then, and its abort unlocks its key in the middle of a
reconcile of the other one. -/
def contendedLocks : List SysAction :=
  Sample.pairSetup ++ Sample.reconcilesOf "pv1" [(0, 7), (3, 5), (4, 4)] ++
    Sample.reconcilesOf "pv2" [(1, 7), (7, 5), (8, 4)] ++ Sample.reconcileOf "pv1" 5 3 ++
    Sample.reconcileOf "pv2" 9 7 ++ List.replicate 6 (.call "pv1" {}) ++
    [.env (.update .pv (Sample.pv "pv1" "c1" "vol1" []))] ++ Sample.reconcileOf "pv1" 11 2 ++
    Sample.reconcileOf "pv2" 10 2 ++ Sample.reconcileOf "pv1" 12 12

theorem lock_held_small : ∃ s as e ref, Run (step Sample.config) HoldsLocks init as s ∧
    s.world.get .evacuation ⟨"", "pv2"⟩ = some e ∧ (viewStatus e).phase.held = true ∧
    (viewStatus e).pvcRef = some ref ∧ s.world.params.Locked ref.lockKey ∧
    ¬ s.world.params.Locked "d/c1" := by
  obtain ⟨s, hrun, hs⟩ := Run.exists_of_runList (p := fun s : System =>
      ((s.world.get .evacuation ⟨"", "pv2"⟩).any fun e => (viewStatus e).phase.held) &&
        !decide (s.world.params.Locked "d/c1"))
    (show (runList (guarded (step Sample.config) fun s a => Undisturbed s a ∧ UnlocksUnneeded s a)
      init contendedLocks).any _ = true by decide +kernel)
  obtain ⟨hholds, hunlocked⟩ := Bool.and_eq_true_iff.mp hs
  obtain ⟨e, he, hheld⟩ := (Option.any_eq_true ..).mp hholds
  have hguarded : Run (step Sample.config) HoldsLocks init contendedLocks s :=
    hrun.mono fun _ _ hg => ⟨hg.1, hg.2.spares⟩
  obtain ⟨ref, href, hlocked⟩ := lock_held _ _ s hguarded "pv2" e he hheld
  exact ⟨s, _, e, ref, hguarded, he, hheld, href, hlocked, by simpa using hunlocked⟩

end System

end ZfsEvacuation
