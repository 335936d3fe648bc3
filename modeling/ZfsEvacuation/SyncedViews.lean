import ZfsEvacuation.SystemContract

/-!
# Reconciles that know the stored status

Where every reconcile starts from the stored ZFSEvacuation, what it knows of its status
is what is stored, up to the group that a merge patch keeps.
-/
namespace ZfsEvacuation
open ClientProgram Program GuardedRun

/-- The status a reconcile works on now. -/
def Running.status (r : Running) : ZFSEvacuationStatus :=
  (written r.trace).getD (viewStatus r.view)

namespace SameEvac

theorem refl (e : Obj .evacuation) : SameEvac e e := ⟨rfl, rfl, id⟩

theorem trans {e e' e'' : Obj .evacuation} (h : SameEvac e e') (h' : SameEvac e' e'') :
    SameEvac e e'' :=
  ⟨h'.uid.trans h.uid, h'.pvName.trans h.pvName, fun hd => h'.deleting (h.deleting hd)⟩

end SameEvac

theorem EvacStep.same {cfg : Config} {s : System} {n : String} {e e' : Obj .evacuation}
    {a : SysAction} (h : EvacStep cfg s n e e' a) : SameEvac e e' := by
  cases h with
  | edited same _ _ _ _ => exact same
  | wrote _ _ _ _ _ same _ _ _ _ _ _ => exact same
  | signed _ _ _ _ same _ _ _ _ _ => exact same

theorem viewStatus_congr {e e' : Obj .evacuation} (h : statusOf e' = statusOf e) :
    viewStatus e' = viewStatus e := by rw [viewStatus, h, viewStatus]

/-- A call that writes no status leaves what is known of it. -/
theorem Knows.of_cons {view : Obj .evacuation} {tr : Trace} {c : Call} {a : c.Resp}
    {st : ZFSEvacuationStatus} (h : Knows view (⟨c, a⟩ :: tr) st) (hc : statusWrite c = none) :
    Knows view tr st := by
  refine ⟨?_, fun e he => h.acked e (List.mem_cons_of_mem _ he)⟩
  have heq := h.eq
  simp only [written, List.findSome?_cons, hc] at heq
  exact heq

/-- After a write, the written status is known, and the write was confirmed. -/
theorem Knows.of_write {view : Obj .evacuation} {tr : Trace} {key : Key}
    {w st : ZFSEvacuationStatus} {a : Except ApiError Unit}
    (h : Knows view (⟨.patch .evacuation key (.status w), a⟩ :: tr) st) : st = w ∧ a = .ok () := by
  refine ⟨h.eq.symm, ?_⟩
  cases a with
  | ok u => rfl
  | error err => exact absurd ⟨key, w, err, rfl⟩ (h.acked _ (List.mem_cons_self ..))

theorem statusWrite_some {c : Call} {w : ZFSEvacuationStatus} (h : statusWrite c = some w) :
    ∃ key, c = .patch .evacuation key (.status w) := by
  cases c with
  | patch k key p =>
    cases p with
    | status st =>
      obtain rfl := Option.some.inj h
      exact ⟨key, rfl⟩
    | finalizers _ => cases k <;> cases h
    | label _ _ => cases k <;> cases h
    | annotate _ _ => cases k <;> cases h
    | reclaimPolicy _ => cases h
  | _ => cases h

/-- A confirmed patch is stored. -/
theorem World.stored_of_patch {w : World} {o : Outcome} {k : Kind} {key : Key} {p : Patch k}
    {x' : Obj k} (hok : w.answer o (.patch k key p) = .ok ())
    (hx' : (w.after o (.patch k key p)).get k key = some x') :
    ∃ x, w.get k key = some x ∧ x' = (p.apply x).stamped w.revision := by
  have hfault : o.fault = .none := by
    cases hf : o.fault with
    | none => rfl
    | lost => simp [World.answer, Outcome.write, hf] at hok
    | unacked => simp [World.answer, Outcome.write, hf] at hok
  cases hget : w.get k key with
  | none => simp [World.answer, Outcome.write, hfault, World.patch, hget] at hok
  | some x =>
    rw [World.after, if_neg (by simp [hfault]), World.get_patch_self hget] at hx'
    split_ifs at hx'
    exact ⟨x, rfl, (Option.some.inj hx').symm⟩

/-- A confirmed status write is stored. -/
theorem World.stored_of_write {w : World} {o : Outcome} {key : Key} {st : ZFSEvacuationStatus}
    {e' : Obj .evacuation} (hok : w.answer o (.patch .evacuation key (.status st)) = .ok ())
    (he' : (w.after o (.patch .evacuation key (.status st))).get .evacuation key = some e') :
    ∃ old, viewStatus e' = mergeStatus old st := by
  obtain ⟨e, -, rfl⟩ := World.stored_of_patch hok he'
  exact ⟨statusOf e, rfl⟩

namespace System
variable {cfg : Config} {s s' : System} {a : SysAction} {n : String}

/-- What a reconcile in progress knows of its evacuation. -/
structure Knowing (e : Obj .evacuation) (r : Running) : Prop where
  same : SameEvac r.view e
  status : ∀ st, Knows r.view r.trace st → (viewStatus e).core = st.core

def Synced (s : System) : Prop :=
  ∀ n r e, s.running.get n = some r → s.world.get .evacuation ⟨"", n⟩ = some e → Knowing e r

/-- Nobody else interferes, and reconciles start from what is stored. -/
def Current (s : System) (a : SysAction) : Prop := KeepsEvacs s a ∧ UpToDate s a

instance : DecidableEq (Obj .evacuation)
  | ⟨m, (d : ZFSEvacuation)⟩, ⟨m', (d' : ZFSEvacuation)⟩ =>
    decidable_of_iff (m = m' ∧ d = d')
      ⟨fun ⟨hm, hd⟩ => by
        subst hm
        subst hd
        rfl, fun h => ⟨congrArg Obj.metadata h, congrArg Obj.data h⟩⟩

section Stored
variable {α : Type} {o : Option α} {p : α → Prop} [∀ a, Decidable (p a)]

instance : Decidable (∀ a, o = some a → p a) :=
  match o with
  | none => isTrue fun _ h => by cases h
  | some a => decidable_of_iff (p a) ⟨fun h _ heq => Option.some.inj heq ▸ h, fun h => h a rfl⟩

instance : Decidable (∃ a, o = some a ∧ p a) :=
  match o with
  | none => isFalse fun ⟨_, h, _⟩ => by cases h
  | some a => decidable_of_iff (p a)
      ⟨fun h => ⟨a, rfl, h⟩, fun ⟨_, heq, h⟩ => (Option.some.inj heq).symm ▸ h⟩

end Stored

instance : Decidable (KeepsEvacs s a) := by
  unfold KeepsEvacs
  split
  · unfold EnvAction.KeepsEvacs
    split <;> infer_instance
  · infer_instance

instance : Decidable (Current s a) := by
  unfold Current UpToDate
  split <;> infer_instance

/-- What a reconcile takes for the status of its evacuation is what is stored. -/
def Aware (e : Obj .evacuation) (r : Running) : Prop :=
  ∀ st, Knows r.view r.trace st → (viewStatus e).core = st.core

def AllAware (s : System) : Prop :=
  ∀ n r e, s.running.get n = some r → s.world.get .evacuation ⟨"", n⟩ = some e → Aware e r

/-- The same about one part of the status. -/
def AllAwareOf {β : Type} (part : ZFSEvacuationStatus → β) (s : System) : Prop :=
  ∀ n r e, s.running.get n = some r → s.world.get .evacuation ⟨"", n⟩ = some e →
    ∀ st, Knows r.view r.trace st → part (viewStatus e) = part st

/-- An edit that is no status write keeps the status. -/
theorem edit_status {e e' : Obj .evacuation} (hedit : EvacEdit cfg s n e e' a)
    (hl : KeepsStatuses s a) : statusOf e' = statusOf e ∨ ∃ o r w next, a = .call n o ∧
      s.running.get n = some r ∧
      r.prog = .call (.patch .evacuation (evacKey r.view) (.status w)) next := by
  cases hedit with
  | updated o hkey hcur => exact .inl (hl e hcur)
  | marked key => exact .inl rfl
  | wrote r o st w next running prog _ _ => exact .inr ⟨o, r, w, next, rfl, running, prog⟩
  | signed r o fs next running prog allowed => exact .inl rfl

section Part
variable {β : Type} {part : ZFSEvacuationStatus → β}
  (hpart : ∀ old w, part (mergeStatus old w) = part w)
include hpart

theorem aware_called {o : Outcome} {r : Running} {c : Call} {next : c.Resp → M Action}
    {e' : Obj .evacuation} {st : ZFSEvacuationStatus} (hc : Contracted cfg s)
    (hs : AllAwareOf part s) (h : step cfg s (.call n o) = some s')
    (hr : s.running.get n = some r) (hprog : r.prog = .call c next)
    (he' : (s.world.after o c).get .evacuation ⟨"", n⟩ = some e')
    (hevac : s'.world.get .evacuation ⟨"", n⟩ = some e')
    (hk : Knows r.view (⟨c, s.world.answer o c⟩ :: r.trace) st) :
    part (viewStatus e') = part st := by
  have hname : r.view.name = n := name_of_running hr
  cases hw : statusWrite c with
  | some w =>
    obtain ⟨key, rfl⟩ := statusWrite_some hw
    obtain ⟨rfl, hok⟩ := hk.of_write
    obtain ⟨st₀, -, hkey, -⟩ := hc.allowed hr hprog
    have hkey' : key = ⟨"", n⟩ := by rw [hkey, evacKey, hname]
    rw [hkey'] at hok he'
    obtain ⟨old, hmerged⟩ := World.stored_of_write hok he'
    rw [hmerged, hpart]
  | none =>
    rcases evac_edit hc h hevac with ⟨e, he, hcase⟩ | ⟨-, o', ha, -, -⟩
    · have hknown : part (viewStatus e) = part st := hs n r e hr he st (hk.of_cons hw)
      have hstatus : statusOf e' = statusOf e := by
        rcases hcase with rfl | hedit
        · rfl
        · rcases edit_status hedit trivial with hsame | ⟨o', r', w, next', -, hr', hprog'⟩
          · exact hsame
          · obtain rfl := Option.some.inj (hr.symm.trans hr')
            rw [hprog] at hprog'
            cases hprog'
            cases hw
      rw [viewStatus_congr hstatus, hknown]
    · cases ha

theorem allAwareOf_step (hc : Contracted cfg s) (hs : AllAwareOf part s) (hl : KeepsStatuses s a)
    (hu : UpToDate s a) (h : step cfg s a = some s') : AllAwareOf part s' := by
  intro n r' e' hr' he' st hk
  cases running_step h hr' with
  | kept a hrun hother =>
    rcases evac_edit hc h he' with ⟨e, he, rfl | hedit⟩ | ⟨hnone, o, rfl, -, hname⟩
    · exact hs n r' e' hrun he st hk
    · rcases edit_status hedit hl with hsame | ⟨o, r, w, next, rfl, -, -⟩
      · rw [viewStatus_congr hsame, hs n r' e hrun he st hk]
      · exact absurd rfl (hother o)
    · have hidle : s.running.get o.name = none := hu (hname ▸ hnone)
      rw [hname, hrun] at hidle
      cases hidle
  | started version idle stored named eq =>
    obtain ⟨view, hstored, hcur⟩ := hu
    obtain rfl : view = r'.view := Option.some.inj (hstored.symm.trans stored)
    have hsame : s'.world = s.world := by
      cases step_cases h with
      | start name version view _ _ _ _ => rfl
    rw [hsame, hcur] at he'
    obtain rfl := Option.some.inj he'
    rw [eq] at hk
    rw [← hk.eq]
    rfl
  | called o r c next hr hprog hfree eq =>
    have hafter := world_call h hr hprog
    rw [eq] at hk
    exact aware_called hpart hc hs h hr hprog (hafter ▸ he') he' hk

end Part

theorem allAware_step (hc : Contracted cfg s) (hs : AllAware s) (hl : KeepsStatuses s a)
    (hu : UpToDate s a) (h : step cfg s a = some s') : AllAware s' :=
  allAwareOf_step core_mergeStatus hc hs hl hu h

theorem same_step (hc : Contracted cfg s) (hl : KeepsEvacs s a) (h : step cfg s a = some s')
    {e e' : Obj .evacuation} (he : s.world.get .evacuation ⟨"", n⟩ = some e)
    (he' : s'.world.get .evacuation ⟨"", n⟩ = some e') : SameEvac e e' := by
  rcases evac_step hc hl h he' with ⟨e₀, he₀, hcase⟩ | ⟨hnone, -⟩
  · obtain rfl := Option.some.inj (he.symm.trans he₀)
    exact hcase.elim (fun heq => heq ▸ SameEvac.refl e) EvacStep.same
  · rw [hnone] at he
    cases he

theorem synced_step (hc : Contracted cfg s) (hs : Synced s) (hg : Current s a)
    (h : step cfg s a = some s') : Synced s' := by
  have haware : AllAware s' :=
    allAware_step hc (fun n r e hr he => (hs n r e hr he).status) hg.1.statuses hg.2 h
  intro n r' e' hr' he'
  refine ⟨?_, haware n r' e' hr' he'⟩
  have hstored : ∀ r, s.running.get n = some r → SameEvac r.view e' := by
    intro r hr
    rcases evac_step hc hg.1 h he' with ⟨e, he, -⟩ | ⟨hnone, o, rfl, -, hname⟩
    · exact (hs n r e hr he).same.trans (same_step hc hg.1 h he he')
    · have hidle : s.running.get o.name = none := hg.2 (hname ▸ hnone)
      rw [hname, hr] at hidle
      cases hidle
  cases running_step h hr' with
  | kept a hrun _ => exact hstored r' hrun
  | started version idle stored named eq =>
    obtain ⟨view, hview, hcur⟩ := hg.2
    obtain rfl : view = r'.view := Option.some.inj (hview.symm.trans stored)
    cases step_cases h with
    | start name version view' _ _ _ _ =>
      rw [world_proceed] at he'
      obtain rfl := Option.some.inj (hcur.symm.trans he')
      exact SameEvac.refl _
  | called o r c next hr hprog hfree eq =>
    rw [eq]
    exact hstored r hr

/-- Every reconcile in progress keeps the contract and knows the stored status. -/
structure Informed (cfg : Config) (s : System) : Prop where
  contracted : Contracted cfg s
  synced : Synced s

theorem informed_init : Informed cfg init := by
  constructor
  · intro n r h
    cases h
  · intro n r e h
    cases h

theorem Informed.step (hi : Informed cfg s) (hg : Current s a) (h : step cfg s a = some s') :
    Informed cfg s' :=
  ⟨contracted_step hi.contracted h, synced_step hi.contracted hi.synced hg h⟩

theorem informed_run {as : List SysAction} (h : Run (step cfg) Current init as s) :
    Informed cfg s :=
  h.invariant informed_init fun _ _ _ hi hg hstep => hi.step hg hstep

end System

/-! ## How the stored status changes -/

/-- How one step changes a stored ZFSEvacuation whose reconcile knows the status. -/
inductive StatusStep (cfg : Config) (s : System) (n : String) (e e' : Obj .evacuation) :
    SysAction → Prop
  | kept (same : SameEvac e e') (status : statusOf e' = statusOf e) (a : SysAction)
      (spec : SpecEdit n e e' a) : StatusStep cfg s n e e' a
  | wrote (r : Running) (o : Outcome) (st w : ZFSEvacuationStatus)
      (next : Except ApiError Unit → M Action) (same : SameEvac e e')
      (running : s.running.get n = some r)
      (prog : r.prog = .call (.patch .evacuation (evacKey r.view) (.status w)) next)
      (knows : Knows r.view r.trace st) (writes : Writes cfg r.view r.trace st w)
      (old : (viewStatus e).core = st.core) (new : (viewStatus e').core = w.core)
      (spec : specOf e' = specOf e) : StatusStep cfg s n e e' (.call n o)

namespace System
variable {cfg : Config} {s s' : System} {a : SysAction} {n : String}

/-- A ZFSEvacuation is stored with its old status, or with one that a reconcile wrote from
there, or is new and without a status. -/
theorem status_step (hi : Informed cfg s) (hl : KeepsEvacs s a) (h : step cfg s a = some s')
    {e' : Obj .evacuation} (he' : s'.world.get .evacuation ⟨"", n⟩ = some e') :
    (∃ e, s.world.get .evacuation ⟨"", n⟩ = some e ∧ StatusStep cfg s n e e' a) ∨
      (s.world.get .evacuation ⟨"", n⟩ = none ∧ statusOf e' = none ∧
        ∃ o, a = .env (.create .evacuation o) ∧ o.name = n) := by
  rcases evac_step hi.contracted hl h he' with
    ⟨e, he, rfl | hstep⟩ | ⟨hnone, o, rfl, rfl, hname⟩
  · exact .inl ⟨e', he, .kept (SameEvac.refl e') rfl a (.inl rfl)⟩
  · refine .inl ⟨e, he, ?_⟩
    cases hstep with
    | edited same status _ a spec => exact .kept same status a spec
    | wrote r o st w next same running prog knows writes status spec =>
      have hnew : (viewStatus e').core = w.core := by
        rw [viewStatus, status]
        exact core_mergeStatus _ _
      exact .wrote r o st w next same running prog knows writes
        ((hi.synced n r e running he).status st knows) hnew spec
    | signed _ o _ _ same _ _ _ status spec => exact .kept same status _ (.inl spec)
  · exact .inr ⟨hnone, hl.2.1, o, rfl, hname⟩

end System

/-! ## The stored versions -/

namespace World
variable {w : World} {v : Obj .evacuation}

theorem versions_mono_update {k : Kind} (o : Obj k) (h : v ∈ w.versions) :
    v ∈ (w.update o).versions := by
  unfold update
  split_ifs
  · exact h
  · exact List.mem_append_left _ h

theorem versions_mono_effect (c : Call) (h : v ∈ w.versions) : v ∈ (w.effect c).versions := by
  rcases effect_cases w c with ⟨-, -, hver⟩ | ⟨k, o, -, heq⟩
  · exact hver.symm ▸ h
  · exact heq.symm ▸ versions_mono_update o h

theorem versions_mono_env (e : EnvAction) (h : v ∈ w.versions) : v ∈ (w.env e).versions := by
  rcases env_cases w e with ⟨-, -, hver⟩ | ⟨k, o, -, heq⟩
  · exact hver.symm ▸ h
  · exact heq.symm ▸ versions_mono_update o h

theorem versions_mono_after (o : Outcome) (c : Call) (h : v ∈ w.versions) :
    v ∈ (w.after o c).versions := by
  rcases after_cases w o c with ⟨heq, -⟩ | heq
  · exact heq.symm ▸ h
  · exact heq.symm ▸ versions_mono_effect c h

/-- A version is new only when it is what is stored now. -/
theorem stored_of_version {k : Kind} {o : Obj k} (h : v ∈ (w.update o).versions) :
    v ∈ w.versions ∨ (w.update o).get .evacuation v.key = some v := by
  cases hgone : o.gone with
  | true =>
    refine .inl ?_
    rwa [update, if_pos hgone, remove] at h
  | false =>
    have hstore : w.update o = w.store o := if_neg (by simp [hgone])
    rcases versions_update h with hold | hnew
    · exact .inl hold
    · cases k with
      | evacuation =>
        obtain rfl := Option.some.inj hnew
        rw [hstore]
        exact .inr (get_store_self w o)
      | _ => cases hnew

theorem stored_of_version_effect {c : Call} (h : v ∈ (w.effect c).versions) :
    v ∈ w.versions ∨ (w.effect c).get .evacuation v.key = some v := by
  rcases effect_cases w c with ⟨-, -, hver⟩ | ⟨k, o, -, heq⟩
  · exact .inl (hver ▸ h)
  · rw [heq] at h ⊢
    exact stored_of_version h

theorem stored_of_version_env {e : EnvAction} (h : v ∈ (w.env e).versions) :
    v ∈ w.versions ∨ (w.env e).get .evacuation v.key = some v := by
  rcases env_cases w e with ⟨-, -, hver⟩ | ⟨k, o, -, heq⟩
  · exact .inl (hver ▸ h)
  · rw [heq] at h ⊢
    exact stored_of_version h

theorem stored_of_version_after {o : Outcome} {c : Call} (h : v ∈ (w.after o c).versions) :
    v ∈ w.versions ∨ (w.after o c).get .evacuation v.key = some v := by
  rcases after_cases w o c with ⟨heq, -⟩ | heq
  · exact .inl (heq ▸ h)
  · rw [heq] at h ⊢
    exact stored_of_version_effect h

/-- What is stored is one of the stored versions. -/
def Remembers (w : World) : Prop := ∀ key e, w.get .evacuation key = some e → e ∈ w.versions

theorem Remembers.update (hw : w.Remembers) {k : Kind} (o : Obj k) : (w.update o).Remembers := by
  intro key e he
  rcases get_update_some he with hold | ⟨hk, -, hx, hgone⟩
  · exact versions_mono_update o (hw key e hold)
  · subst hk
    rw [World.update, if_neg (by simpa using hgone), store, hx]
    exact List.mem_append_right _ (by simp [asEvacuation])

theorem Remembers.effect (hw : w.Remembers) (c : Call) : (w.effect c).Remembers := by
  rcases effect_cases w c with ⟨hobj, -, hver⟩ | ⟨k, o, -, heq⟩
  · intro key e he
    rw [get, hobj] at he
    exact hver.symm ▸ hw key e he
  · exact heq.symm ▸ hw.update o

theorem Remembers.after (hw : w.Remembers) (o : Outcome) (c : Call) : (w.after o c).Remembers := by
  rcases after_cases w o c with ⟨heq, -⟩ | heq
  · exact heq.symm ▸ hw
  · exact heq.symm ▸ hw.effect c

theorem Remembers.env (hw : w.Remembers) (e : EnvAction) : (w.env e).Remembers := by
  rcases env_cases w e with ⟨hobj, -, hver⟩ | ⟨k, o, -, heq⟩
  · intro key x hx
    rw [get, hobj] at hx
    exact hver.symm ▸ hw key x hx
  · exact heq.symm ▸ hw.update o

end World

namespace System
variable {cfg : Config} {s s' : System} {a : SysAction}

theorem versions_step (h : step cfg s a = some s') {v : Obj .evacuation}
    (hv : v ∈ s.world.versions) : v ∈ s'.world.versions := by
  cases step_cases h with
  | env e => exact World.versions_mono_env e hv
  | start name version view _ _ _ _ => exact hv
  | call name o r c next _ _ _ => exact World.versions_mono_after o c hv
  | crash => exact hv

/-- What is stored and what reconciles started from are stored versions. -/
structure Recorded (s : System) : Prop where
  stored : s.world.Remembers
  views : ∀ n r, s.running.get n = some r → r.view ∈ s.world.versions

theorem recorded_init : Recorded init := by
  constructor
  · intro key e h
    cases h
  · intro n r h
    cases h

theorem Recorded.step (hs : Recorded s) (h : step cfg s a = some s') : Recorded s' := by
  constructor
  · cases step_cases h with
    | env e => exact hs.stored.env e
    | start name version view _ _ _ _ => exact hs.stored
    | call name o r c next _ _ _ => exact hs.stored.after o c
    | crash => exact hs.stored
  · intro n r' hr'
    apply versions_step h
    cases step_cases h with
    | env e => exact hs.views n r' hr'
    | start name version view _ stored _ _ =>
      rw [running_proceed] at hr'
      split_ifs at hr' with hn hfin
      · obtain rfl := Option.some.inj hr'
        exact List.mem_of_getElem? stored
      · exact hs.views n r' hr'
    | call name o r c next hr _ _ =>
      rw [running_proceed] at hr'
      split_ifs at hr' with hn hfin
      · obtain rfl := Option.some.inj hr'
        exact hs.views name r hr
      · exact hs.views n r' hr'
    | crash => cases hr'

theorem recorded_run {as : List SysAction} {guard : System → SysAction → Prop}
    (h : Run (step cfg) guard init as s) : Recorded s :=
  h.invariant recorded_init fun _ _ _ hs _ hstep => hs.step hstep

/-- A new object was created, by somebody else or by a reconcile. -/
theorem created_step (h : step cfg s a = some s') {k : Kind} {key : Key} {x : Obj k}
    (hnone : s.world.get k key = none) (hx : s'.world.get k key = some x) :
    (∃ o : Obj k, a = .env (.create k o) ∧ o.key = key) ∨
      ∃ (n : String) (o : Outcome) (r : Running) (x' : Obj k)
        (next : Except ApiError Unit → M Action), a = .call n o ∧ s.running.get n = some r ∧
        r.prog = .call (.create k x') next ∧ x'.key = key := by
  have habsurd : ∀ {y : Obj k} {key' : Key}, s.world.get k key' = some y → key' ≠ key := by
    intro y key' hy heq
    rw [heq, hnone] at hy
    cases hy
  cases step_cases h with
  | env e =>
    rcases World.get_env hx with hold | ⟨o, hw, hkey, -, -⟩
    · rw [hnone] at hold
      cases hold
    · cases hw with
      | create o _ => exact .inl ⟨o, rfl, hkey⟩
      | update o cur hcur => exact absurd hkey (habsurd hcur)
      | delete key' o ho _ => exact absurd ((World.get_key ho).symm.trans hkey) (habsurd ho)
  | start name version view _ _ _ _ =>
    have hold : s.world.get k key = some x := hx
    rw [hnone] at hold
    cases hold
  | call name o r c next hr hprog _ =>
    have hafter : (s.world.effect c).get k key = some x := by
      rw [world_proceed] at hx
      rcases World.after_cases s.world o c with ⟨heq, -⟩ | heq
      · have hold : s.world.get k key = some x := heq ▸ hx
        rw [hnone] at hold
        cases hold
      · exact heq ▸ hx
    rcases World.get_effect hafter with hold | ⟨x', hw, hkey, -, -⟩
    · rw [hnone] at hold
      cases hold
    · cases hw with
      | create x' _ => exact .inr ⟨name, o, r, x', next, rfl, hr, hprog, hkey⟩
      | replace x' cur hcur _ => exact absurd hkey (habsurd hcur)
      | delete key' y hy _ => exact absurd ((World.get_key hy).symm.trans hkey) (habsurd hy)
      | patch key' p y hy =>
        have hkey' : y.key = key := (Patch.key_apply p y).symm.trans hkey
        exact absurd ((World.get_key hy).symm.trans hkey') (habsurd hy)
  | crash =>
    have hold : s.world.get k key = some x := hx
    rw [hnone] at hold
    cases hold

theorem version_stored (h : step cfg s a = some s') {v : Obj .evacuation}
    (hv : v ∈ s'.world.versions) :
    v ∈ s.world.versions ∨ s'.world.get .evacuation v.key = some v := by
  cases step_cases h with
  | env e => exact World.stored_of_version_env hv
  | start name version view _ _ _ _ => exact .inl hv
  | call name o r c next _ _ _ => exact World.stored_of_version_after hv
  | crash => exact .inl hv

theorem contracted_later {as : List SysAction} {guard : System → SysAction → Prop}
    (hc : Contracted cfg s) (h : Run (step cfg) guard s as s') : Contracted cfg s' :=
  h.invariant hc fun _ _ _ hx _ hstep => contracted_step hx hstep

theorem contracted_run {as : List SysAction} {guard : System → SysAction → Prop}
    (h : Run (step cfg) guard init as s) : Contracted cfg s := by
  have hinit : Contracted cfg init := by
    intro n r hr
    cases hr
  exact contracted_later hinit h

/-- A key is new only with a new, cluster-scoped ZFSEvacuation. -/
theorem stored_step (hl : KeepsEvacs s a) (hc : Contracted cfg s) (h : step cfg s a = some s')
    {key : Key} {e' : Obj .evacuation} (he' : s'.world.get .evacuation key = some e') :
    key.ns = "" ∨ ∃ e, s.world.get .evacuation key = some e := by
  cases hold : s.world.get .evacuation key with
  | some e => exact .inr ⟨e, rfl⟩
  | none =>
    rcases created_step h hold he' with ⟨o, rfl, hkey⟩ | ⟨n, o, r, x, next, -, hr, hprog, -⟩
    · exact .inl ((congrArg Key.ns hkey).symm.trans hl.1)
    · obtain ⟨st, -, hfalse⟩ := hc.allowed hr hprog
      exact hfalse.elim

/-- ZFSEvacuations are cluster-scoped. -/
def Scoped (s : System) : Prop := ∀ v ∈ s.world.versions, v.metadata.ns = ""

theorem scoped_of_stored (hrec : Recorded s) (hs : Scoped s) (hc : Contracted cfg s)
    (hl : KeepsEvacs s a) (h : step cfg s a = some s') {v : Obj .evacuation}
    (hstored : s'.world.get .evacuation v.key = some v) : v.metadata.ns = "" := by
  rcases stored_step hl hc h hstored with hns | ⟨e, he⟩
  · exact hns
  · have hkey : e.key = v.key := World.get_key he
    exact (congrArg Key.ns hkey).symm.trans (hs e (hrec.stored _ e he))

theorem scoped_step (hrec : Recorded s) (hs : Scoped s) (hc : Contracted cfg s)
    (hl : KeepsEvacs s a) (h : step cfg s a = some s') : Scoped s' := by
  intro v hv
  rcases version_stored h hv with hold | hstored
  · exact hs v hold
  · exact scoped_of_stored hrec hs hc hl h hstored

/-- What holds of every run, however old the views are. -/
structure Grounded (cfg : Config) (s : System) : Prop where
  contracted : Contracted cfg s
  recorded : Recorded s
  clusterScoped : Scoped s

theorem grounded_run {as : List SysAction} {guard : System → SysAction → Prop}
    (hguard : ∀ s a, guard s a → KeepsEvacs s a) (h : Run (step cfg) guard init as s) :
    Grounded cfg s := by
  have hbase : ∀ {as s}, Run (step cfg) guard init as s → Contracted cfg s ∧ Recorded s :=
    fun hrun => ⟨contracted_run hrun, recorded_run hrun⟩
  have hscoped : Scoped s := h.invariant_over hbase (fun v hv => by cases hv)
    fun s a _ hb hs hg hstep => scoped_step hb.2 hs hb.1 (hguard s a hg) hstep
  exact ⟨contracted_run h, recorded_run h, hscoped⟩

/-- A version that is new with a step is what is stored under its name. -/
theorem new_version (hg : Grounded cfg s) (hl : KeepsEvacs s a) (h : step cfg s a = some s')
    {v : Obj .evacuation} (hv : v ∈ s'.world.versions) : v ∈ s.world.versions ∨
      s'.world.get .evacuation ⟨"", v.name⟩ = some v := by
  rcases version_stored h hv with hold | hstored
  · exact .inl hold
  · refine .inr ?_
    have hns := scoped_of_stored hg.recorded hg.clusterScoped hg.contracted hl h hstored
    have hkey : v.key = ⟨"", v.name⟩ := by rw [Obj.key, ObjectMeta.key, hns, Obj.name]
    rwa [hkey] at hstored

end System

end ZfsEvacuation
