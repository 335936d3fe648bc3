import ZfsEvacuation.EvacuationSystem
import ZfsEvacuation.ReconcileSound

/-!
# What a step of the system can do

The contract holds of every reconcile in progress. From it, and from what everybody else
leaves alone, follows how one step changes the stored status of an evacuation.
-/
namespace ZfsEvacuation
open ClientProgram Program GuardedRun

namespace World
variable {w : World} {k : Kind} {key : Key}

/-- The content an object is given by somebody else. -/
inductive Edited (w : World) : EnvAction → (k : Kind) → Obj k → Prop
  | create {k : Kind} (o : Obj k) (h : w.get k o.key = none) :
      Edited w (.create k o) k (o.born w.revision)
  | update {k : Kind} (o cur : Obj k) (h : w.get k o.key = some cur) :
      Edited w (.update k o) k (edited cur o)
  | delete {k : Kind} (key : Key) (o : Obj k) (h : w.get k key = some o)
      (hdel : o.deleting = false) : Edited w (.delete k key) k (o.marked (w.now / 10 ^ 9))

theorem env_cases (w : World) (e : EnvAction) :
    (w.env e).objects = w.objects ∧ (w.env e).revision = w.revision ∧
        (w.env e).versions = w.versions ∨
      ∃ k, ∃ o : Obj k, Edited w e k o ∧ w.env e = w.update o := by
  cases e with
  | create k o =>
    simp only [env, create]
    split
    · exact .inl ⟨rfl, rfl, rfl⟩
    · rename_i h
      refine .inr ⟨k, _, .create o h, ?_⟩
      simp [update, Obj.gone, Obj.deleting, Obj.born]
  | update k o =>
    simp only [env]
    split
    · exact .inl ⟨rfl, rfl, rfl⟩
    · rename_i cur h
      exact .inr ⟨k, _, .update o cur h, rfl⟩
  | delete k key =>
    simp only [env, delete]
    split
    · exact .inl ⟨rfl, rfl, rfl⟩
    · rename_i o h
      split_ifs with hdel
      · exact .inl ⟨rfl, rfl, rfl⟩
      · exact .inr ⟨k, _, .delete key o h (by simpa using hdel), rfl⟩
  | tick nanos => exact .inl ⟨rfl, rfl, rfl⟩
  | relay evac relay =>
    simp only [env]
    split <;> exact .inl ⟨rfl, rfl, rfl⟩

/-- What is stored after somebody else's action was stored before or is what was written. -/
theorem get_env {e : EnvAction} {x : Obj k} (h : (w.env e).get k key = some x) :
    w.get k key = some x ∨
      ∃ o : Obj k, Edited w e k o ∧ o.key = key ∧ x = o.stamped w.revision ∧ o.gone = false := by
  rcases env_cases w e with ⟨hobj, -, -⟩ | ⟨k', o, hw, heq⟩
  · refine .inl ?_
    rw [get, hobj] at h
    exact h
  · rw [heq] at h
    refine (get_update_some h).imp id fun hnew => ?_
    obtain ⟨rfl, hkey, hx, hgone⟩ := hnew
    exact ⟨o, hw, hkey, hx, hgone⟩

theorem get_env_none {e : EnvAction} {x : Obj k} (hx : w.get k key = some x)
    (h : (w.env e).get k key = none) :
    ∃ o : Obj k, Edited w e k o ∧ o.key = key ∧ o.gone = true := by
  rcases env_cases w e with ⟨hobj, -, -⟩ | ⟨k', o, hw, heq⟩
  · rw [get, hobj] at h
    exact absurd (hx.symm.trans h) (by simp)
  · rw [heq] at h
    obtain ⟨hk, hkey, hgone⟩ := get_update_none hx h
    subst hk
    exact ⟨o, hw, hkey, hgone⟩

theorem after_cases (w : World) (o : Outcome) (c : Call) :
    w.after o c = w ∧ o.fault = .lost ∧ c.remote = true ∨ w.after o c = w.effect c := by
  unfold after
  split_ifs with h
  · exact .inl ⟨rfl, h⟩
  · exact .inr rfl

/-- A read leaves the world as it is. -/
theorem after_get (w : World) (o : Outcome) (k : Kind) (key : Key) :
    w.after o (.get k key) = w := by
  rcases after_cases w o (.get k key) with ⟨heq, -⟩ | heq <;> exact heq

end World

/-- A read is answered from the world, which it leaves as it is. -/
theorem answer_get {w : World} {o : Outcome} {k : Kind} {key : Key} {x : Option (Obj k)}
    (h : (⟨.get k key, w.answer o (.get k key)⟩ : Event kubeInterface) = sawEvent k key x) :
    w.get k key = x := by
  have hanswer : w.answer o (.get k key) = .ok x := eq_of_heq (Sigma.mk.inj h).2
  simp only [World.answer, Outcome.read] at hanswer
  split at hanswer
  · exact Except.ok.inj hanswer
  · cases hanswer

/-- A listing is answered from the world, which it leaves as it is. -/
theorem answer_list {w : World} {o : Outcome} {k : Kind} {sel : Selector} {l : List (Obj k)}
    (h : (⟨.list k sel, w.answer o (.list k sel)⟩ : Event kubeInterface) = listedEvent k sel l) :
    w.list k sel = l := by
  have hanswer : w.answer o (.list k sel) = .ok l := eq_of_heq (Sigma.mk.inj h).2
  simp only [World.answer, Outcome.read] at hanswer
  split at hanswer
  · exact Except.ok.inj hanswer
  · cases hanswer

namespace System
variable {cfg : Config} {s s' : System} {a : SysAction}

/-- One step, by its kind. -/
inductive Step (cfg : Config) (s : System) : SysAction → System → Prop
  | env (e : EnvAction) : Step cfg s (.env e) { s with world := s.world.env e }
  | start (name : String) (version : Nat) (view : Obj .evacuation)
      (idle : s.running.get name = none) (stored : s.world.versions[version]? = some view)
      (named : view.name = name) (newer : s.seen name ≤ version) :
      Step cfg s (.start name version)
        (proceed { s with seen := Function.update s.seen name version }
          { view, prog := reconcile cfg view })
  | call (name : String) (o : Outcome) (r : Running) (c : Call) (next : c.Resp → M Action)
      (running : s.running.get name = some r) (prog : r.prog = .call c next)
      (free : blocks s.world c = false) :
      Step cfg s (.call name o)
        (proceed { s with world := s.world.after o c }
          { r with trace := ⟨c, s.world.answer o c⟩ :: r.trace
                   prog := next (s.world.answer o c) })
  | crash : Step cfg s .crash { s with
      running := ∅
      world := { s.world with transfers := ∅, selectionLocked := false } }

theorem step_cases (h : step cfg s a = some s') : Step cfg s a s' := by
  cases a with
  | env e =>
    cases h
    exact .env e
  | start name version =>
    simp only [step] at h
    split at h
    · rename_i view hidle hstored
      split_ifs at h with hname
      cases h
      exact .start name version view hidle hstored hname.1 hname.2
    · cases h
  | call name o =>
    simp only [step] at h
    split at h
    · cases h
    · rename_i r hr
      split at h
      · rename_i c next hprog
        split_ifs at h with hfree
        cases h
        exact .call name o r c next hr hprog (by simpa using hfree)
      · cases h
  | crash =>
    cases h
    exact .crash

/-- The world after a call. -/
theorem world_call {name : String} {o : Outcome} {r : Running} {c : Call}
    {next : c.Resp → M Action} (h : step cfg s (.call name o) = some s')
    (hr : s.running.get name = some r) (hprog : r.prog = .call c next) :
    s'.world = s.world.after o c := by
  cases step_cases h with
  | call name o r₁ c₁ next₁ hr₁ hprog₁ _ =>
    obtain rfl := Option.some.inj (hr.symm.trans hr₁)
    rw [hprog] at hprog₁
    cases hprog₁
    rfl

theorem running_proceed (s : System) (r : Running) (n : String) :
    (proceed s r).running.get n =
      if r.view.name = n then (if r.prog.finished then none else some r) else s.running.get n := by
  unfold proceed
  by_cases hfin : r.prog.finished = true
  · by_cases hn : r.view.name = n <;> simp [hfin, hn, KeyedStore.get_erase]
  · by_cases hn : r.view.name = n <;> simp [hfin, hn, KeyedStore.get_put]

@[simp] theorem world_proceed (s : System) (r : Running) : (proceed s r).world = s.world := rfl

theorem name_of_running {n : String} {r : Running} (h : s.running.get n = some r) :
    r.view.name = n := by
  have hkey := KeyedStore.get_key h
  exact hkey

/-- Where a reconcile in progress comes from. -/
inductive RunningStep (cfg : Config) (s : System) (n : String) (r' : Running) : SysAction → Prop
  | kept (a : SysAction) (running : s.running.get n = some r') (other : ∀ o, a ≠ .call n o) :
      RunningStep cfg s n r' a
  | started (version : Nat) (idle : s.running.get n = none)
      (stored : s.world.versions[version]? = some r'.view) (named : r'.view.name = n)
      (eq : r' = { view := r'.view, prog := reconcile cfg r'.view }) :
      RunningStep cfg s n r' (.start n version)
  | called (o : Outcome) (r : Running) (c : Call) (next : c.Resp → M Action)
      (running : s.running.get n = some r) (prog : r.prog = .call c next)
      (free : blocks s.world c = false)
      (eq : r' = { r with trace := ⟨c, s.world.answer o c⟩ :: r.trace
                          prog := next (s.world.answer o c) }) :
      RunningStep cfg s n r' (.call n o)

theorem running_step (h : step cfg s a = some s') {n : String} {r' : Running}
    (hr' : s'.running.get n = some r') : RunningStep cfg s n r' a := by
  cases step_cases h with
  | env e => exact .kept _ hr' fun _ heq => by cases heq
  | start name version view idle stored named _ =>
    rw [running_proceed] at hr'
    split_ifs at hr' with hn hfin
    · obtain rfl := Option.some.inj hr'
      obtain rfl : name = n := named.symm.trans hn
      exact .started version idle stored named rfl
    · exact .kept _ hr' fun _ heq => by cases heq
  | call name o r c next hr hprog hfree =>
    rw [running_proceed] at hr'
    split_ifs at hr' with hn hfin
    · obtain rfl := Option.some.inj hr'
      obtain rfl : name = n := (name_of_running hr).symm.trans hn
      exact .called o r c next hr hprog hfree rfl
    · refine .kept _ hr' fun _ heq => hn ?_
      cases heq
      have hname : r.view.name = n := name_of_running hr
      exact hname
  | crash => cases hr'

/-- What a reconcile in progress will do keeps its contract. -/
def Contracted (cfg : Config) (s : System) : Prop :=
  ∀ n r, s.running.get n = some r → Follows (Allowed cfg r.view) (fun _ _ => True) r.trace r.prog

theorem contracted_step (hs : Contracted cfg s) (h : step cfg s a = some s') :
    Contracted cfg s' := by
  intro n r' hr'
  cases step_cases h with
  | env e => exact hs n r' hr'
  | start name version view _ _ _ _ =>
    rw [running_proceed] at hr'
    split_ifs at hr' with hn hfin
    · obtain rfl := Option.some.inj hr'
      exact reconcile_follows cfg view
    · exact hs n r' hr'
  | call name o r c next hr hprog _ =>
    rw [running_proceed] at hr'
    split_ifs at hr' with hn hfin
    · obtain rfl := Option.some.inj hr'
      have hfollows := hs name r hr
      rw [hprog] at hfollows
      exact hfollows.2 _
    · exact hs n r' hr'
  | crash => cases hr'

/-- The next call of a reconcile in progress is an allowed one. -/
theorem Contracted.allowed (hs : Contracted cfg s) {n : String} {r : Running} {c : Call}
    {next : c.Resp → M Action} (hr : s.running.get n = some r) (hprog : r.prog = .call c next) :
    Allowed cfg r.view r.trace c := by
  have hfollows := hs n r hr
  rw [hprog] at hfollows
  exact hfollows.1

end System

/-! ## What everybody else leaves alone -/

/-- Nobody but the controller edits the status of a ZFSEvacuation or takes its finalizer off
or puts it on, and the API server keeps which PV it is for. -/
def EnvAction.KeepsEvacs (w : World) : EnvAction → Prop
  | .create .evacuation o =>
    o.metadata.ns = "" ∧ statusOf o = none ∧ (specOf o).pvName = o.name
  | .update .evacuation o => ∀ cur, w.get .evacuation o.key = some cur →
    statusOf o = statusOf cur ∧ (specOf o).pvName = (specOf cur).pvName ∧
      (evacuationFinalizer ∈ o.metadata.finalizers ↔
        evacuationFinalizer ∈ cur.metadata.finalizers)
  | _ => True

namespace System

def KeepsEvacs (s : System) : SysAction → Prop
  | .env e => e.KeepsEvacs s.world
  | _ => True

/-- The status of a ZFSEvacuation is written by the controller alone. -/
def KeepsStatuses (s : System) : SysAction → Prop
  | .env (.create .evacuation o) => statusOf o = none
  | .env (.update .evacuation o) => ∀ cur, s.world.get .evacuation o.key = some cur →
    statusOf o = statusOf cur
  | _ => True

theorem KeepsEvacs.statuses {s : System} {a : SysAction} (h : KeepsEvacs s a) :
    KeepsStatuses s a := by
  cases a with
  | env e =>
    cases e with
    | create k o =>
      cases k with
      | evacuation => exact h.2.1
      | _ => trivial
    | update k o =>
      cases k with
      | evacuation => exact fun cur hcur => (h cur hcur).1
      | _ => trivial
    | _ => trivial
  | _ => trivial

/-- Reconciles start from the stored ZFSEvacuation itself, and its name is not given to
another one while they run. -/
def UpToDate (s : System) : SysAction → Prop
  | .start name version => ∃ view, s.world.versions[version]? = some view ∧
    s.world.get .evacuation ⟨"", name⟩ = some view
  | .env (.create .evacuation o) =>
    s.world.get .evacuation ⟨"", o.name⟩ = none → s.running.get o.name = none
  | _ => True

/-- Nothing has happened yet. -/
def init : System := { world := {} }

/-- The stored status of an evacuation. -/
def persisted (s : System) (n : String) : Option ZFSEvacuationStatus :=
  (s.world.get .evacuation ⟨"", n⟩).map viewStatus

end System

/-! ## How a stored ZFSEvacuation changes -/

/-- What stays the same about an evacuation, whoever writes it. -/
structure SameEvac (e e' : Obj .evacuation) : Prop where
  uid : e'.metadata.uid = e.metadata.uid
  pvName : (specOf e').pvName = (specOf e).pvName
  deleting : e.deleting = true → e'.deleting = true

/-- The spec is kept, unless somebody edits it. -/
def SpecEdit (n : String) (e e' : Obj .evacuation) (a : SysAction) : Prop :=
  specOf e' = specOf e ∨
    ∃ o, a = .env (.update .evacuation o) ∧ o.key = ⟨"", n⟩ ∧ specOf e' = specOf o

/-- How one step changes a stored ZFSEvacuation: somebody edits what is not the
controller's, or a reconcile writes its status or its finalizers. -/
inductive EvacStep (cfg : Config) (s : System) (n : String) (e e' : Obj .evacuation) :
    SysAction → Prop
  | edited (same : SameEvac e e') (status : statusOf e' = statusOf e)
      (finalizer : evacuationFinalizer ∈ e'.metadata.finalizers ↔
        evacuationFinalizer ∈ e.metadata.finalizers) (a : SysAction)
      (spec : SpecEdit n e e' a) : EvacStep cfg s n e e' a
  | wrote (r : Running) (o : Outcome) (st w : ZFSEvacuationStatus)
      (next : Except ApiError Unit → M Action) (same : SameEvac e e')
      (running : s.running.get n = some r)
      (prog : r.prog = .call (.patch .evacuation (evacKey r.view) (.status w)) next)
      (knows : Knows r.view r.trace st) (writes : Writes cfg r.view r.trace st w)
      (status : statusOf e' = some (mergeStatus (statusOf e) w)) (spec : specOf e' = specOf e)
      (finalizers : e'.metadata.finalizers = e.metadata.finalizers) :
      EvacStep cfg s n e e' (.call n o)
  | signed (r : Running) (o : Outcome) (fs : List String)
      (next : Except ApiError Unit → M Action) (same : SameEvac e e')
      (running : s.running.get n = some r)
      (prog : r.prog = .call (.patch .evacuation (evacKey r.view) (.finalizers fs)) next)
      (allowed : Allowed cfg r.view r.trace (.patch .evacuation (evacKey r.view) (.finalizers fs)))
      (status : statusOf e' = statusOf e) (spec : specOf e' = specOf e)
      (finalizers : e'.metadata.finalizers = fs) :
      EvacStep cfg s n e e' (.call n o)

/-- The ways a stored ZFSEvacuation is written, by anybody. -/
inductive EvacEdit (cfg : Config) (s : System) (n : String) (e : Obj .evacuation) :
    Obj .evacuation → SysAction → Prop
  | updated (o : Obj .evacuation) (key : o.key = ⟨"", n⟩)
      (current : s.world.get .evacuation o.key = some e) :
      EvacEdit cfg s n e ((World.edited e o).stamped s.world.revision)
        (.env (.update .evacuation o))
  | marked (key : Key) :
      EvacEdit cfg s n e ((e.marked (s.world.now / 10 ^ 9)).stamped s.world.revision)
        (.env (.delete .evacuation key))
  | wrote (r : Running) (o : Outcome) (st w : ZFSEvacuationStatus)
      (next : Except ApiError Unit → M Action) (running : s.running.get n = some r)
      (prog : r.prog = .call (.patch .evacuation (evacKey r.view) (.status w)) next)
      (knows : Knows r.view r.trace st) (writes : Writes cfg r.view r.trace st w) :
      EvacEdit cfg s n e (((Patch.status w).apply e).stamped s.world.revision) (.call n o)
  | signed (r : Running) (o : Outcome) (fs : List String)
      (next : Except ApiError Unit → M Action) (running : s.running.get n = some r)
      (prog : r.prog = .call (.patch .evacuation (evacKey r.view) (.finalizers fs)) next)
      (allowed : Allowed cfg r.view r.trace (.patch .evacuation (evacKey r.view) (.finalizers fs))) :
      EvacEdit cfg s n e (((Patch.finalizers fs).apply e).stamped s.world.revision) (.call n o)

namespace System
variable {cfg : Config} {s s' : System} {a : SysAction} {n : String}

theorem evac_key_name {w : World} {e : Obj .evacuation} (h : w.get .evacuation ⟨"", n⟩ = some e) :
    e.key = ⟨"", n⟩ ∧ e.name = n := by
  have hkey := World.get_key h
  exact ⟨hkey, congrArg Key.name hkey⟩

/-- The controller writes no nodes. -/
theorem not_written_node (hc : Contracted cfg s) {r : Running} {c : Call}
    {next : c.Resp → M Action} (hr : s.running.get n = some r) (hprog : r.prog = .call c next)
    {x : Obj .node} : ¬ World.Written s.world c .node x := by
  intro hw
  have hallowed := hc.allowed hr hprog
  cases hw with
  | create _ _ | replace _ _ _ _ | delete _ _ _ _ =>
    obtain ⟨st, -, hfalse⟩ := hallowed
    exact hfalse.elim
  | patch key p o hget =>
    cases p with
    | finalizers _ | label _ _ | annotate _ _ =>
      obtain ⟨st, -, hfalse⟩ := hallowed
      exact hfalse.elim

/-- A reconcile writes no ZFSEvacuation but its own, and of that the status or the
finalizers. -/
theorem evac_written (hc : Contracted cfg s) {m : String} {r : Running} {c : Call}
    {next : c.Resp → M Action} (hr : s.running.get m = some r) (hprog : r.prog = .call c next)
    {x : Obj .evacuation} (hw : World.Written s.world c .evacuation x)
    (hkey : x.key = ⟨"", n⟩) :
    m = n ∧ ∃ e, s.world.get .evacuation ⟨"", n⟩ = some e ∧
      ((∃ w st next, r.prog = .call (.patch .evacuation (evacKey r.view) (.status w)) next ∧
          x = (Patch.status w).apply e ∧ Knows r.view r.trace st ∧
          Writes cfg r.view r.trace st w) ∨
        ∃ fs next, r.prog = .call (.patch .evacuation (evacKey r.view) (.finalizers fs)) next ∧
          x = (Patch.finalizers fs).apply e ∧
          Allowed cfg r.view r.trace (.patch .evacuation (evacKey r.view) (.finalizers fs))) := by
  have hallowed := hc.allowed hr hprog
  cases hw with
  | create _ _ | replace _ _ _ _ | delete _ _ _ _ =>
    obtain ⟨st, -, hfalse⟩ := hallowed
    exact hfalse.elim
  | patch key p e hget =>
    have hkey' : key = ⟨"", n⟩ := by
      rw [Patch.key_apply] at hkey
      exact (World.get_key hget).symm.trans hkey
    subst hkey'
    have hname := name_of_running hr
    cases p with
    | finalizers fs =>
      have hfs := hallowed
      obtain ⟨st, -, hown, -⟩ := hallowed
      rw [hown] at hprog hfs
      exact ⟨hname.symm.trans (congrArg Key.name hown).symm, e, hget,
        .inr ⟨fs, next, hprog, rfl, hfs⟩⟩
    | status w =>
      obtain ⟨st, hknows, hown, hwrites⟩ := hallowed
      rw [hown] at hprog
      exact ⟨hname.symm.trans (congrArg Key.name hown).symm, e, hget,
        .inl ⟨w, st, next, hprog, rfl, hknows, hwrites⟩⟩
    | label _ _ | annotate _ _ =>
      obtain ⟨st, -, hfalse⟩ := hallowed
      exact hfalse.elim

/-- A stored ZFSEvacuation was stored before the step, or is a new one. -/
theorem evac_edit (hc : Contracted cfg s) (h : step cfg s a = some s') {e' : Obj .evacuation}
    (he' : s'.world.get .evacuation ⟨"", n⟩ = some e') :
    (∃ e, s.world.get .evacuation ⟨"", n⟩ = some e ∧ (e' = e ∨ EvacEdit cfg s n e e' a)) ∨
      s.world.get .evacuation ⟨"", n⟩ = none ∧ ∃ o, a = .env (.create .evacuation o) ∧
        e' = (o.born s.world.revision).stamped s.world.revision ∧ o.name = n := by
  cases step_cases h with
  | env e =>
    rcases World.get_env he' with hsame | ⟨o, hw, hkey, rfl, -⟩
    · exact .inl ⟨e', hsame, .inl rfl⟩
    · cases hw with
      | create o hnone => exact .inr ⟨hkey ▸ hnone, o, rfl, rfl, congrArg Key.name hkey⟩
      | update o cur hcur => exact .inl ⟨cur, hkey ▸ hcur, .inr (.updated o hkey hcur)⟩
      | delete key o hget hdel =>
        have hkey' : key = ⟨"", n⟩ := (World.get_key hget).symm.trans hkey
        exact .inl ⟨o, hkey' ▸ hget, .inr (.marked key)⟩
  | start name version view _ _ _ _ => exact .inl ⟨e', he', .inl rfl⟩
  | call name o r c next hr hprog _ =>
    rw [world_proceed] at he'
    rcases World.after_cases s.world o c with ⟨heq, -⟩ | heq
    · rw [show ({ s with world := s.world.after o c } : System).world = s.world from heq] at he'
      exact .inl ⟨e', he', .inl rfl⟩
    rw [show ({ s with world := s.world.after o c } : System).world = s.world.effect c from heq]
      at he'
    rcases World.get_effect he' with hsame | ⟨o', hw, hkey, rfl, -⟩
    · exact .inl ⟨e', hsame, .inl rfl⟩
    obtain ⟨rfl, e, he, ⟨w, st, next, hprog, rfl, hknows, hwrites⟩ | ⟨fs, next, hprog, rfl, hfs⟩⟩ :=
      evac_written hc hr hprog hw hkey
    · exact .inl ⟨e, he, .inr (.wrote r o st w next hr hprog hknows hwrites)⟩
    · exact .inl ⟨e, he, .inr (.signed r o fs next hr hprog hfs)⟩
  | crash => exact .inl ⟨e', he', .inl rfl⟩

/-- A stored ZFSEvacuation was stored before the step, or is a new one. -/
theorem evac_step (hc : Contracted cfg s) (hl : KeepsEvacs s a) (h : step cfg s a = some s')
    {e' : Obj .evacuation} (he' : s'.world.get .evacuation ⟨"", n⟩ = some e') :
    (∃ e, s.world.get .evacuation ⟨"", n⟩ = some e ∧ (e' = e ∨ EvacStep cfg s n e e' a)) ∨
      s.world.get .evacuation ⟨"", n⟩ = none ∧ ∃ o, a = .env (.create .evacuation o) ∧
        e' = (o.born s.world.revision).stamped s.world.revision ∧ o.name = n := by
  rcases evac_edit hc h he' with ⟨e, he, rfl | hedit⟩ | hnew
  · exact .inl ⟨e', he, .inl rfl⟩
  · refine .inl ⟨e, he, .inr ?_⟩
    cases hedit with
    | updated o hkey hcur =>
      obtain ⟨hstatus, hpv, hfin⟩ := hl e hcur
      have hsame : SameEvac e ((World.edited e o).stamped s.world.revision) := ⟨rfl, hpv, id⟩
      exact .edited hsame hstatus hfin _ (.inr ⟨o, rfl, hkey, rfl⟩)
    | marked key =>
      have hsame : SameEvac e ((e.marked (s.world.now / 10 ^ 9)).stamped s.world.revision) :=
        ⟨rfl, rfl, fun _ => rfl⟩
      exact .edited hsame rfl Iff.rfl _ (.inl rfl)
    | wrote r o st w next running prog knows writes =>
      exact .wrote r o st w next ⟨rfl, rfl, id⟩ running prog knows writes rfl rfl rfl
    | signed r o fs next running prog allowed =>
      exact .signed r o fs next ⟨rfl, rfl, id⟩ running prog allowed rfl rfl rfl
  · exact .inr hnew

/-- A ZFSEvacuation disappears without the controller's finalizer, or because a reconcile
takes it off. -/
theorem evac_gone (hc : Contracted cfg s) (hl : KeepsEvacs s a) (h : step cfg s a = some s')
    {e : Obj .evacuation} (he : s.world.get .evacuation ⟨"", n⟩ = some e)
    (hgone : s'.world.get .evacuation ⟨"", n⟩ = none) :
    evacuationFinalizer ∉ e.metadata.finalizers ∨
      ∃ (r : Running) (o : Outcome) (st : ZFSEvacuationStatus) (fs : List String)
        (next : Except ApiError Unit → M Action), a = .call n o ∧ s.running.get n = some r ∧
        r.prog = .call (.patch .evacuation (evacKey r.view) (.finalizers fs)) next ∧
        Knows r.view r.trace st ∧ MayLeave cfg r.view r.trace st := by
  cases step_cases h with
  | env a =>
    obtain ⟨o, hw, hkey, hempty⟩ := World.get_env_none he hgone
    have hnil : o.metadata.finalizers = [] := by
      simpa using (Bool.and_eq_true_iff.mp hempty).2
    refine .inl ?_
    cases hw with
    | create o hnone =>
      rw [show (⟨"", n⟩ : Key) = o.key from hkey.symm, hnone] at he
      cases he
    | update o cur hcur =>
      have hkey' : o.key = ⟨"", n⟩ := hkey
      obtain rfl : cur = e := Option.some.inj (hcur.symm.trans (hkey'.symm ▸ he))
      rw [← (hl cur hcur).2.2, show o.metadata.finalizers = [] from hnil]
      simp
    | delete key o hget hdel =>
      have hkey' : key = ⟨"", n⟩ := (World.get_key hget).symm.trans hkey
      subst hkey'
      obtain rfl : o = e := Option.some.inj (hget.symm.trans he)
      rw [show o.metadata.finalizers = [] from hnil]
      simp
  | start name version view _ _ _ _ => cases he.symm.trans hgone
  | call name o r c next hr hprog _ =>
    rw [world_proceed] at hgone
    rcases World.after_cases s.world o c with ⟨heq, -⟩ | heq
    · rw [show ({ s with world := s.world.after o c } : System).world = s.world from heq] at hgone
      cases he.symm.trans hgone
    rw [show ({ s with world := s.world.after o c } : System).world = s.world.effect c from heq]
      at hgone
    obtain ⟨o', hw, hkey, hempty⟩ := World.get_effect_none he hgone
    obtain ⟨rfl, e', he', ⟨w, st, next, hprog, rfl, -, -⟩ | ⟨fs, next, hprog, rfl, hfs⟩⟩ :=
      evac_written hc hr hprog hw hkey
    · have hnil : ((Patch.status w).apply e').metadata.finalizers = [] := by
        simpa using (Bool.and_eq_true_iff.mp hempty).2
      obtain rfl : e' = e := Option.some.inj (he'.symm.trans he)
      refine .inl ?_
      rw [show e'.metadata.finalizers = [] from hnil]
      simp
    · have hnil : ((Patch.finalizers fs).apply e').metadata.finalizers = [] := by
        simpa using (Bool.and_eq_true_iff.mp hempty).2
      have hfs' : fs = [] := hnil
      obtain ⟨st, hknows, -, hadds | ⟨-, hleave⟩⟩ := hfs
      · rw [hfs'] at hadds
        simp at hadds
      · exact .inr ⟨r, o, st, fs, next, rfl, hr, hprog, hknows, hleave⟩
  | crash => cases he.symm.trans hgone

end System

end ZfsEvacuation
