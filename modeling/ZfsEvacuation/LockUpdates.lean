import ZfsEvacuation.AttachLockHolding
import ZfsEvacuation.Linearization

/-!
# Concurrent updates of the lock lists

Any number of callers put keys under the attach lock or take them off it, each with a
read-modify-write of its own on the one parameter object. Their calls interleave in any
order. What the object holds is explained by the successful callers, one after the other.
-/
namespace ZfsEvacuation
open ClientProgram Program GuardedRun Linearization

/-- What a caller wants done to the lists. -/
inductive KeyOp where
  | lock (key : String) (mode : EvacuationMode)
  | unlock (key : String)
  deriving DecidableEq, Repr

namespace KeyOp

def key : KeyOp → String
  | lock key _ => key
  | unlock key => key

def mutate : KeyOp → EvacuationParamsSpec → EvacuationParamsSpec × Bool
  | lock key mode => fun p => p.lock key mode
  | unlock key => fun p => p.unlock key

def program : KeyOp → M Unit
  | lock key mode => lockKey key mode
  | unlock key => unlockKey key

theorem program_eq (op : KeyOp) : op.program = updateParams op.mutate 8 := by
  cases op <;> rfl

/-- The operation on its own. An object that does not exist is created only where there is
something to be stored. -/
def apply (op : KeyOp) : Option EvacuationParamsSpec → Option EvacuationParamsSpec
  | none => if (op.mutate {}).2 then some (op.mutate {}).1 else none
  | some p => some (op.mutate p).1

@[simp] theorem apply_none (op : KeyOp) :
    op.apply none = if (op.mutate {}).2 then some (op.mutate {}).1 else none := rfl

@[simp] theorem apply_some (op : KeyOp) (p : EvacuationParamsSpec) :
    op.apply (some p) = some (op.mutate p).1 := rfl

end KeyOp

/-! ## The lists -/

namespace EvacuationParamsSpec
variable {p : EvacuationParamsSpec} {key : String} {keys : List String}

/-- No key is in a list twice or in both of them. -/
structure Orderly (p : EvacuationParamsSpec) : Prop where
  pvcKeys : p.pvcKeys.Nodup
  claimablePvcKeys : p.claimablePvcKeys.Nodup
  disjoint : ∀ key, key ∈ p.pvcKeys → key ∉ p.claimablePvcKeys

theorem filter_ne_eq (h : (keys.filter (· ≠ key)).length = keys.length) :
    keys.filter (· ≠ key) = keys := (List.filter_sublist).eq_of_length h

theorem pushNew_unchanged (h : (pushNew keys key).2 = false) : (pushNew keys key).1 = keys := by
  unfold pushNew at h ⊢
  split_ifs at h ⊢
  rfl

theorem nodup_pushNew (h : keys.Nodup) : (pushNew keys key).1.Nodup := by
  unfold pushNew
  split_ifs with hany
  · exact h
  · have hnot : key ∉ keys := by simpa using hany
    simpa [List.nodup_append, h] using fun k hk => ne_of_mem_of_not_mem hk hnot

/-- A mutator that reports no change has made none. -/
theorem lock_unchanged {mode : EvacuationMode} (h : (p.lock key mode).2 = false) :
    (p.lock key mode).1 = p := by
  cases mode with
  | whenIdle =>
    simp only [lock, Bool.or_eq_false_iff, bne_eq_false_iff_eq] at h ⊢
    rw [pushNew_unchanged h.1, filter_ne_eq h.2]
  | whenClaimed =>
    simp only [lock, Bool.or_eq_false_iff, bne_eq_false_iff_eq] at h ⊢
    rw [pushNew_unchanged h.1, filter_ne_eq h.2]

theorem unlock_unchanged (h : (p.unlock key).2 = false) : (p.unlock key).1 = p := by
  simp only [unlock, bne_eq_false_iff_eq] at h ⊢
  have hidle : (p.pvcKeys.filter (· ≠ key)).length ≤ p.pvcKeys.length := List.length_filter_le ..
  have hclaimed : (p.claimablePvcKeys.filter (· ≠ key)).length ≤ p.claimablePvcKeys.length :=
    List.length_filter_le ..
  rw [filter_ne_eq (by omega), filter_ne_eq (by omega)]

theorem Orderly.lock (h : p.Orderly) (key : String) (mode : EvacuationMode) :
    (p.lock key mode).1.Orderly := by
  cases mode with
  | whenIdle =>
    refine ⟨nodup_pushNew h.pvcKeys, h.claimablePvcKeys.filter _, fun k hk hmem => ?_⟩
    obtain ⟨hold, hne⟩ := List.mem_filter.mp hmem
    rcases mem_pushNew.mp hk with hin | heq
    · exact h.disjoint k hin hold
    · simp [heq] at hne
  | whenClaimed =>
    refine ⟨h.pvcKeys.filter _, nodup_pushNew h.claimablePvcKeys, fun k hk hmem => ?_⟩
    obtain ⟨hold, hne⟩ := List.mem_filter.mp hk
    rcases mem_pushNew.mp hmem with hin | heq
    · exact h.disjoint k hold hin
    · simp [heq] at hne

theorem Orderly.unlock (h : p.Orderly) (key : String) : (p.unlock key).1.Orderly where
  pvcKeys := h.pvcKeys.filter _
  claimablePvcKeys := h.claimablePvcKeys.filter _
  disjoint := fun k hk hmem =>
    h.disjoint k (List.mem_filter.mp hk).1 (List.mem_filter.mp hmem).1

end EvacuationParamsSpec

namespace KeyOp
variable {op : KeyOp} {p : EvacuationParamsSpec} {stored : Option EvacuationParamsSpec}

theorem mutate_unchanged (h : (op.mutate p).2 = false) : (op.mutate p).1 = p := by
  cases op with
  | lock key mode => exact EvacuationParamsSpec.lock_unchanged h
  | unlock key => exact EvacuationParamsSpec.unlock_unchanged h

theorem orderly_mutate (h : p.Orderly) : (op.mutate p).1.Orderly := by
  cases op with
  | lock key mode => exact h.lock key mode
  | unlock key => exact h.unlock key

theorem orderly_empty : ({} : EvacuationParamsSpec).Orderly :=
  ⟨List.nodup_nil, List.nodup_nil, fun _ h => absurd h List.not_mem_nil⟩

/-- What is stored is orderly. -/
def StoredOrderly (stored : Option EvacuationParamsSpec) : Prop := ∀ p ∈ stored, p.Orderly

theorem orderly_apply (op : KeyOp) (h : StoredOrderly stored) : StoredOrderly (op.apply stored) := by
  intro p hp
  cases stored with
  | none =>
    by_cases hchanged : (op.mutate {}).2 = true
    · rw [apply_none, if_pos hchanged] at hp
      obtain rfl := Option.mem_some.mp hp
      exact orderly_mutate orderly_empty
    · rw [apply_none, if_neg hchanged] at hp
      exact absurd hp (Option.not_mem_none p)
  | some q =>
    obtain rfl := Option.mem_some.mp hp
    exact orderly_mutate (h q rfl)

/-- The lists hold the key in the one of the mode. -/
def Holds (key : String) (mode : EvacuationMode) (stored : Option EvacuationParamsSpec) : Prop :=
  ∃ p, stored = some p ∧ p.LockedAs key mode

theorem holds_apply_lock (key : String) (mode : EvacuationMode)
    (stored : Option EvacuationParamsSpec) : Holds key mode ((lock key mode).apply stored) := by
  cases stored with
  | none =>
    have hchanged : ((lock key mode).mutate {}).2 = true := by cases mode <;> rfl
    exact ⟨_, if_pos hchanged, EvacuationParamsSpec.lockedAs_lock ..⟩
  | some p => exact ⟨_, rfl, EvacuationParamsSpec.lockedAs_lock ..⟩

theorem holds_apply_other {key : String} {mode : EvacuationMode} (hne : op.key ≠ key)
    (h : Holds key mode stored) : Holds key mode (op.apply stored) := by
  obtain ⟨p, rfl, hlocked⟩ := h
  refine ⟨_, rfl, ?_⟩
  cases op with
  | lock k m => exact (EvacuationParamsSpec.lockedAs_lock_other (Ne.symm hne)).mpr hlocked
  | unlock k => exact (EvacuationParamsSpec.lockedAs_unlock_other (Ne.symm hne)).mpr hlocked

end KeyOp

/-! ## The callers -/

/-- Callers at work on the parameter object, each with what it still has to do. -/
structure Updates (ι : Type) where
  world : World
  prog : ι → M Unit

namespace World

def lockLists (w : World) : Option EvacuationParamsSpec :=
  (w.get .params paramsKey).map fun o => (o.data : EvacuationParamsSpec)

theorem lockLists_none {w : World} (h : w.get .params paramsKey = none) : w.lockLists = none := by
  rw [lockLists, h]
  rfl

theorem lockLists_some {w : World} {o : Obj .params} (h : w.get .params paramsKey = some o) :
    w.lockLists = some o.data := by
  rw [lockLists, h]
  rfl

/-- The stored parameter object carries a version that has been given out, and it is not one
that should have disappeared. -/
def ParamsInOrder (w : World) : Prop :=
  ∀ o, w.get .params paramsKey = some o →
    o.metadata.resourceVersion < w.revision ∧ o.gone = false

end World

namespace Updates
variable {ι : Type}

def start (w : World) (ops : ι → KeyOp) : Updates ι := ⟨w, fun i => (ops i).program⟩

/-- A caller makes its next call. -/
def step [DecidableEq ι] (s : Updates ι) (i : ι) : Option (Updates ι) :=
  match s.prog i with
  | .call c next =>
    some ⟨s.world.effect c, Function.update s.prog i (next (s.world.answer {} c))⟩
  | _ => none

def lockLists (s : Updates ι) : Option EvacuationParamsSpec := s.world.lockLists

/-! ## Where a caller is -/

def persistentConflict : Error := .other ("persistent conflict updating " ++ paramsName)

section Stages
variable {mutate : EvacuationParamsSpec → EvacuationParamsSpec × Bool} {w w' : World}

/-- After its write, a caller is through, or starts over because of a conflict. -/
def afterWrite (mutate : EvacuationParamsSpec → EvacuationParamsSpec × Bool) (tries : Nat) :
    Except ApiError Unit → M Unit
  | .ok () => .ret ()
  | .error .conflict => updateParams mutate tries
  | .error e => .fail (.api e)

/-- After its read, a caller is through if there is nothing to be changed. -/
def afterRead (mutate : EvacuationParamsSpec → EvacuationParamsSpec × Bool) (tries : Nat) :
    Except ApiError (Option (Obj .params)) → M Unit
  | .ok none =>
    if !(mutate {}).2 then .ret ()
    else .call (.create .params ⟨{ name := paramsName }, (mutate {}).1⟩) (afterWrite mutate tries)
  | .ok (some view) =>
    if !(mutate view.data).2 then .ret ()
    else .call (.replace .params ⟨view.metadata, (mutate view.data).1⟩) (afterWrite mutate tries)
  | .error e => .fail (.api e)

theorem updateParams_succ (tries : Nat) :
    updateParams mutate (tries + 1) = .call (.get .params paramsKey) (afterRead mutate tries) := by
  refine congrArg (Program.call (I := kubeInterface) (Call.get .params paramsKey)) (funext fun r => ?_)
  rcases r with e | (_ | view)
  · rfl
  · refine if_congr Iff.rfl rfl
      (congrArg (Program.call (I := kubeInterface) (Call.create .params _)) (funext fun r => ?_))
    rcases r with e | u
    · cases e <;> rfl
    · rfl
  · refine if_congr Iff.rfl rfl
      (congrArg (Program.call (I := kubeInterface) (Call.replace .params _)) (funext fun r => ?_))
    rcases r with e | u
    · cases e <;> rfl
    · rfl

/-- A caller that works on what it has read of this world. -/
inductive Stage (mutate : EvacuationParamsSpec → EvacuationParamsSpec × Bool) (w : World) :
    M Unit → Prop
  | reading (tries : Nat) : Stage mutate w (updateParams mutate (tries + 1))
  | creating (tries : Nat) (changed : (mutate {}).2 = true) :
      Stage mutate w (.call (.create .params ⟨{ name := paramsName }, (mutate {}).1⟩)
        (afterWrite mutate tries))
  | replacing (tries : Nat) (view : Obj .params) (changed : (mutate view.data).2 = true)
      (read : System.ReadNow w paramsKey view) (present : (w.get .params paramsKey).isSome) :
      Stage mutate w (.call (.replace .params ⟨view.metadata, (mutate view.data).1⟩)
        (afterWrite mutate tries))
  | returned : Stage mutate w (.ret ())
  | conflicted : Stage mutate w (.fail persistentConflict)

theorem stage_updateParams (tries : Nat) : Stage mutate w (updateParams mutate tries) := by
  cases tries with
  | zero => exact .conflicted
  | succ tries => exact .reading tries

/-- Whatever the others write, a caller's view stays one of the past. -/
theorem Stage.later {p : M Unit} (h : Stage mutate w p) (hw : World.Succeeds w w')
    (hpresent : (w.get .params paramsKey).isSome → (w'.get .params paramsKey).isSome) :
    Stage mutate w' p := by
  cases h with
  | reading tries => exact .reading tries
  | creating tries changed => exact .creating tries changed
  | replacing tries view changed read present =>
    exact .replacing tries view changed (read.step hw) (hpresent present)
  | returned => exact .returned
  | conflicted => exact .conflicted

/-- What one call of a caller does to the world and to the caller. -/
inductive Effect (op : KeyOp) (w : World) : World → M Unit → Prop
  | waits (p : M Unit) (stage : Stage op.mutate w p) (busy : p ≠ .ret ()) : Effect op w w p
  | unchanged (same : op.apply w.lockLists = w.lockLists) : Effect op w w (.ret ())
  | writes (o : Obj .params) (key : o.key = paramsKey) (kept : o.gone = false)
      (data : op.apply w.lockLists = some o.data) : Effect op w (w.store o) (.ret ())

variable {op : KeyOp} {tries : Nat} {view : Obj .params}

theorem updateParams_busy (tries : Nat) : updateParams mutate tries ≠ .ret () := by
  cases tries with
  | zero => exact fun h => nomatch h
  | succ tries =>
    rw [updateParams_succ]
    exact fun h => nomatch h

theorem effect_read (hw : w.ParamsInOrder) :
    Effect op w w (afterRead op.mutate tries (w.answer {} (.get .params paramsKey))) := by
  show Effect op w w (afterRead op.mutate tries (.ok (w.get .params paramsKey)))
  cases hget : w.get .params paramsKey with
  | none =>
    have hlists : w.lockLists = none := World.lockLists_none hget
    cases hchanged : (op.mutate {}).2 with
    | false =>
      simp only [afterRead, hchanged, Bool.not_false, if_true]
      exact .unchanged (by simp [hlists, hchanged])
    | true =>
      simp only [afterRead, hchanged, Bool.not_true, Bool.false_eq_true, if_false]
      exact .waits _ (.creating tries hchanged) (fun h => nomatch h)
  | some view =>
    have hlists : w.lockLists = some view.data := World.lockLists_some hget
    cases hchanged : (op.mutate view.data).2 with
    | false =>
      have hsame : (op.mutate view.data).1 = view.data := KeyOp.mutate_unchanged hchanged
      simp only [afterRead, hchanged, Bool.not_false, if_true]
      refine .unchanged ?_
      rw [hlists]
      exact congrArg some hsame
    | true =>
      simp only [afterRead, hchanged, Bool.not_true, Bool.false_eq_true, if_false]
      have hread : System.ReadNow w paramsKey view := by
        refine ⟨World.get_key hget, (hw view hget).1, fun cur hcur _ => ?_⟩
        exact Option.some.inj (hcur.symm.trans hget)
      exact .waits _ (.replacing tries view hchanged hread (by rw [hget]; rfl)) (fun h => nomatch h)

theorem effect_create (hchanged : (op.mutate {}).2 = true) :
    Effect op w (w.effect (.create .params ⟨{ name := paramsName }, (op.mutate {}).1⟩))
      (afterWrite op.mutate tries
        (w.answer {} (.create .params ⟨{ name := paramsName }, (op.mutate {}).1⟩))) := by
  have hkey : Obj.key (k := .params) ⟨{ name := paramsName }, (op.mutate {}).1⟩ = paramsKey := rfl
  simp only [World.effect, World.answer, Outcome.write, World.create, hkey]
  cases hget : w.get .params paramsKey with
  | none =>
    have hlists : w.lockLists = none := World.lockLists_none hget
    exact .writes _ rfl rfl (by rw [hlists, KeyOp.apply_none, if_pos hchanged]; rfl)
  | some cur => exact .waits _ (stage_updateParams tries) (updateParams_busy tries)

theorem effect_replace (hw : w.ParamsInOrder) (hread : System.ReadNow w paramsKey view)
    (hpresent : (w.get .params paramsKey).isSome) :
    Effect op w (w.effect (.replace .params ⟨view.metadata, (op.mutate view.data).1⟩))
      (afterWrite op.mutate tries
        (w.answer {} (.replace .params ⟨view.metadata, (op.mutate view.data).1⟩))) := by
  obtain ⟨cur, hget⟩ := Option.isSome_iff_exists.mp hpresent
  have hkey : Obj.key (k := .params) ⟨view.metadata, (op.mutate view.data).1⟩ = paramsKey :=
    hread.key_eq
  simp only [World.effect, World.answer, Outcome.write, World.replace, hkey, hget]
  by_cases hversion : cur.metadata.resourceVersion = view.metadata.resourceVersion
  · obtain rfl := hread.same cur hget hversion
    have hkept : Obj.gone (k := .params) ⟨cur.metadata, (op.mutate cur.data).1⟩ = false :=
      (hw cur hget).2
    have hlists : w.lockLists = some cur.data := World.lockLists_some hget
    simp only [if_true, World.update, hkept, Bool.false_eq_true, if_false]
    refine .writes _ hkey hkept ?_
    rw [hlists]
    rfl
  · simp only [if_neg hversion]
    exact .waits _ (stage_updateParams tries) (updateParams_busy tries)

/-- One call of a caller that works on what it has read. -/
theorem stage_call {p : M Unit} {c : Call} {next : c.Resp → M Unit} (hw : w.ParamsInOrder)
    (h : Stage op.mutate w p) (hp : p = .call c next) :
    Effect op w (w.effect c) (next (w.answer {} c)) := by
  cases h with
  | reading tries =>
    rw [updateParams_succ] at hp
    cases hp
    exact effect_read hw
  | creating tries changed =>
    cases hp
    exact effect_create changed
  | replacing tries view changed read present =>
    cases hp
    exact effect_replace hw read present
  | returned => cases hp
  | conflicted => cases hp

theorem world_cases {p : M Unit} (h : Effect op w w' p) :
    w' = w ∨ ∃ o : Obj .params, o.key = paramsKey ∧ o.gone = false ∧ w' = w.store o := by
  cases h with
  | waits p _ _ => exact .inl rfl
  | unchanged _ => exact .inl rfl
  | writes o hkey hkept _ => exact .inr ⟨o, hkey, hkept, rfl⟩

theorem get_stored {o : Obj .params} (hkey : o.key = paramsKey) :
    (w.store o).get .params paramsKey = some (o.stamped w.revision) :=
  hkey ▸ World.get_store_self w o

theorem Effect.succeeds {p : M Unit} (h : Effect op w w' p) : World.Succeeds w w' := by
  rcases world_cases h with rfl | ⟨o, -, hkept, rfl⟩
  · exact .of_same rfl rfl
  · have hsucceeds := World.succeeds_update w o
    rwa [World.update, hkept] at hsucceeds

theorem Effect.present {p : M Unit} (h : Effect op w w' p)
    (hpresent : (w.get .params paramsKey).isSome) : (w'.get .params paramsKey).isSome := by
  rcases world_cases h with rfl | ⟨o, hkey, -, rfl⟩
  · exact hpresent
  · rw [get_stored hkey]
    rfl

theorem Effect.inOrder {p : M Unit} (h : Effect op w w' p) (hw : w.ParamsInOrder) :
    w'.ParamsInOrder := by
  rcases world_cases h with rfl | ⟨o, hkey, hkept, rfl⟩
  · exact hw
  · intro x hx
    rw [get_stored hkey] at hx
    obtain rfl := Option.some.inj hx
    exact ⟨Nat.lt_succ_self w.revision, hkept⟩

theorem Effect.stage {p : M Unit} (h : Effect op w w' p) : Stage op.mutate w' p := by
  cases h with
  | waits p stage _ => exact stage
  | unchanged _ => exact .returned
  | writes o _ _ _ => exact .returned

theorem Effect.lockLists {p : M Unit} (h : Effect op w w' p) :
    w' = w ∧ p ≠ .ret () ∨ p = .ret () ∧ w'.lockLists = op.apply w.lockLists := by
  cases h with
  | waits p _ busy => exact .inl ⟨rfl, busy⟩
  | unchanged same => exact .inr ⟨rfl, same.symm⟩
  | writes o hkey _ data =>
    rw [World.lockLists_some (get_stored hkey)]
    exact .inr ⟨rfl, data.symm⟩

end Stages

/-! ## Runs of many callers -/

section Runs
variable {ops : ι → KeyOp} {s s' : Updates ι} {i : ι} {w : World} {is : List ι}

theorem prog_start (i : ι) : (start w ops).prog i = updateParams (ops i).mutate 8 :=
  (ops i).program_eq

/-- Every caller works on what it has read. -/
structure Consistent (ops : ι → KeyOp) (s : Updates ι) : Prop where
  world : s.world.ParamsInOrder
  stage : ∀ i, Stage (ops i).mutate s.world (s.prog i)

theorem consistent_start (hw : w.ParamsInOrder) : Consistent ops (start w ops) where
  world := hw
  stage := by
    intro i
    rw [prog_start]
    exact stage_updateParams 8

variable [DecidableEq ι]

/-- A step is one call of one caller that is not through yet. -/
theorem step_effect (hc : Consistent ops s) (h : step s i = some s') :
    Effect (ops i) s.world s'.world (s'.prog i) ∧ s.prog i ≠ .ret () ∧
      ∀ j, j ≠ i → s'.prog j = s.prog j := by
  unfold step at h
  cases hprog : s.prog i with
  | ret u => simp [hprog] at h
  | fail e => simp [hprog] at h
  | call c next =>
    simp only [hprog] at h
    obtain rfl := Option.some.inj h
    refine ⟨?_, (fun h => nomatch h), fun j hj => Function.update_of_ne hj _ _⟩
    simp only [Function.update_self]
    exact stage_call hc.world (hc.stage i) hprog

theorem consistent_step (hc : Consistent ops s) (h : step s i = some s') : Consistent ops s' := by
  obtain ⟨heffect, -, hothers⟩ := step_effect hc h
  refine ⟨heffect.inOrder hc.world, fun j => ?_⟩
  by_cases hj : j = i
  · subst hj
    exact heffect.stage
  · rw [hothers j hj]
    exact (hc.stage j).later heffect.succeeds heffect.present

abbrev Runs (w : World) (ops : ι → KeyOp) (is : List ι) (s : Updates ι) : Prop :=
  Run step (fun _ _ => True) (start w ops) is s

theorem consistent_run (hw : w.ParamsInOrder) (h : Runs w ops is s) : Consistent ops s :=
  h.invariant (consistent_start hw) fun _ _ _ hc _ hs => consistent_step hc hs

/-- The points are those of the successful callers, each at a step of its own, and they
explain what the object has held. -/
structure Serial (w : World) (ops : ι → KeyOp) (is : List ι) (s : Updates ι)
    (points : List (Point ι)) : Prop where
  explains : Linearizes step (start w ops) lockLists (fun i => (ops i).apply) is points
  own : ∀ p ∈ points, is[p.time]? = some p.call
  once : (points.map Point.call).Nodup
  succeeded : ∀ i, i ∈ points.map Point.call ↔ s.prog i = .ret ()

theorem serial_start : Serial w ops [] (start w ops) [] where
  explains := .nil
  own := by simp
  once := List.nodup_nil
  succeeded := by
    intro i
    have hbusy : (start w ops).prog i ≠ .ret () := by
      rw [prog_start]
      exact updateParams_busy 8
    simpa using hbusy

theorem serial_step {points : List (Point ι)} (hrun : Runs w ops is s)
    (hc : Consistent ops s) (h : Serial w ops is s points) (hs : step s i = some s') :
    ∃ points', Serial w ops (is ++ [i]) s' points' := by
  obtain ⟨heffect, hbusy, hothers⟩ := step_effect hc hs
  have hnew : i ∉ points.map Point.call := fun hmem => hbusy ((h.succeeded i).mp hmem)
  have hold : ∀ p ∈ points, (is ++ [i])[p.time]? = some p.call := by
    intro p hp
    rw [List.getElem?_append_left (h.explains.past p hp)]
    exact h.own p hp
  rcases heffect.lockLists with ⟨hworld, hwaits⟩ | ⟨hreturned, happlied⟩
  · refine ⟨points, h.explains.idle hrun.runList_eq hs (congrArg World.lockLists hworld), hold,
      h.once, fun j => ?_⟩
    by_cases hj : j = i
    · subst hj
      exact iff_of_false hnew hwaits
    · rw [hothers j hj]
      exact h.succeeded j
  · refine ⟨points ++ [⟨is.length, i⟩], h.explains.effect hrun.runList_eq hs happlied, ?_, ?_, ?_⟩
    · intro p hp
      rcases List.mem_append.mp hp with hp | hp
      · exact hold p hp
      · obtain rfl := List.mem_singleton.mp hp
        simp
    · simpa [List.nodup_append, h.once] using fun p hp => ne_of_mem_of_not_mem
        (List.mem_map_of_mem hp) hnew
    · intro j
      by_cases hj : j = i
      · subst hj
        simp [hreturned]
      · rw [hothers j hj, ← h.succeeded j]
        simp [hj]

theorem exists_serial (hw : w.ParamsInOrder) (h : Runs w ops is s) :
    ∃ points, Serial w ops is s points := by
  induction h with
  | start => exact ⟨[], serial_start⟩
  | snoc prior _ hs ih =>
    obtain ⟨points, hserial⟩ := ih
    exact serial_step prior (consistent_run hw prior) hserial hs

/-- Some call of this caller has changed the world. -/
def Changed (w : World) (ops : ι → KeyOp) (i : ι) (is : List ι) : Prop :=
  Happened step (start w ops)
    (fun t j => j = i ∧ ∃ t', step t j = some t' ∧ t'.world ≠ t.world) is

/-- Only a caller that succeeds changes anything. -/
theorem not_changed (hw : w.ParamsInOrder) (h : Runs w ops is s) (i : ι)
    (hi : s.prog i ≠ .ret ()) : ¬ Changed w ops i is := by
  induction h with
  | start =>
    rintro ⟨bs, b, cs, t, heq, -⟩
    simp at heq
  | @snoc is j t t' prior _ hs ih =>
    intro hchanged
    obtain ⟨heffect, hbusy, hothers⟩ := step_effect (consistent_run hw prior) hs
    rcases hchanged.last prior.runList_eq with hbefore | ⟨rfl, t'', hs', hne⟩
    · refine ih ?_ hbefore
      by_cases hj : i = j
      · subst hj
        exact hbusy
      · rwa [hothers i hj] at hi
    · obtain rfl := Option.some.inj (hs'.symm.trans hs)
      rcases heffect.lockLists with ⟨hworld, -⟩ | ⟨hreturned, -⟩
      · exact hne hworld
      · exact hi hreturned

/-- What a successful lock has put into a list stays there, and there only, until another
operation on the same key takes effect. -/
def Lasting (w : World) (ops : ι → KeyOp) (is : List ι) (points : List (Point ι)) : Prop :=
  ∀ p ∈ points, ∀ key mode, ops p.call = .lock key mode → ∀ bs cs t, is = bs ++ cs →
    runList step (start w ops) bs = some t → p.time < bs.length →
    (∀ q ∈ points, p.time < q.time → q.time < bs.length → (ops q.call).key ≠ key) →
    KeyOp.Holds key mode t.lockLists

theorem Serial.lasting {points : List (Point ι)} (h : Serial w ops is s points) :
    Lasting w ops is points := by
  intro p hp key mode hop bs cs t his ht hlt hothers
  refine h.explains.since hp (fun v => ?_) his hlt (fun q hq hafter hbefore v hv => ?_) ht
  · rw [hop]
    exact KeyOp.holds_apply_lock key mode v
  · exact KeyOp.holds_apply_other (hothers q hq hafter hbefore) hv

/-- No update of the lock lists is lost: the successful callers take effect one after the
other, and a caller that gives up has changed nothing. -/
theorem no_update_lost (hw : w.ParamsInOrder) (h : Runs w ops is s) :
    (∃ points, Serial w ops is s points ∧ Lasting w ops is points) ∧
      (∀ i e, s.prog i = .fail e → e = persistentConflict ∧ ¬ Changed w ops i is) ∧
      (w.lockLists = none ∨ w.lockLists = some {} → KeyOp.StoredOrderly s.lockLists) := by
  obtain ⟨points, hserial⟩ := exists_serial hw h
  refine ⟨⟨points, hserial, hserial.lasting⟩, fun i e hi => ⟨?_, ?_⟩, fun hempty => ?_⟩
  · have hstage := (consistent_run hw h).stage i
    rw [hi] at hstage
    generalize hp : (.fail e : M Unit) = p at hstage
    cases hstage with
    | reading tries => rw [updateParams_succ] at hp; cases hp
    | creating tries _ => cases hp
    | replacing tries view _ _ _ => cases hp
    | returned => cases hp
    | conflicted => cases hp; rfl
  · refine not_changed hw h i ?_
    rw [hi]
    exact fun h => nomatch h
  · have hstart : KeyOp.StoredOrderly (start w ops).lockLists := by
      intro p hp
      rcases hempty with hnone | hsome
      · rw [show (start w ops).lockLists = none from hnone] at hp
        cases hp
      · rw [show (start w ops).lockLists = some {} from hsome] at hp
        obtain rfl := Option.mem_some.mp hp
        exact KeyOp.orderly_empty
    exact hserial.explains.invariant hstart (fun i _ => KeyOp.orderly_apply (ops i))
      (List.append_nil is).symm h.runList_eq

/-- Two callers race to create the object. The one that loses the race repeats its update. -/
theorem no_update_lost_race : ∃ s : Updates Bool,
    s.lockLists = some ⟨["d/a"], ["d/b"]⟩ ∧
      ∃ points, Serial {} (fun i => if i then .lock "d/a" .whenIdle else .lock "d/b" .whenClaimed)
        [true, false, true, false, false, false] s points := by
  obtain ⟨s, hrun, hlists⟩ := Run.exists_of_runList
    (p := fun s : Updates Bool => decide (s.lockLists = some ⟨["d/a"], ["d/b"]⟩))
    (show (runList (guarded step fun _ _ => True)
      (start {} fun i => if i then .lock "d/a" .whenIdle else .lock "d/b" .whenClaimed)
      [true, false, true, false, false, false]).any _ = true by decide +kernel)
  have hinOrder : World.ParamsInOrder {} := by
    intro o ho
    cases ho
  obtain ⟨⟨points, hserial, -⟩, -⟩ := no_update_lost hinOrder hrun
  exact ⟨s, of_decide_eq_true hlists, points, hserial⟩

end Runs

end Updates

end ZfsEvacuation
