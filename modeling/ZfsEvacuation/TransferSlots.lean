import ZfsEvacuation.SyncedViews

/-!
# One transfer per source and per target

Target selection checks a listing of all evacuations and then acts on it. The selection
lock makes the two one step: while a reconcile holds it, no other evacuation takes a slot
that it did not have in the listing.
-/
namespace ZfsEvacuation
open ClientProgram Program GuardedRun

/-- What an evacuation can have to itself: a node to copy from, a node to move to. -/
inductive Slot where
  | source (nodeId : String)
  | target (nodeId : String)

def Occupies (st : ZFSEvacuationStatus) : Slot → Prop
  | .source nodeId => (st.phase = .transferring ∨ st.phase = .adopting) ∧
      ∃ source, st.source = some source ∧ source.nodeId = nodeId
  | .target nodeId => st.phase ≠ .completed ∧ st.phase ≠ .failed ∧
      ∃ target, st.target = some target ∧ target.nodeId = nodeId

theorem occupies_core (st : ZFSEvacuationStatus) (slot : Slot) :
    Occupies st.core slot ↔ Occupies st slot := by
  cases slot <;> rfl

theorem occupies_congr {st st' : ZFSEvacuationStatus} {slot : Slot} (h : st.core = st'.core) :
    Occupies st slot ↔ Occupies st' slot := by
  rw [← occupies_core st, h, occupies_core st']

/-- An evacuation without a status has no slot. -/
theorem not_occupies_fresh {e : Obj .evacuation} {slot : Slot} (h : statusOf e = none) :
    ¬ Occupies (viewStatus e) slot := by
  have hview : viewStatus e = {} := by rw [viewStatus, h, Option.getD_none]
  rw [hview]
  cases slot with
  | source nodeId =>
    rintro ⟨-, source, hs, -⟩
    cases hs
  | target nodeId =>
    rintro ⟨-, -, target, ht, -⟩
    cases ht

theorem status_of_occupies {e : Obj .evacuation} {slot : Slot}
    (h : Occupies (viewStatus e) slot) : statusOf e = some (viewStatus e) := by
  cases hs : statusOf e with
  | none => exact absurd h (not_occupies_fresh hs)
  | some st => rw [viewStatus, hs, Option.getD_some]

/-! ## What the checks rule out -/

theorem not_source_of_idle {name nodeId : String} {l : List (Obj .evacuation)}
    (h : sourceBusy name nodeId l = false) {e : Obj .evacuation} (he : e ∈ l)
    (hname : e.name ≠ name) : ¬ Occupies (viewStatus e) (.source nodeId) := by
  intro ho
  have hstatus := status_of_occupies ho
  obtain ⟨hphase, source, hs, hnode⟩ := ho
  have hnot := List.any_eq_false.mp h e he
  simp [hname, hstatus, hphase, hs, hnode] at hnot

theorem not_target_of_free {name nodeId : String} {l : List (Obj .evacuation)}
    (h : nodeId ∉ busyTargets name l) {e : Obj .evacuation} (he : e ∈ l)
    (hname : e.name ≠ name) : ¬ Occupies (viewStatus e) (.target nodeId) := by
  intro ho
  have hstatus := status_of_occupies ho
  obtain ⟨hcompleted, hfailed, target, ht, hnode⟩ := ho
  apply h
  rw [busyTargets, List.mem_filterMap]
  refine ⟨e, he, ?_⟩
  simp [hstatus, hname, hcompleted, hfailed, ht, hnode]

/-- A candidate is on a node that no other evacuation is moving to. -/
theorem candidate_free {cfg : Config} {input : SelectionInput} {sview : SelectionView}
    {zn : Obj .zfsNode} {c : Candidate} (h : .inl c ∈ nodeCandidates cfg input sview zn) :
    c.nodeId ∉ busyTargets input.evacName sview.evacs := by
  unfold nodeCandidates at h
  cases hnode : sview.nodes.find? fun n => nodeIdOf n == zn.name with
  | none =>
    simp only [hnode] at h
    split_ifs at h <;> simp at h
  | some node =>
    simp only [hnode] at h
    split_ifs at h <;> try simp at h
    obtain ⟨pool, -, hpool⟩ := h
    split_ifs at hpool
    obtain rfl := Sum.inl.inj hpool
    have hbusy : ¬ (busyTargets input.evacName sview.evacs).contains zn.name = true := by assumption
    simpa using hbusy

theorem chosen_free {cfg : Config} {input : SelectionInput} {sview : SelectionView}
    {destPool : String} {zfsNodes : List (Obj .zfsNode)} {t : TargetInfo}
    (h : chooseTarget cfg input sview destPool zfsNodes = .ok t) :
    t.nodeId ∉ busyTargets input.evacName sview.evacs := by
  unfold chooseTarget at h
  simp only at h
  split at h
  · rename_i c hc
    obtain rfl := Except.ok.inj h
    obtain ⟨judged, hjudged, hleft⟩ := List.mem_filterMap.mp (mem_of_mostAvailable hc)
    obtain ⟨zn, -, hzn⟩ := List.mem_flatMap.mp hjudged
    cases judged with
    | inl c' =>
      obtain rfl := Option.some.inj hleft
      exact candidate_free hzn
    | inr why => cases hleft
  · cases h

/-- The slot is free in a listing made under the lock, which is still held. -/
def FreeInSelection (view : Obj .evacuation) (tr : Trace) (slot : Slot) : Prop :=
  HoldsSelection tr ∧ ∃ l, ListedInSelection tr l ∧
    ∀ e ∈ l, e.name ≠ view.name → ¬ Occupies (viewStatus e) slot

/-- A slot is only taken by a selection that found it free. -/
theorem Writes.occupies {cfg : Config} {view : Obj .evacuation} {tr : Trace}
    {st w : ZFSEvacuationStatus} {slot : Slot} (h : Writes cfg view tr st w)
    (hk : Knows view tr st) (ho : Occupies w slot) :
    Occupies st slot ∨ FreeInSelection view tr slot := by
  cases h with
  | selected source r group t rand hp hs hr facts =>
    refine .inr ⟨facts.held, ?_⟩
    cases slot with
    | source nodeId =>
      obtain ⟨-, source', hs', hnode⟩ := ho
      obtain rfl : source = source' := Option.some.inj (hs.symm.trans hs')
      obtain ⟨l, hlisted, hidle⟩ := facts.idle
      exact ⟨l, hlisted, fun e he hname => hnode ▸ not_source_of_idle hidle he hname⟩
    | target nodeId =>
      obtain ⟨-, -, target, ht, hnode⟩ := ho
      obtain rfl := Option.some.inj ht
      obtain ⟨pv, sview, destPool, zfsNodes, -, hlisted, hchosen⟩ := facts.chosen
      exact ⟨sview.evacs, hlisted, fun e he hname =>
        hnode ▸ not_target_of_free (chosen_free hchosen) he hname⟩
  | abortStarts msg hv hw hd =>
    obtain rfl : viewStatus view = st := by
      have heq := hk.eq
      rwa [hw] at heq
    refine .inl ?_
    cases slot with
    | source nodeId => simp [Occupies] at ho
    | target nodeId =>
      obtain ⟨-, -, htarget⟩ := ho
      simp only [entersAbort, Bool.and_eq_true, decide_eq_true_eq] at hv
      exact ⟨hv.1.1, hv.1.2, htarget⟩
  | gaveUp msg hp =>
    refine .inl ?_
    rcases hp with hp | hp <;> cases slot <;> simp_all [Occupies]
  | _ =>
    refine .inl ?_
    cases slot <;> simp_all [Occupies]

/-! ## The lock -/

namespace World
variable {w : World}

theorem selectionLocked_update {k : Kind} (w : World) (o : Obj k) :
    (w.update o).selectionLocked = w.selectionLocked := by
  unfold update
  split_ifs <;> rfl

/-- Only taking the lock and giving it back touch it. -/
theorem selectionLocked_effect {c : Call} (hlock : c ≠ .lockSelection)
    (hunlock : unlocksSelection c = false) :
    (w.effect c).selectionLocked = w.selectionLocked := by
  by_cases hremote : c.remote = true
  · rcases effect_remote w hremote with heq | ⟨k, o, heq⟩
    · rw [heq]
    · rw [heq, selectionLocked_update]
  · cases c with
    | lockSelection => exact absurd rfl hlock
    | unlockSelection => cases hunlock
    | _ => first | rfl | exact absurd rfl hremote

theorem selectionLocked_after {o : Outcome} {c : Call} (hlock : c ≠ .lockSelection)
    (hunlock : unlocksSelection c = false) :
    (w.after o c).selectionLocked = w.selectionLocked := by
  rcases after_cases w o c with ⟨heq, -⟩ | heq
  · rw [heq]
  · rw [heq, selectionLocked_effect hlock hunlock]

theorem selectionLocked_env (w : World) (e : EnvAction) :
    (w.env e).selectionLocked = w.selectionLocked := by
  cases e with
  | create k o =>
    simp only [env, create]
    split <;> rfl
  | update k o =>
    simp only [env]
    split
    · rfl
    · exact selectionLocked_update w _
  | delete k key =>
    simp only [env, delete]
    split
    · rfl
    · split_ifs
      · rfl
      · exact selectionLocked_update w _
  | tick nanos => rfl
  | relay evac relay =>
    simp only [env]
    split <;> rfl

end World

/-- A reconcile that holds the lock held it before its last call, or that call took it. -/
theorem HoldsSelection.of_cons {c : Call} {a : c.Resp} {tr : Trace}
    (h : HoldsSelection (⟨c, a⟩ :: tr)) :
    unlocksSelection c = false ∧ (c = .lockSelection ∨ HoldsSelection tr) := by
  refine ⟨h.2 _ (List.mem_cons_self ..), ?_⟩
  rcases List.mem_cons.mp h.1 with heq | hmem
  · exact .inl (congrArg Sigma.fst heq).symm
  · exact .inr ⟨hmem, fun e he => h.2 e (List.mem_cons_of_mem _ he)⟩

theorem ListedInSelection.tail {e : Event kubeInterface} {tr : Trace} {l : List (Obj .evacuation)}
    (h : ListedInSelection (e :: tr) l) :
    e = listedEvent .evacuation {} l ∨ ListedInSelection tr l := by
  obtain ⟨post, hsuffix, hheld⟩ := h
  rcases List.suffix_cons_iff.mp hsuffix with heq | hsuffix
  · exact .inl (List.cons.inj heq).1.symm
  · exact .inr ⟨post, hsuffix, hheld⟩

/-- Whoever has seen something under the lock held it before its last call. -/
theorem HoldsSelection.earlier {x e : Event kubeInterface} {tr post : Trace}
    (h : HoldsSelection (e :: tr)) (hseen : (x :: post) <:+ e :: tr) (hheld : HoldsSelection post) :
    HoldsSelection tr := by
  have hpost : post <:+ tr := by
    rcases List.suffix_cons_iff.mp hseen with heq | hsuffix
    · exact (List.cons.inj heq).2 ▸ List.suffix_refl _
    · exact (List.suffix_cons x post).trans hsuffix
  exact ⟨hpost.subset hheld.1, fun y hy => h.2 y (List.mem_cons_of_mem _ hy)⟩

theorem HoldsSelection.before {e : Event kubeInterface} {tr : Trace} {l : List (Obj .evacuation)}
    (h : HoldsSelection (e :: tr)) (hl : ListedInSelection (e :: tr) l) : HoldsSelection tr := by
  obtain ⟨post, hsuffix, hheld⟩ := hl
  exact h.earlier hsuffix hheld

namespace System
variable {cfg : Config} {s s' : System} {a : SysAction} {n n' : String} {slot : Slot}

/-- The stored evacuation of this name has the slot. -/
def Holds (s : System) (n : String) (slot : Slot) : Prop :=
  ∃ e, s.world.get .evacuation ⟨"", n⟩ = some e ∧ Occupies (viewStatus e) slot

theorem holds_step (hi : Informed cfg s) (hl : KeepsEvacs s a) (h : step cfg s a = some s')
    (hm : Holds s' n slot) : Holds s n slot ∨ ∃ r o, a = .call n o ∧
      s.running.get n = some r ∧ FreeInSelection r.view r.trace slot := by
  obtain ⟨e', he', ho⟩ := hm
  rcases status_step hi hl h he' with ⟨e, he, hstep⟩ | ⟨-, hfresh, -⟩
  · cases hstep with
    | kept same status _ _ =>
      rw [viewStatus_congr status] at ho
      exact .inl ⟨e, he, ho⟩
    | wrote r o st w next same running prog knows writes old new _ =>
      rcases writes.occupies knows ((occupies_congr new).mp ho) with hst | hfree
      · exact .inl ⟨e, he, (occupies_congr old).mpr hst⟩
      · exact .inr ⟨r, o, rfl, running, hfree⟩
  · exact absurd ho (not_occupies_fresh hfresh)

/-- A reconcile that holds the lock held it before, or takes it now. -/
theorem held_step (h : step cfg s a = some s') {r' : Running}
    (hr' : s'.running.get n = some r') (hheld : HoldsSelection r'.trace) :
    (∃ r, s.running.get n = some r ∧ HoldsSelection r.trace) ∨
      (∃ o, a = .call n o) ∧ s.world.selectionLocked = false := by
  cases step_cases h with
  | env e => exact .inl ⟨r', hr', hheld⟩
  | start name version view _ _ _ _ =>
    rw [running_proceed] at hr'
    split_ifs at hr' with hn hfin
    · obtain rfl := Option.some.inj hr'
      exact absurd hheld.1 List.not_mem_nil
    · exact .inl ⟨r', hr', hheld⟩
  | call name o r c next hr hprog hfree =>
    rw [running_proceed] at hr'
    split_ifs at hr' with hn hfin
    · obtain rfl := Option.some.inj hr'
      obtain rfl : name = n := (name_of_running hr).symm.trans hn
      rcases hheld.of_cons.2 with rfl | hbefore
      · exact .inr ⟨⟨o, rfl⟩, hfree⟩
      · exact .inl ⟨r, hr, hbefore⟩
    · exact .inl ⟨r', hr', hheld⟩
  | crash => cases hr'

/-- The lock is held by one reconcile at most, the listings made under it stay true of
everybody else, and no slot is taken twice. -/
structure Exclusive (s : System) : Prop where
  locked : ∀ n r, s.running.get n = some r → HoldsSelection r.trace →
    s.world.selectionLocked = true
  single : ∀ n n' r r', s.running.get n = some r → s.running.get n' = some r' →
    HoldsSelection r.trace → HoldsSelection r'.trace → n = n'
  listed : ∀ n r l slot m, s.running.get n = some r → HoldsSelection r.trace →
    ListedInSelection r.trace l → m ≠ n → Holds s m slot →
    ∃ e ∈ l, e.name = m ∧ Occupies (viewStatus e) slot
  alone : ∀ n n' slot, Holds s n slot → Holds s n' slot → n = n'

theorem exclusive_init : Exclusive init := by
  constructor
  · intro n r hr
    cases hr
  · intro n n' r r' hr
    cases hr
  · intro n r l slot m hr
    cases hr
  · rintro n n' slot ⟨e, he, -⟩
    cases he

theorem locked_step (hi : Informed cfg s) (hx : Exclusive s) (h : step cfg s a = some s') {r' : Running}
    (hr' : s'.running.get n = some r') (hheld : HoldsSelection r'.trace) :
    s'.world.selectionLocked = true := by
  cases step_cases h with
  | env e =>
    have hlocked := hx.locked n r' hr' hheld
    exact (World.selectionLocked_env s.world e).trans hlocked
  | start name version view _ _ _ _ =>
    rw [running_proceed] at hr'
    split_ifs at hr' with hn hfin
    · obtain rfl := Option.some.inj hr'
      exact absurd hheld.1 List.not_mem_nil
    · exact hx.locked n r' hr' hheld
  | call name o r c next hr hprog hfree =>
    rw [world_proceed]
    by_cases hc : c = .lockSelection
    · subst hc
      simp [World.after, Call.remote, World.effect]
    rw [running_proceed] at hr'
    split_ifs at hr' with hn hfin
    · obtain rfl := Option.some.inj hr'
      obtain ⟨hunlock, hcase⟩ := hheld.of_cons
      have hlocked := hx.locked name r hr (hcase.resolve_left hc)
      exact (World.selectionLocked_after hc hunlock).trans hlocked
    · have hlocked := hx.locked n r' hr' hheld
      have hunlock : unlocksSelection c = false := by
        by_contra hcon
        -- only the holder gives the lock back, and there is no other one
        cases c with
        | unlockSelection =>
          have hother : HoldsSelection r.trace := hi.contracted.allowed hr hprog
          have heq := hx.single name n r r' hr hr' hother hheld
          exact hn ((name_of_running hr).trans heq)
        | _ => exact hcon rfl
      exact (World.selectionLocked_after hc hunlock).trans hlocked
  | crash => cases hr'

theorem listed_step (hi : Informed cfg s) (hx : Exclusive s) (hl : KeepsEvacs s a)
    (h : step cfg s a = some s') {r' : Running} {l : List (Obj .evacuation)}
    (hr' : s'.running.get n = some r') (hheld : HoldsSelection r'.trace)
    (hlist : ListedInSelection r'.trace l) (hne : n' ≠ n) (hm : Holds s' n' slot) :
    ∃ e ∈ l, e.name = n' ∧ Occupies (viewStatus e) slot := by
  have hold := holds_step hi hl h hm
  cases step_cases h with
  | env e =>
    rcases hold with hold | ⟨r, o, ha, -⟩
    · exact hx.listed n r' l slot n' hr' hheld hlist hne hold
    · cases ha
  | start name version view _ _ _ _ =>
    rw [running_proceed] at hr'
    split_ifs at hr' with hn hfin
    · obtain rfl := Option.some.inj hr'
      exact absurd hheld.1 List.not_mem_nil
    · rcases hold with hold | ⟨r, o, ha, -⟩
      · exact hx.listed n r' l slot n' hr' hheld hlist hne hold
      · cases ha
  | call name o r c next hr hprog hfree =>
    rw [running_proceed] at hr'
    split_ifs at hr' with hn hfin
    · obtain rfl := Option.some.inj hr'
      obtain rfl : name = n := (name_of_running hr).symm.trans hn
      have hstored : Holds s n' slot := by
        rcases hold with hold | ⟨_, _, ha, -⟩
        · exact hold
        · cases ha
          exact absurd rfl hne
      rcases hlist.tail with heq | hbefore
      · -- the listing has just been made
        obtain rfl : c = .list .evacuation {} := congrArg Sigma.fst heq
        have hlisted : s.world.answer o (.list .evacuation {}) = .ok l :=
          eq_of_heq (Sigma.mk.inj heq).2
        obtain ⟨e, he, ho⟩ := hstored
        have hall : l = s.world.list .evacuation {} := by
          simp only [World.answer, Outcome.read] at hlisted
          split at hlisted
          · exact (Except.ok.inj hlisted).symm
          · cases hlisted
        refine ⟨e, ?_, (evac_key_name he).2, ho⟩
        rw [hall, World.list, List.mem_filter]
        exact ⟨KeyedStore.mem_of_get he, by simp [Selector.selects]⟩
      · exact hx.listed name r l slot n' hr (hheld.before hlist) hbefore hne hstored
    · rcases hold with hold | ⟨q, _, ha, hq, hfree⟩
      · exact hx.listed n r' l slot n' hr' hheld hlist hne hold
      · exact absurd (hx.single n' n q r' hq hr' hfree.1 hheld) hne
  | crash => cases hr'

theorem exclusive_step (hi : Informed cfg s) (hx : Exclusive s) (hl : KeepsEvacs s a)
    (h : step cfg s a = some s') : Exclusive s' := by
  refine ⟨fun n r => locked_step hi hx h, ?_, fun n r l slot m => listed_step hi hx hl h, ?_⟩
  · intro n n' r r' hr hr' hheld hheld'
    rcases held_step h hr hheld with ⟨q, hq, hold⟩ | ⟨⟨o, ha⟩, hfree⟩ <;>
      rcases held_step h hr' hheld' with ⟨q', hq', hold'⟩ | ⟨⟨o', ha'⟩, hfree'⟩
    · exact hx.single n n' q q' hq hq' hold hold'
    · rw [hx.locked n q hq hold] at hfree'
      cases hfree'
    · rw [hx.locked n' q' hq' hold'] at hfree
      cases hfree
    · rw [ha] at ha'
      cases ha'
      rfl
  · intro n n' slot hm hm'
    -- a slot that is taken now was free in a listing that is still true
    have htaken : ∀ {m m'}, Holds s m slot → (∃ r o, a = .call m' o ∧
        s.running.get m' = some r ∧ FreeInSelection r.view r.trace slot) → m = m' := by
      rintro m m' hm ⟨r, o, -, hr, hheld, l, hlist, hfree⟩
      by_contra hne
      obtain ⟨e, he, hname, ho⟩ := hx.listed m' r l slot m hr hheld hlist hne hm
      exact hfree e he (by rwa [hname, name_of_running hr]) ho
    rcases holds_step hi hl h hm with hold | hnew <;>
      rcases holds_step hi hl h hm' with hold' | hnew'
    · exact hx.alone n n' slot hold hold'
    · exact htaken hold hnew'
    · exact (htaken hold' hnew).symm
    · obtain ⟨r, o, ha, -⟩ := hnew
      obtain ⟨r', o', ha', -⟩ := hnew'
      rw [ha] at ha'
      cases ha'
      rfl

theorem exclusive_run {as : List SysAction} (h : Run (step cfg) Current init as s) : Exclusive s :=
  h.invariant_over informed_run exclusive_init
    fun _ _ _ hi hx hg hstep => exclusive_step hi hx hg.1 hstep

/-- In every run, no two evacuations copy from one node, and no two that are still going on
move to one node. -/
theorem one_transfer (cfg : Config) (as : List SysAction) (s : System)
    (h : Run (step cfg) Current init as s) (n n' : String) (slot : Slot) (hn : Holds s n slot)
    (hn' : Holds s n' slot) : n = n' := by
  have hx : Exclusive s := exclusive_run h
  exact hx.alone n n' slot hn hn'

instance : Decidable (Holds s n slot) := by
  unfold Holds Occupies
  split <;> infer_instance

/-- Two volumes of one node choose their target at the same time. -/
def selections : List SysAction :=
  Sample.pairSetup ++ Sample.reconcilesOf "pv1" [(0, 7), (3, 5), (4, 4), (5, 7)] ++
    Sample.reconcilesOf "pv2" [(1, 7), (8, 5), (9, 4), (10, 7)] ++ [Sample.seconds 100] ++
    Sample.reconcilesOf "pv1" [(6, 7)] ++ Sample.reconcilesOf "pv2" [(11, 7)] ++
    [Sample.seconds 100] ++ Sample.reconcilesOf "pv1" [(12, 6)] ++
    Sample.reconcilesOf "pv2" [(13, 6)] ++ Sample.reconcileOf "pv1" 14 5 ++
    Sample.reconcileOf "pv2" 15 2 ++ List.replicate 6 (.call "pv1" {}) ++
    List.replicate 4 (.call "pv2" {})

/-- One of the two takes both slots, and the other one waits. -/
theorem one_transfer_small : ∃ s as, Run (step Sample.config) Current init as s ∧
    Holds s "pv1" (.source "n1") ∧ Holds s "pv1" (.target "n2") ∧
    Sample.phaseOf s "pv2" = some .targetSelecting ∧
    ∀ n, Holds s n (.source "n1") ∨ Holds s n (.target "n2") → n = "pv1" := by
  obtain ⟨s, hrun, hs⟩ := Run.exists_of_runList
    (p := fun s : System => decide (Holds s "pv1" (.source "n1") ∧ Holds s "pv1" (.target "n2") ∧
      Sample.phaseOf s "pv2" = some .targetSelecting))
    (show (runList (guarded (step Sample.config) Current) init selections).any _ = true
      by decide +kernel)
  obtain ⟨hsource, htarget, hwaits⟩ := of_decide_eq_true hs
  refine ⟨s, _, hrun, hsource, htarget, hwaits, fun n hn => ?_⟩
  rcases hn with hn | hn
  · exact one_transfer _ _ s hrun n "pv1" _ hn hsource
  · exact one_transfer _ _ s hrun n "pv1" _ hn htarget

end System

end ZfsEvacuation
