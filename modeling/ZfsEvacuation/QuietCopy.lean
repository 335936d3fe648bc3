import ZfsEvacuation.LockedMode
import ZfsEvacuation.GenuineCopy

/-!
# Consumers during the copy

That no pod is bound to a node, and that the source node repels pods, is looked up in Quiescing
and again in Committing, not in between. What keeps consumers away from the source meanwhile is
that its node goes on repelling pods.
-/
namespace ZfsEvacuation
open ClientProgram Program GuardedRun

/-- The pod references the claim and is bound to a node. -/
def boundConsumer (ref : PvcRef) (pod : Obj .pod) : Bool :=
  pod.metadata.ns = ref.ns && podReferencesPvc ref.name pod && podIsScheduled pod

/-- From Quiescing up to the commit. -/
def Phase.watched (p : Phase) : Bool :=
  Phase.reached .quiescing p && Phase.reached p .committing

/-- A phase on the way forward is only left behind by one on the way forward. -/
theorem reached_of_moves {p q : Phase} (h : Relation.ReflTransGen Phase.Next p q)
    (hq : q.rank.isSome = true) : Phase.reached p q = true := by
  induction h using Relation.ReflTransGen.head_induction_on with
  | refl =>
    obtain ⟨i, hi⟩ := Option.isSome_iff_exists.mp hq
    simp [Phase.reached, hi]
  | @head p r hnext _ ih =>
    obtain ⟨j, hj⟩ := Option.isSome_iff_exists.mp hq
    cases hnext with
    | forward _ _ i hp hr =>
      simp only [Phase.reached, hr, hj, hp, decide_eq_true_eq] at ih ⊢
      exact Nat.le_of_succ_le ih
    | aborting | failed | gaveUp =>
      rw [Phase.reached] at ih
      cases ih

namespace Writes
variable {cfg : Config} {view : Obj .evacuation} {tr : Trace} {st w : ZFSEvacuationStatus}

/-- Target selection and what follows are entered from Quiescing. -/
theorem selecting (h : Writes cfg view tr st w)
    (hw : Phase.reached .targetSelecting w.phase = true) :
    Phase.reached .targetSelecting st.phase = true ∨
      st.phase = .quiescing ∧ w.phase = .targetSelecting := by
  cases h with
  | quiesced _ _ hp _ _ _ _ _ => exact .inr ⟨hp, rfl⟩
  | shown _ _ _ | settles _ _ | blocked _ _ | attempted _ _ _ _ _ _ _ _ _ _ _
  | attemptFailing _ _ _ | progressed _ _ _ _ | snapDeleteIssued _ _ _ => exact .inl hw
  | selected _ _ _ _ _ hp _ _ _ | copied _ _ _ _ hp _ _ _ _ _ _ | adopted hp
  | committed _ _ _ _ _ hp _ _ _ _ _ _ _ _ _ _ | swapped _ _ _ hp _ _ _ _ _ _ | completed hp _ =>
    rw [hp]
    exact .inl rfl
  | _ => cases hw

/-- Adopting and what follows are entered from Transferring. -/
theorem adopting (h : Writes cfg view tr st w) (hw : Phase.reached .adopting w.phase = true) :
    Phase.reached .adopting st.phase = true ∨
      st.phase = .transferring ∧ w.phase = .adopting := by
  cases h with
  | copied _ _ _ _ hp _ _ _ _ _ _ => exact .inr ⟨hp, rfl⟩
  | shown _ _ _ | settles _ _ | blocked _ _ | attempted _ _ _ _ _ _ _ _ _ _ _
  | attemptFailing _ _ _ | progressed _ _ _ _ | snapDeleteIssued _ _ _ => exact .inl hw
  | adopted hp | committed _ _ _ _ _ hp _ _ _ _ _ _ _ _ _ _ | swapped _ _ _ hp _ _ _ _ _ _
  | completed hp _ =>
    rw [hp]
    exact .inl rfl
  | _ => cases hw

/-- Quiescing is left for target selection after a second look at the pods. -/
theorem quiet (h : Writes cfg view tr st w) (hp : st.phase = .quiescing)
    (hw : w.phase = .targetSelecting) : st.quiescedAt.isSome = true ∧
      ∃ r pods, LookedIdle cfg view tr st r pods := by
  cases h with
  | quiesced r pods _ hwrote hr seen idle repels settled =>
    exact ⟨settled, r, pods, hwrote, hr, seen, idle, repels⟩
  | shown _ _ _ | settles _ _ _ _ _ | blocked _ _ | attempted _ _ _ _ _ _ _ _ _ _ _
  | attemptFailing _ _ _ | progressed _ _ _ _ | snapDeleteIssued _ _ _ =>
    have hcon : st.phase = .targetSelecting := hw
    rw [hp] at hcon
    cases hcon
  | _ => cases hw

/-- The settle period is started by a first look. -/
theorem settling (h : Writes cfg view tr st w) (hw : w.quiescedAt.isSome = true) :
    st.quiescedAt.isSome = true ∨
      st.phase = .quiescing ∧ ∃ r pods, LookedIdle cfg view tr st r pods := by
  cases h with
  | settles _ hp r pods look => exact .inr ⟨hp, r, pods, look⟩
  | blocked _ _ => cases hw
  | _ => exact .inl hw

/-- Transferring is left for Adopting after the backup of the attempt was read. -/
theorem read (h : Writes cfg view tr st w) (hp : st.phase = .transferring)
    (hw : w.phase = .adopting) : written tr = none ∧ ∃ t bkp, st.transfer = some t ∧
      sawEvent .zfsBackup (bkpKey cfg view.name t.attempt) (some bkp) ∈ tr ∧
      backupStatus (some bkp) = bkpStatusDone := by
  cases h with
  | copied t _ bkp _ _ hwrote ht hbkp _ hdone _ =>
    obtain ⟨b, rfl⟩ := System.some_of_done hdone
    exact ⟨hwrote, t, b, ht, hbkp, hdone⟩
  | shown _ _ _ | settles _ _ | blocked _ _ | attempted _ _ _ _ _ _ _ _ _ _ _
  | attemptFailing _ _ _ | progressed _ _ _ _ | snapDeleteIssued _ _ _ =>
    have hcon : st.phase = .adopting := hw
    rw [hp] at hcon
    cases hcon
  | _ => cases hw

/-- The attempt on record is an old one, or is recorded now. -/
theorem nextAttempt (h : Writes cfg view tr st w) {k : Nat}
    (hw : w.transfer.map (·.attempt) = some k) :
    st.transfer.map (·.attempt) = some k ∨ st.phase = .transferring ∧ NextAttempt view st k := by
  cases h with
  | attempted attempt _ _ _ _ hp _ _ _ turn _ =>
    obtain rfl : attempt = k := Option.some.inj hw
    exact .inr ⟨hp, turn⟩
  | copied t _ _ _ _ _ ht _ _ _ _ | progressed t _ _ ht =>
    rw [ht]
    exact .inl hw
  | attemptFailing _ _ _ | exhausted _ _ _ | snapDeleteIssued _ _ _ =>
    rw [Option.map_map] at hw
    exact .inl hw
  | _ => exact .inl hw

/-- The commit is made in Committing after a look at the pods. -/
theorem commits (h : Writes cfg view tr st w) (hst : st.committed = false)
    (hw : w.committed = true) : st.phase = .committing ∧ w.source = st.source ∧
      ∃ r pods, w.pvcRef = some r ∧ LookedIdle cfg view tr st r pods := by
  cases h with
  | committed _ _ r _ _ hp hwrote _ _ hr _ _ _ pods seen idle repels =>
    exact ⟨hp, rfl, r, pods, hr, hwrote, hr, seen, idle, repels⟩
  | _ => exact absurd (hst.symm.trans hw) (by decide)

end Writes

namespace System
variable {cfg : Config} {s s' t u : System} {a : SysAction} {n : String}
  {as bs : List SysAction} {ref : PvcRef} {source : SourceInfo}

/-- No pod that references the claim is bound. -/
def NoneBound (s : System) (ref : PvcRef) : Prop :=
  ∀ key pod, s.world.get .pod key = some pod → boundConsumer ref pod = false

/-- The evacuation is between the lock and the commit, and moves the volume of this claim. -/
structure Watched (s : System) (n : String) (ref : PvcRef) (source : SourceInfo) : Prop where
  stored : ∃ e, s.world.get .evacuation ⟨"", n⟩ = some e ∧ (viewStatus e).phase.watched = true ∧
    (viewStatus e).pvcRef = some ref ∧ (viewStatus e).source = some source

/-- The pod that somebody else stores in this step. -/
def podStored : SysAction → Option (Obj .pod)
  | .env (.create .pod o) => some o
  | .env (.update .pod o) => some o
  | _ => none

/-- Until the commit, a pod that references the claim is only bound while the source node
accepts pods: the attach lock admits no pods but those that the scheduler places, and the
volume is reached from the source alone. -/
def BindsWhenOpen (cfg : Config) (s : System) (a : SysAction) : Prop :=
  ∀ o, podStored a = some o → ∀ e ∈ s.world.list .evacuation {},
    (viewStatus e).phase.watched = true → ∀ ref, (viewStatus e).pvcRef = some ref →
    ∀ source, (viewStatus e).source = some source → boundConsumer ref o = true →
    (∀ cur, s.world.get .pod o.key = some cur → boundConsumer ref cur = false) →
      ¬ Repels cfg s.world source.node

/-- The steps of the runs in which reconciles start from what is stored, attempts start with
unused names, and consumers are only bound on a source that accepts pods. -/
structure PodsPlaced (cfg : Config) (s : System) (a : SysAction) : Prop where
  current : Current s a
  unused : AttemptUnused cfg s a
  binds : BindsWhenOpen cfg s a

/-! ## Pods and nodes -/

/-- While the source node repels pods, no consumer is bound. -/
theorem noneBound_step (hc : Contracted cfg s) (hg : BindsWhenOpen cfg s a)
    (hw : Watched s n ref source) (hrepels : Repels cfg s.world source.node) (hx : NoneBound s ref)
    (h : step cfg s a = some s') : NoneBound s' ref := by
  obtain ⟨e, he, hphase, href, hs⟩ := hw.stored
  have hmem : e ∈ s.world.list .evacuation {} := by
    rw [World.mem_list, World.get_key he]
    exact he
  intro key pod hpod
  cases obj_step hc h hpod with
  | same _ hstored => exact hx key pod hstored
  | env x o hedit _ heq _ =>
    subst heq
    cases hedit with
    | create o hnone =>
      cases hbound : boundConsumer ref o with
      | false => exact hbound
      | true =>
        refine absurd hrepels (hg o rfl e hmem hphase ref href source hs hbound fun cur hcur => ?_)
        rw [hnone] at hcur
        cases hcur
    | update o cur hcur =>
      cases hbound : boundConsumer ref o with
      | false => exact hbound
      | true =>
        refine absurd hrepels (hg o rfl e hmem hphase ref href source hs hbound fun old hold => ?_)
        exact hx _ old hold
    | delete key o hget _ => exact hx key o hget
  | call m o r c next x _ _ hallowed hwritten _ heq _ =>
    subst heq
    cases hwritten with
    | create o _ =>
      obtain ⟨_, -, hfalse⟩ := hallowed
      exact hfalse.elim
    | replace o cur _ _ =>
      obtain ⟨_, -, hfalse⟩ := hallowed
      exact hfalse.elim
    | delete key o hget _ => exact hx key o hget
    | patch key p o _ =>
      obtain ⟨_, -, hfalse⟩ := hallowed
      cases p <;> exact hfalse.elim

/-- A consumer is only bound after the source node has accepted pods. -/
theorem noneBound_since (hc : Contracted cfg s) (hx : NoneBound s ref)
    (h : Run (step cfg) (PodsPlaced cfg) s bs t)
    (hw : ∀ cs u, Passes (step cfg) (PodsPlaced cfg) s bs t cs u → Watched u n ref source) :
    NoneBound t ref ∨ Happened (step cfg) s (fun u _ => ¬ Repels cfg u.world source.node) bs := by
  induction h with
  | start => exact .inl hx
  | @snoc bs a t t' prior hg hs ih =>
    have hnow := hw bs t ⟨prior, [a], rfl, Run.start.snoc hg hs⟩
    have hbefore : ∀ cs u, Passes (step cfg) (PodsPlaced cfg) s bs t cs u →
        Watched u n ref source := by
      rintro cs u ⟨hcs, ds, rfl, hds⟩
      exact hw cs u ⟨hcs, ds ++ [a], List.append_assoc .., hds.snoc hg hs⟩
    rcases ih hbefore with hnone | hopen
    · by_cases hrepels : Repels cfg t.world source.node
      · exact .inl (noneBound_step (contracted_later hc prior) hg.binds hnow hrepels hnone hs)
      · exact .inr (.now prior.runList_eq hrepels)
    · exact .inr (hopen.append [a])

/-! ## Identities -/

/-- A stored object was there before the step under the same identity, or got a new one. The
parameters are left out, which are replaced as a whole. -/
theorem uid_step (hc : Contracted cfg s) (h : step cfg s a = some s') {k : Kind} {key : Key}
    {o : Obj k} (hk : k ≠ .params) (ho : s'.world.get k key = some o) :
    (∃ old, s.world.get k key = some old ∧ old.metadata.uid = o.metadata.uid) ∨
      o.metadata.uid = s.world.revision := by
  cases obj_step hc h ho with
  | same _ hstored => exact .inl ⟨o, hstored, rfl⟩
  | env e x hedit hkey heq _ =>
    subst heq
    cases hedit with
    | create x _ => exact .inr rfl
    | update x cur hcur =>
      have hname : x.key = key := hkey
      exact .inl ⟨cur, hname ▸ hcur, rfl⟩
    | delete key' x hget _ =>
      have hname : key' = key := (World.get_key hget).symm.trans hkey
      exact .inl ⟨x, hname ▸ hget, rfl⟩
  | call m out r c next x _ _ hallowed hwritten hkey heq _ =>
    subst heq
    cases hwritten with
    | create x _ => exact .inr rfl
    | replace x cur _ _ =>
      cases k with
      | params => exact absurd rfl hk
      | _ =>
        obtain ⟨_, -, hfalse⟩ := hallowed
        exact hfalse.elim
    | delete key' x hget _ =>
      have hname : key' = key := (World.get_key hget).symm.trans hkey
      exact .inl ⟨x, hname ▸ hget, rfl⟩
    | patch key' p x hget =>
      have hname : key' = key :=
        (World.get_key hget).symm.trans ((Patch.key_apply p x).symm.trans hkey)
      exact .inl ⟨x, hname ▸ hget, (Patch.uid_apply p x).symm⟩

theorem revision_mono {guard : System → SysAction → Prop} (h : Run (step cfg) guard s bs t) :
    s.world.revision ≤ t.world.revision := by
  induction h with
  | start => exact Nat.le_refl _
  | snoc _ _ hs ih => exact Nat.le_trans ih (world_succeeds hs).revision

/-- An object whose identity is an old one was stored all the time. -/
theorem stored_before {guard : System → SysAction → Prop} (hc : Contracted cfg s)
    (h : Run (step cfg) guard s bs t) {k : Kind} {key : Key} {o : Obj k} (hk : k ≠ .params)
    (ho : t.world.get k key = some o) (hold : o.metadata.uid < s.world.revision) :
    ∃ old, s.world.get k key = some old ∧ old.metadata.uid = o.metadata.uid := by
  induction h generalizing o with
  | start => exact ⟨o, ho, rfl⟩
  | snoc prior _ hs ih =>
    rcases uid_step (contracted_later hc prior) hs hk ho with ⟨old, hget, huid⟩ | hnew
    · obtain ⟨first, hfirst, hsame⟩ := ih hget (huid ▸ hold)
      exact ⟨first, hfirst, hsame.trans huid⟩
    · rw [hnew] at hold
      exact absurd (revision_mono prior) (Nat.not_le_of_lt hold)

/-! ## What a reconcile has asked, and what it has written -/

/-- The reconcile makes this call now, and is answered so. -/
def Asks (n : String) (x : Running) (e : Event kubeInterface) (s : System) (a : SysAction) : Prop :=
  ∃ o r c, ∃ next : c.Resp → M Action, a = .call n o ∧ s.running.get n = some r ∧
    r.view = x.view ∧ r.trace <:+ x.trace ∧ r.prog = .call c next ∧ e = ⟨c, s.world.answer o c⟩

theorem Asks.later {x x' : Running} {e : Event kubeInterface} (h : Asks n x e s a)
    (hview : x'.view = x.view) (htrace : x.trace <:+ x'.trace) : Asks n x' e s a := by
  obtain ⟨o, r, c, next, ha, hr, hsame, hsuffix, hprog, he⟩ := h
  exact ⟨o, r, c, next, ha, hr, hsame.trans hview.symm, hsuffix.trans htrace, hprog, he⟩

/-- Whatever is in the trace of a reconcile was asked at some point. -/
def AllAsked (cfg : Config) (as : List SysAction) (s : System) : Prop :=
  ∀ n r e, s.running.get n = some r → e ∈ r.trace → Happened (step cfg) init (Asks n r e) as

theorem asked_run {guard : System → SysAction → Prop} (h : Run (step cfg) guard init as s) :
    AllAsked cfg as s := by
  have hinit : AllAsked cfg [] init := by
    intro n r e hr
    cases hr
  refine h.invariant_past hinit ?_
  intro as s a s' prior hx _ hs n r' e hr' he
  cases running_step hs hr' with
  | kept _ hr _ => exact (hx n r' e hr he).append [a]
  | started version _ _ _ heq =>
    rw [heq] at he
    cases he
  | called o r c next hr hprog _ heq =>
    subst heq
    have hsuffix : r.trace <:+ ⟨c, s.world.answer o c⟩ :: r.trace := List.suffix_cons ..
    rcases List.mem_cons.mp he with hnow | hbefore
    · exact .now prior.runList_eq ⟨o, r, c, next, rfl, hr, rfl, hsuffix, hprog, hnow⟩
    · have hasked := (hx n r e hr hbefore).append [.call n o]
      exact hasked.mono fun _ _ hasks => hasks.later rfl hsuffix

/-- A reconcile of this evacuation writes this status now. -/
structure StoresStatus (cfg : Config) (n : String) (uid : Uid) (r : Running)
    (w : ZFSEvacuationStatus) (s : System) (a : SysAction) : Prop where
  call : ∃ o, ∃ next : Except ApiError Unit → M Action, a = .call n o ∧
    r.prog = .call (.patch .evacuation (evacKey r.view) (.status w)) next
  running : s.running.get n = some r
  knows : Knows r.view r.trace r.status
  writes : Writes cfg r.view r.trace r.status w
  stored : ∃ e, s.world.get .evacuation ⟨"", n⟩ = some e ∧ e.metadata.uid = uid ∧
    (viewStatus e).core = r.status.core

/-- If only such a write leads to statuses of a kind, a stored status of the kind has seen one. -/
theorem stores_run (kind : ZFSEvacuationStatus → Prop)
    (turn : Running → ZFSEvacuationStatus → Prop)
    (hcore : ∀ st st', st.core = st'.core → kind st → kind st') (hblank : ¬ kind {})
    (hturn : ∀ r w, Writes cfg r.view r.trace r.status w → kind w → kind r.status ∨ turn r w)
    (h : Run (step cfg) (PodsPlaced cfg) init as s) {e : Obj .evacuation}
    (he : s.world.get .evacuation ⟨"", n⟩ = some e) (hkind : kind (viewStatus e)) :
    Happened (step cfg) init (fun s a => ∃ r w, StoresStatus cfg n e.metadata.uid r w s a ∧
      turn r w) as := by
  have hstatus : ∀ s a, PodsPlaced cfg s a → StatusCurrent s a :=
    fun s a hg => ⟨hg.current.1.statuses, hg.current.2⟩
  induction h generalizing e with
  | start => cases he
  | @snoc as a s s' prior hg hs ih =>
    have hsound := statusSound_run (prior.mono hstatus)
    rcases status_after core_mergeStatus hsound.contracted hsound.aware (hstatus _ _ hg) hs he with
      ⟨old, hold, huid, hsame | ⟨st, w, hwrite⟩⟩ | ⟨-, hfresh, -, -⟩
    · rw [huid]
      exact (ih hold (hsame ▸ hkind)).append [a]
    · obtain ⟨r, o, next, rfl, hr, hprog, hk, hw⟩ := hwrite.caller
      obtain rfl : r.status = st := hk.eq
      rw [huid]
      rcases hturn r w hw (hcore _ _ hwrite.new hkind) with hbefore | hnow
      · exact (ih hold (hcore _ _ hwrite.old.symm hbefore)).append [.call n o]
      · exact .now prior.runList_eq
          ⟨r, w, ⟨⟨o, next, rfl, hprog⟩, hr, hk, hw, old, hold, rfl, hwrite.old⟩, hnow⟩
    · exact absurd (hfresh ▸ hkind) hblank

/-! ## The looks at the pods and at the source node -/

/-- A reconcile of this evacuation, which has not written anything yet, is at work in this phase. -/
structure Visit (cfg : Config) (as : List SysAction) (n : String) (uid : Uid) (phase : Phase)
    (ref : PvcRef) (x : Running) : Prop where
  runs : ∃ bs cs t, as = bs ++ cs ∧ runList (step cfg) init bs = some t ∧
    t.running.get n = some x
  same : x.view.metadata.uid = uid
  wrote : written x.trace = none
  phase : x.status.phase = phase
  claim : x.status.pvcRef = some ref

/-- The reconcile lists the pods of the claim. -/
def ListsPods (n : String) (ref : PvcRef) (x : Running) (s : System) (a : SysAction) : Prop :=
  ∃ pods, Asks n x (listedEvent .pod { ns := some ref.ns } pods) s a

/-- The reconcile reads the source node, which repels pods. -/
def SeesRepelling (cfg : Config) (n : String) (source : SourceInfo) (x : Running) (s : System)
    (a : SysAction) : Prop :=
  (∃ node, Asks n x (sawEvent .node ⟨"", source.node⟩ node) s a) ∧ Repels cfg s.world source.node

/-- A visit has listed the pods at this moment, when none was bound, and under `whenClaimed`
it has seen the source repel pods. -/
structure Look (cfg : Config) (as : List SysAction) (n : String) (uid : Uid) (phase : Phase)
    (ref : PvcRef) (source : SourceInfo) (x : Running) (as₀ : List SysAction) (s₀ : System) :
    Prop where
  visit : Visit cfg as n uid phase ref x
  lists : HappenedAt (step cfg) init (ListsPods n ref x) as as₀ s₀
  noneBound : NoneBound s₀ ref
  repels : (specOf x.view).mode = .whenClaimed →
    Happened (step cfg) init (SeesRepelling cfg n source x) as

theorem Look.append {uid : Uid} {phase : Phase} {x : Running} {as₀ : List SysAction} {s₀ : System}
    (h : Look cfg as n uid phase ref source x as₀ s₀) (bs : List SysAction) :
    Look cfg (as ++ bs) n uid phase ref source x as₀ s₀ where
  visit := by
    obtain ⟨⟨cs, ds, t, rfl, ht, hx⟩, hsame, hwrote, hphase, hclaim⟩ := h.visit
    exact ⟨⟨cs, ds ++ bs, t, List.append_assoc .., ht, hx⟩, hsame, hwrote, hphase, hclaim⟩
  lists := h.lists.append bs
  noneBound := h.noneBound
  repels hmode := (h.repels hmode).append bs

theorem status_of_suffix {r x : Running} (hview : r.view = x.view) (hsuffix : r.trace <:+ x.trace)
    (hwrote : written x.trace = none) : written r.trace = none ∧ r.status = x.status := by
  have hnone : written r.trace = none := by
    rw [written, List.findSome?_eq_none_iff] at hwrote ⊢
    exact fun e he => hwrote e (hsuffix.subset he)
  exact ⟨hnone, by rw [Running.status, Running.status, hwrote, hnone, hview]⟩

/-- If the listed pods do not stand in the way, none of them is bound. -/
theorem noneBound_of_idle {pods : List (Obj .pod)} {mode : EvacuationMode}
    (hlisted : s.world.list .pod { ns := some ref.ns } = pods)
    (hidle : unexpectedPods mode (pods.filter (podReferencesPvc ref.name)) = []) :
    NoneBound s ref := by
  intro key pod hpod
  by_contra hbound
  obtain ⟨huses, hscheduled⟩ := Bool.and_eq_true_iff.mp (Bool.not_eq_false _ ▸ hbound)
  obtain ⟨hns, hname⟩ := Bool.and_eq_true_iff.mp huses
  have hmem : pod ∈ pods.filter (podReferencesPvc ref.name) := by
    rw [← hlisted, World.list]
    refine List.mem_filter.mpr ⟨List.mem_filter.mpr ⟨(KeyedStore.get_eq_some_iff.mp hpod).1, ?_⟩,
      hname⟩
    simp [Selector.selects, of_decide_eq_true hns]
  cases mode with
  | whenIdle =>
    rw [unexpectedPods] at hidle
    rw [hidle] at hmem
    cases hmem
  | whenClaimed =>
    have hunexpected := List.mem_filter.mpr ⟨hmem, hscheduled⟩
    rw [unexpectedPods] at hidle
    rw [hidle] at hunexpected
    cases hunexpected

/-- A reconcile that has found nothing in the way did so at such a moment. -/
theorem looked_run {guard : System → SysAction → Prop} (h : Run (step cfg) guard init as s)
    {x : Running} {pods : List (Obj .pod)} (hx : s.running.get n = some x)
    (hlook : LookedIdle cfg x.view x.trace x.status ref pods)
    (hs : x.status.source = some source) : ∃ as₀ s₀,
      Look cfg as n x.view.metadata.uid x.status.phase ref source x as₀ s₀ := by
  have hlists : Happened (step cfg) init (fun t b => ListsPods n ref x t b ∧ NoneBound t ref) as := by
    refine (asked_run h n x _ hx hlook.listed).mono fun t b hasks => ?_
    have hanswer := hasks
    obtain ⟨o, r, c, next, -, -, -, -, -, heq⟩ := hanswer
    obtain rfl : Call.list .pod { ns := some ref.ns } = c := congrArg Sigma.fst heq
    exact ⟨⟨pods, hasks⟩, noneBound_of_idle (answer_list heq.symm) hlook.idle⟩
  obtain ⟨as₀, s₀, hat⟩ := hlists.exists_at
  refine ⟨as₀, s₀, ⟨⟨as, [], s, by simp, h.runList_eq, hx⟩, rfl, hlook.wrote, rfl, hlook.claim⟩,
    hat.mono fun _ _ hboth => hboth.1, ?_, fun hmode => ?_⟩
  · obtain ⟨-, -, -, -, hnone⟩ := hat.next
    exact hnone
  · obtain ⟨source', node, hs', hseen, hrepels⟩ := hlook.repels hmode
    obtain rfl : source = source' := Option.some.inj (hs.symm.trans hs')
    refine (asked_run h n x _ hx hseen).mono fun t b hasks => ?_
    have hanswer := hasks
    obtain ⟨o, r, c, next, -, -, -, -, -, heq⟩ := hanswer
    obtain rfl : Call.get .node ⟨"", source.node⟩ = c := congrArg Sigma.fst heq
    refine ⟨⟨node, hasks⟩, ?_⟩
    rw [Repels, answer_get heq.symm]
    exact hrepels

/-! ## The backup that is adopted -/

/-- A reconcile of this evacuation declares its transfer over, having read this backup done. -/
def Adopts (cfg : Config) (n : String) (uid : Uid) (bkp : Obj .zfsBackup) (s : System)
    (a : SysAction) : Prop :=
  ∃ r w t, StoresStatus cfg n uid r w s a ∧ r.status.phase = .transferring ∧
    w.phase = .adopting ∧ r.status.transfer = some t ∧
    sawEvent .zfsBackup (bkpKey cfg n t.attempt) (some bkp) ∈ r.trace ∧
    backupStatus (some bkp) = bkpStatusDone

theorem reached_congr {p : Phase} {st st' : ZFSEvacuationStatus} (h : st.core = st'.core)
    (hp : p.reached st.phase = true) : p.reached st'.phase = true := phase_congr h ▸ hp

/-- Whoever is behind the transfer has adopted a backup. -/
theorem adopts_run (h : Run (step cfg) (PodsPlaced cfg) init as s) {e : Obj .evacuation}
    (he : s.world.get .evacuation ⟨"", n⟩ = some e)
    (hphase : Phase.reached .adopting (viewStatus e).phase = true) :
    ∃ bkp, Happened (step cfg) init (Adopts cfg n e.metadata.uid bkp) as := by
  obtain ⟨bs, a, cs, t, heq, ht, r, w, hstores, hp, hw⟩ := stores_run
    (fun st => Phase.reached .adopting st.phase = true)
    (fun r w => r.status.phase = .transferring ∧ w.phase = .adopting)
    (fun _ _ hcore hst => reached_congr hcore hst) (by decide)
    (fun _ _ hwrites hst => hwrites.adopting hst) h he hphase
  obtain ⟨-, t', bkp, ht', hseen, hdone⟩ := hstores.writes.read hp hw
  rw [name_of_running hstores.running] at hseen
  exact ⟨bkp, bs, a, cs, t, heq, ht, r, w, t', hstores, hp, hw, ht', hseen, hdone⟩

theorem PodsPlaced.status (h : PodsPlaced cfg s a) : StatusCurrent s a :=
  ⟨h.current.1.statuses, h.current.2⟩

theorem windowBase_placed (h : Run (step cfg) (PodsPlaced cfg) init as s) : WindowBase cfg s :=
  windowBase_run (fun _ _ hg => hg.current) h

theorem statusSound_placed (h : Run (step cfg) (PodsPlaced cfg) init as s) : StatusSound cfg s :=
  statusSound_run (h.mono fun _ _ hg => hg.status)

/-- A reconcile that has written nothing yet works on the evacuation it has started from. -/
theorem stored_of_running (h : Run (step cfg) (PodsPlaced cfg) init as s) {r : Running}
    (hr : s.running.get n = some r) (hwrote : written r.trace = none)
    (hphase : r.status.phase.working = true) :
    ∃ e, s.world.get .evacuation ⟨"", n⟩ = some e ∧ e.metadata.uid = r.view.metadata.uid ∧
      (viewStatus e).core = r.status.core := by
  have hstatus : r.status = viewStatus r.view := by rw [Running.status, hwrote, Option.getD_none]
  have hb := windowBase_placed h
  obtain ⟨e, he, hcore⟩ := hb.stored_view hr hwrote (hstatus ▸ hphase)
  exact ⟨e, he, (hb.informed.synced n r e hr he).same.uid, hstatus ▸ hcore⟩

/-- When an attempt is recorded, no backup is stored under its name. -/
theorem unused_of_recorded (h : Run (step cfg) (PodsPlaced cfg) init as s)
    (hg : PodsPlaced cfg s a) {uid : Uid} {r : Running} {w : ZFSEvacuationStatus} {k : Nat}
    (hstores : StoresStatus cfg n uid r w s a) (hturn : NextAttempt r.view r.status k)
    (hw : w.transfer.map (·.attempt) = some k) :
    s.world.get .zfsBackup (bkpKey cfg n k) = none := by
  obtain ⟨⟨o, next, rfl, hprog⟩, hr, hk, -, -⟩ := hstores
  obtain ⟨t, ht, rfl⟩ := Option.map_eq_some_iff.mp hw
  refine (hg.unused _ (statusWritten_eq hr hprog) t ht ?_).1
  rintro ⟨m, st⟩ hq hname hattempt
  subst hname
  have hcore := (statusSound_placed h).aware.agree hr hk hq
  rw [transfer_congr hcore] at hattempt
  obtain ⟨t₀, ht₀, heq⟩ := Option.map_eq_some_iff.mp hattempt
  simp only [NextAttempt, ht₀] at hturn
  omega

/-- A backup that an evacuation adopts was created after every moment at which the same
evacuation was in Quiescing. -/
theorem adopted_after (h : Run (step cfg) (PodsPlaced cfg) init as s)
    (hpass : Passes (step cfg) (PodsPlaced cfg) init as s bs t) {e : Obj .evacuation}
    (he : t.world.get .evacuation ⟨"", n⟩ = some e) (hphase : (viewStatus e).phase = .quiescing)
    {bkp : Obj .zfsBackup}
    (hadopts : Happened (step cfg) init (Adopts cfg n e.metadata.uid bkp) as) :
    t.world.revision ≤ bkp.metadata.uid := by
  obtain ⟨as₁, b, s₁, hpass₁, -, r₁, w₁, x, hstores₁, hp₁, hw₁, hx, hseen, -⟩ := h.happened hadopts
  obtain ⟨hwrote, -⟩ := hstores₁.writes.read hp₁ hw₁
  obtain ⟨e₁, he₁, huid₁, -⟩ := hstores₁.stored
  have hview₁ := ((windowBase_placed hpass₁.prior).informed.synced n r₁ e₁ hstores₁.running he₁).same.uid
  -- the moment at which the backup was read
  obtain ⟨as₂, b₂, s₂, hpass₂, -, o, r₂, c, next, -, hr₂, hview₂, hsuffix, hprog, hasked⟩ :=
    hpass₁.prior.happened (asked_run hpass₁.prior n r₁ _ hstores₁.running hseen)
  obtain ⟨hwrote₂, hstatus₂⟩ := status_of_suffix hview₂ hsuffix hwrote
  obtain rfl : Call.get .zfsBackup (bkpKey cfg n x.attempt) = c := congrArg Sigma.fst hasked
  have hbkp := answer_get hasked.symm
  obtain ⟨e₂, he₂, huid₂, hcore₂⟩ := stored_of_running hpass₂.prior hr₂ hwrote₂
    (by rw [hstatus₂, hp₁]; rfl)
  rw [hview₂, ← hview₁, huid₁] at huid₂
  -- the moment at which its attempt was recorded
  have hrecord : (viewStatus e₂).transfer.map (·.attempt) = some x.attempt := by
    rw [transfer_congr hcore₂, hstatus₂, hx, Option.map_some]
  obtain ⟨as₃, b₃, s₃, hpass₃, hg₃, r₃, w₃, hstores₃, hturn, hp₃, hrecorded⟩ :=
    hpass₂.prior.happened (stores_run
      (fun st => st.transfer.map (·.attempt) = some x.attempt)
      (fun r w => NextAttempt r.view r.status x.attempt ∧ r.status.phase = .transferring ∧
        w.transfer.map (·.attempt) = some x.attempt)
      (fun _ _ hcore hst => transfer_congr hcore ▸ hst) (by simp)
      (fun r w hwrites hst => (hwrites.nextAttempt hst).imp id fun hturn => ⟨hturn.2, hturn.1, hst⟩)
      hpass₂.prior he₂ hrecord)
  obtain ⟨e₃, he₃, huid₃, hcore₃⟩ := hstores₃.stored
  have hnone := unused_of_recorded hpass₃.prior hg₃ hstores₃ hturn hrecorded
  by_contra hlt
  rcases hpass.ordered ((hpass₁.trans hpass₂).trans hpass₃) with ⟨ds, -, hlater⟩ | ⟨ds, -, hearlier⟩
  · have hold : bkp.metadata.uid < s₃.world.revision :=
      Nat.lt_of_lt_of_le (Nat.lt_of_not_le hlt) (revision_mono hlater)
    obtain ⟨es, -, hread⟩ := hpass₃.later
    obtain ⟨old, hget, -⟩ := stored_before (contracted_run hpass₃.prior) hread (by decide) hbkp hold
    rw [hnone] at hget
    cases hget
  · have hmoves := later_run (statusSound_placed hpass₃.prior)
      (hearlier.mono fun _ _ hg => hg.status) he₃ he (huid₂.symm.trans huid₃.symm)
    have hreached := reached_of_moves hmoves.phase (by rw [hphase]; rfl)
    rw [hphase, phase_congr hcore₃, hp₃] at hreached
    cases hreached

/-! ## The commit -/

/-- The evacuation is committed in this step. -/
structure Commits (s s' : System) (n : String) (e' : Obj .evacuation) : Prop where
  stored : s'.world.get .evacuation ⟨"", n⟩ = some e'
  committed : (viewStatus e').committed = true
  before : ∀ e, s.world.get .evacuation ⟨"", n⟩ = some e → (viewStatus e).committed = false

/-- The step makes a node schedulable that repels pods. -/
def MakesSchedulable (cfg : Config) (node : String) (s : System) (a : SysAction) : Prop :=
  Repels cfg s.world node ∧ ∃ s', step cfg s a = some s' ∧ ¬ Repels cfg s'.world node

/-- The look that the settle period was started by, before the pods were listed again at `as₀`.
Under `whenClaimed` it saw the source repel pods, and pods were only bound after the listing if
the source had been made schedulable since. -/
structure SettledLook (cfg : Config) (as : List SysAction) (n : String) (uid : Uid) (ref : PvcRef)
    (source : SourceInfo) (as₀ : List SysAction) (s₀ : System) (x : Running) : Prop where
  look : ∃ as₁ s₁, Look cfg as₀ n uid .quiescing ref source x as₁ s₁
  since : (specOf x.view).mode = .whenClaimed → ∃ bs u,
    HappenedAt (step cfg) init (SeesRepelling cfg n source x) as₀ bs u ∧
      ∀ es cs ds t, as₀ = bs ++ es → as = as₀ ++ cs ++ ds → runList (step cfg) s₀ cs = some t →
        NoneBound t ref ∨ Happened (step cfg) u (MakesSchedulable cfg source.node) (es ++ cs)

/-- The look in Quiescing that the copy was started after. -/
structure LookBefore (cfg : Config) (as : List SysAction) (n : String) (uid : Uid) (ref : PvcRef)
    (source : SourceInfo) (as₀ : List SysAction) (s₀ : System) : Prop where
  look : ∃ x, Look cfg as n uid .quiescing ref source x as₀ s₀
  settled : ∃ x, SettledLook cfg as n uid ref source as₀ s₀ x
  /-- The backup whose stream was adopted was created later. -/
  first : ∀ bkp, Happened (step cfg) init (Adopts cfg n uid bkp) as →
    s₀.world.revision ≤ bkp.metadata.uid
  /-- In either mode, pods were only bound after the source had accepted pods. -/
  since : ∀ bs cs t, as = as₀ ++ bs ++ cs → runList (step cfg) s₀ bs = some t →
    NoneBound t ref ∨ Happened (step cfg) s₀ (fun u _ => ¬ Repels cfg u.world source.node) bs

/-- What was looked at before a commit. -/
structure CopiedQuietly (cfg : Config) (as : List SysAction) (n : String) (uid : Uid)
    (ref : PvcRef) (source : SourceInfo) : Prop where
  look : ∃ as₀ s₀, LookBefore cfg as n uid ref source as₀ s₀
  adopted : ∃ bkp, Happened (step cfg) init (Adopts cfg n uid bkp) as
  again : ∃ x as₁ s₁, Look cfg as n uid .committing ref source x as₁ s₁

/-- Between a moment in Quiescing and one before the commit, the evacuation is watched. -/
theorem watched_between (h : Run (step cfg) (PodsPlaced cfg) init as s)
    (hlater : Run (step cfg) (PodsPlaced cfg) s bs t) {as' : List SysAction}
    (hend : Run (step cfg) (PodsPlaced cfg) t as' u) {e e' : Obj .evacuation}
    (he : s.world.get .evacuation ⟨"", n⟩ = some e)
    (he' : u.world.get .evacuation ⟨"", n⟩ = some e') (huid : e'.metadata.uid = e.metadata.uid)
    (hphase : (viewStatus e).phase = .quiescing) (hphase' : (viewStatus e').phase = .committing)
    (href : (viewStatus e).pvcRef = some ref) (hs : (viewStatus e).source = some source) :
    Watched t n ref source := by
  have hmiddle := h.append hlater
  have hold : e'.metadata.uid < t.world.revision :=
    huid ▸ Nat.lt_of_lt_of_le ((statusSound_placed h).older n e he) (revision_mono hlater)
  obtain ⟨x, hx, hsame⟩ := stored_before (contracted_run hmiddle) hend (by decide) he' hold
  have hfrom := later_run (statusSound_placed h) (hlater.mono fun _ _ hg => hg.status) he hx
    (hsame.trans huid)
  have hto := later_run (statusSound_placed hmiddle) (hend.mono fun _ _ hg => hg.status) hx he'
    hsame.symm
  have hbelow := reached_of_moves hto.phase (by rw [hphase']; rfl)
  have hrank : (viewStatus x).phase.rank.isSome = true := by
    rw [Phase.reached] at hbelow
    split at hbelow
    · rename_i i j hi hj
      rw [hi]
      rfl
    · cases hbelow
  have habove := reached_of_moves hfrom.phase hrank
  rw [hphase] at habove
  rw [hphase'] at hbelow
  exact ⟨x, hx, Bool.and_eq_true_iff.mpr ⟨habove, hbelow⟩, hfrom.pvcRef ref href,
    hfrom.source source hs⟩

theorem quiescedAt_congr {st st' : ZFSEvacuationStatus} (h : st.core = st'.core) :
    st.quiescedAt = st'.quiescedAt := by
  have hcore := congrArg ZFSEvacuationStatus.quiescedAt h
  exact hcore

/-- What a status of a running evacuation has on record stays on record. -/
theorem kept_of_stored (hpass : Passes (step cfg) (PodsPlaced cfg) init as s bs t)
    {e e' : Obj .evacuation} (he : t.world.get .evacuation ⟨"", n⟩ = some e)
    (he' : s.world.get .evacuation ⟨"", n⟩ = some e') (huid : e'.metadata.uid = e.metadata.uid) :
    Later (viewStatus e) (viewStatus e') := by
  obtain ⟨cs, -, hrest⟩ := hpass.later
  exact later_run (statusSound_placed hpass.prior) (hrest.mono fun _ _ hg => hg.status) he he' huid

/-- A visit that writes after a look has made the look for the claim and the source on record. -/
theorem look_of_stores {e : Obj .evacuation} (he : s.world.get .evacuation ⟨"", n⟩ = some e)
    (href : (viewStatus e).pvcRef = some ref)
    (hs : (viewStatus e).source = some source) {r : Running} {w : ZFSEvacuationStatus}
    (hpass : Passes (step cfg) (PodsPlaced cfg) init as s bs t)
    (hstores : StoresStatus cfg n e.metadata.uid r w t a) (hphase : r.status.phase = .quiescing)
    {ref' : PvcRef} {pods : List (Obj .pod)}
    (hlook : LookedIdle cfg r.view r.trace r.status ref' pods) : ∃ as₀ s₀,
      Look cfg bs n e.metadata.uid .quiescing ref source r as₀ s₀ := by
  obtain ⟨e₁, he₁, huid₁, hcore₁⟩ := hstores.stored
  have hkept := kept_of_stored hpass he₁ he huid₁.symm
  obtain rfl : ref' = ref := by
    have hsame := hkept.pvcRef ref' ((pvcRef_congr hcore₁).trans hlook.claim)
    exact Option.some.inj (hsame.symm.trans href)
  have hphase₁ : (viewStatus e₁).phase = .quiescing := (phase_congr hcore₁).trans hphase
  obtain ⟨source', hs', -⟩ :=
    ((statusSound_placed hpass.prior).tracked n e₁ he₁).source (by rw [hphase₁]; rfl)
  obtain rfl : source' = source := Option.some.inj ((hkept.source source' hs').symm.trans hs)
  have hsource := source_congr hcore₁
  have hview :=
    ((windowBase_placed hpass.prior).informed.synced n r e₁ hstores.running he₁).same.uid
  obtain ⟨as₀, s₀, hlooked⟩ :=
    looked_run hpass.prior hstores.running hlook (hsource.symm.trans hs')
  rw [hphase, ← hview, huid₁] at hlooked
  exact ⟨as₀, s₀, hlooked⟩

/-- The moment of a look, with the evacuation as it was stored then. -/
theorem stored_at_look (h : Run (step cfg) (PodsPlaced cfg) init as s) {uid : Uid} {phase : Phase}
    {x : Running} {as₀ : List SysAction} {s₀ : System}
    (hlook : Look cfg as n uid phase ref source x as₀ s₀) (hphase : phase.working = true) :
    ∃ e, s₀.world.get .evacuation ⟨"", n⟩ = some e ∧ e.metadata.uid = uid ∧
      (viewStatus e).core = x.status.core := by
  have hpass := h.passes_at hlook.lists
  obtain ⟨a₀, ds, -, pods, o, r, c, next, -, hr, hview, hsuffix, -, -⟩ := hlook.lists.next
  obtain ⟨hwrote, hstatus⟩ := status_of_suffix hview hsuffix hlook.visit.wrote
  obtain ⟨e, he, huid, hcore⟩ := stored_of_running hpass.prior hr hwrote
    (by rw [hstatus, hlook.visit.phase]; exact hphase)
  exact ⟨e, he, huid.trans (hview ▸ hlook.visit.same), hcore.trans (congrArg _ hstatus)⟩

/-- A node that repelled pods and accepts them later has been made schedulable since. -/
theorem opened_since {es cs : List SysAction} {node : String} (hrepels : Repels cfg u.world node)
    (hs : runList (step cfg) u es = some s)
    (hopen : Happened (step cfg) s (fun v _ => ¬ Repels cfg v.world node) cs) :
    Happened (step cfg) u (MakesSchedulable cfg node) (es ++ cs) := by
  obtain ⟨cs₁, b, cs₂, v, rfl, hv, hnot⟩ := hopen
  have hreach : runList (step cfg) u (es ++ cs₁) = some v := by
    rw [runList_append, hs]
    exact hv
  have hloses := runList_loses (p := fun v : System => Repels cfg v.world node) hreach hrepels hnot
  have hlater := hloses.append (b :: cs₂)
  rwa [List.append_assoc] at hlater

/-- Since a moment in Quiescing at which no pod was bound, pods were only bound after the source
had accepted pods. -/
theorem noneBound_since_look {as₀ : List SysAction} {s₀ : System}
    (hpass : Passes (step cfg) (PodsPlaced cfg) init as s as₀ s₀) {e₀ e : Obj .evacuation}
    (he₀ : s₀.world.get .evacuation ⟨"", n⟩ = some e₀)
    (he : s.world.get .evacuation ⟨"", n⟩ = some e) (huid : e.metadata.uid = e₀.metadata.uid)
    (hphase₀ : (viewStatus e₀).phase = .quiescing) (hphase : (viewStatus e).phase = .committing)
    (href : (viewStatus e₀).pvcRef = some ref) (hs : (viewStatus e₀).source = some source)
    (hnone : NoneBound s₀ ref) (bs cs : List SysAction) (t : System) (heq : as = as₀ ++ bs ++ cs)
    (ht : runList (step cfg) s₀ bs = some t) :
    NoneBound t ref ∨ Happened (step cfg) s₀ (fun u _ => ¬ Repels cfg u.world source.node) bs := by
  obtain ⟨tail, htail, hend⟩ := hpass.later
  have htail' : tail = bs ++ cs := by
    rw [htail, List.append_assoc] at heq
    exact List.append_cancel_left heq
  have hmiddle := hend.passes htail' ht
  refine noneBound_since (n := n) (contracted_run hpass.prior) hnone hmiddle.prior
    fun fs u hbetween => ?_
  obtain ⟨gs, -, hto⟩ := hbetween.later
  obtain ⟨hs', -, hfinal⟩ := hmiddle.later
  exact watched_between hpass.prior hbetween.prior (hto.append hfinal) he₀ he huid hphase₀ hphase
    href hs

/-- The settle period was started by a look, and until its end the source was watched. -/
theorem Look.settled {uid : Uid} {x : Running} {as₀ as₁ : List SysAction} {s₀ s₁ : System}
    (h : Look cfg as₀ n uid .quiescing ref source x as₁ s₁)
    (hstate : runList (step cfg) init as₀ = some s₀)
    (hsince : ∀ bs cs t, as = as₀ ++ bs ++ cs → runList (step cfg) s₀ bs = some t →
      NoneBound t ref ∨
        Happened (step cfg) s₀ (fun u _ => ¬ Repels cfg u.world source.node) bs) :
    SettledLook cfg as n uid ref source as₀ s₀ x := by
  refine ⟨⟨as₁, s₁, h⟩, fun hmode => ?_⟩
  obtain ⟨bs, u, hat⟩ := (h.repels hmode).exists_at
  refine ⟨bs, u, hat, fun es cs ds t hes hcs ht => (hsince cs ds t hcs ht).imp id fun hopen => ?_⟩
  obtain ⟨-, -, -, -, hrepels⟩ := hat.next
  have hend : runList (step cfg) u es = some s₀ := by
    rwa [hes, runList_append, hat.state] at hstate
  exact opened_since hrepels hend hopen

/-- An evacuation that is about to be committed has looked at the pods in Quiescing. -/
theorem look_before (h : Run (step cfg) (PodsPlaced cfg) init as s) {e : Obj .evacuation}
    (he : s.world.get .evacuation ⟨"", n⟩ = some e) (hphase : (viewStatus e).phase = .committing)
    (href : (viewStatus e).pvcRef = some ref) (hs : (viewStatus e).source = some source) :
    ∃ as₀ s₀, LookBefore cfg as n e.metadata.uid ref source as₀ s₀ := by
  -- the write that ended the settle period, and the look before it
  obtain ⟨as₁, a₁, s₁, hpass₁, -, r₁, w₁, hstores₁, hp₁, hw₁⟩ := h.happened (stores_run
    (fun st => Phase.reached .targetSelecting st.phase = true)
    (fun r w => r.status.phase = .quiescing ∧ w.phase = .targetSelecting)
    (fun _ _ hcore hst => reached_congr hcore hst) (by decide)
    (fun _ _ hwrites hst => hwrites.selecting hst) h he (by rw [hphase]; rfl))
  obtain ⟨hsettled, ref₁, pods, hidle₁⟩ := hstores₁.writes.quiet hp₁ hw₁
  obtain ⟨as₀, s₀, hlook⟩ := look_of_stores he href hs hpass₁ hstores₁ hp₁ hidle₁
  have hpass₀ := hpass₁.trans (hpass₁.prior.passes_at hlook.lists)
  obtain ⟨e₀, he₀, huid₀, hcore₀⟩ := stored_at_look hpass₁.prior hlook rfl
  have hphase₀ : (viewStatus e₀).phase = .quiescing := (phase_congr hcore₀).trans hp₁
  have hkept := kept_of_stored hpass₀ he₀ he huid₀.symm
  -- the write that started it, and the look before that one
  have hquiesced : (viewStatus e₀).quiescedAt.isSome = true := by rwa [quiescedAt_congr hcore₀]
  obtain ⟨as₂, a₂, s₂, hpass₂, -, r₂, w₂, hstores₂, hp₂, ref₂, pods₂, hidle₂⟩ :=
    hpass₀.prior.happened (stores_run (fun st => st.quiescedAt.isSome = true)
      (fun r _ => r.status.phase = .quiescing ∧ ∃ ref pods,
        LookedIdle cfg r.view r.trace r.status ref pods)
      (fun _ _ hcore hst => quiescedAt_congr hcore ▸ hst)
      (by decide) (fun _ _ hwrites hst => hwrites.settling hst) hpass₀.prior he₀ hquiesced)
  have hclaim₀ : (viewStatus e₀).pvcRef = some ref :=
    (pvcRef_congr hcore₀).trans hlook.visit.claim
  obtain ⟨source₀, hs₀, -⟩ :=
    ((statusSound_placed hpass₀.prior).tracked n e₀ he₀).source (by rw [hphase₀]; rfl)
  obtain rfl : source₀ = source := Option.some.inj ((hkept.source source₀ hs₀).symm.trans hs)
  obtain ⟨as₃, s₃, hfirst⟩ := look_of_stores he₀ hclaim₀ hs₀ hpass₂ hstores₂ hp₂ hidle₂
  obtain ⟨rest, hrest, -⟩ := hpass₁.later
  obtain ⟨rest₂, hrest₂, -⟩ := hpass₂.later
  have hsince := noneBound_since_look hpass₀ he₀ he huid₀.symm hphase₀ hphase hclaim₀ hs₀
    hlook.noneBound
  have hsettle := hfirst.append rest₂
  rw [← hrest₂, huid₀] at hsettle
  exact ⟨as₀, s₀, ⟨r₁, hrest ▸ hlook.append rest⟩,
    ⟨r₂, hsettle.settled hlook.lists.state hsince⟩,
    fun bkp hadopts => adopted_after h hpass₀ he₀ hphase₀ (huid₀.symm ▸ hadopts), hsince⟩

/-- In every run in which attempts start with unused names, and a pod that references a claim on
the way to its commit is only bound while the source node accepts pods: an evacuation is only
committed after looks in Quiescing, before its backup was created, and in Committing, at which no
pod was bound and under `whenClaimed` the source repelled pods; and under `whenClaimed` a pod has
only been bound since if the source has been made schedulable since. -/
theorem copied_quietly (cfg : Config) (as : List SysAction) (s s' : System) (a : SysAction)
    (n : String) (e' : Obj .evacuation) (h : Run (step cfg) (PodsPlaced cfg) init as s)
    (hg : PodsPlaced cfg s a) (hs : step cfg s a = some s') (hc : Commits s s' n e') :
    ∃ ref source, (viewStatus e').pvcRef = some ref ∧ (viewStatus e').source = some source ∧
      CopiedQuietly cfg as n e'.metadata.uid ref source := by
  have hsound := statusSound_placed h
  rcases status_after core_mergeStatus hsound.contracted hsound.aware hg.status hs hc.stored with
    ⟨e, he, huid, hsame | ⟨st, w, hwrite⟩⟩ | ⟨-, hfresh, -, -⟩
  · have hbefore := hc.before e he
    rw [← hsame, hc.committed] at hbefore
    cases hbefore
  · obtain ⟨r, o, next, rfl, hr, hprog, hk, hw⟩ := hwrite.caller
    obtain rfl : r.status = st := hk.eq
    have hold := congrArg ZFSEvacuationStatus.committed hwrite.old
    have hnew := congrArg ZFSEvacuationStatus.committed hwrite.new
    obtain ⟨hphase, hsame, ref, pods, href', hidle⟩ :=
      hw.commits (hold.symm.trans (hc.before e he)) (hnew.symm.trans hc.committed)
    have hphase' : (viewStatus e).phase = .committing := (phase_congr hwrite.old).trans hphase
    have href : (viewStatus e).pvcRef = some ref := (pvcRef_congr hwrite.old).trans hidle.claim
    obtain ⟨source, hplace, -⟩ := (hsound.tracked n e he).source (by rw [hphase']; rfl)
    have hsource := source_congr hwrite.old
    obtain ⟨as₀, s₀, hlook⟩ := look_before h he hphase' href hplace
    obtain ⟨as₁, s₁, hagain⟩ := looked_run h hr hidle (hsource.symm.trans hplace)
    have hview := ((windowBase_placed h).informed.synced n r e hr he).same.uid
    rw [hphase, ← hview] at hagain
    refine ⟨ref, source, (pvcRef_congr hwrite.new).trans href', ?_, huid ▸ ⟨⟨as₀, s₀, hlook⟩,
      adopts_run h he (by rw [hphase']; rfl), r, as₁, s₁, hagain⟩⟩
    exact (source_congr hwrite.new).trans (hsame.trans (hsource.symm.trans hplace))
  · have hblank := hc.committed
    rw [hfresh] at hblank
    cases hblank

/-! ### A consumer that comes and goes -/

/-- No pod is bound from the creation of the adopted backup on. -/
def NeverBound (cfg : Config) (as : List SysAction) (n : String) (uid : Uid) (ref : PvcRef) :
    Prop :=
  ∀ bkp, Happened (step cfg) init (Adopts cfg n uid bkp) as →
    ∀ bs cs t, as = bs ++ cs → runList (step cfg) init bs = some t →
      bkp.metadata.uid < t.world.revision → NoneBound t ref

instance : Decidable (BindsWhenOpen cfg s a) :=
  inferInstanceAs (Decidable (∀ o, _ = some o → ∀ e ∈ _, _ → ∀ ref, _ = some ref →
    ∀ source, _ = some source → _ → (∀ cur, _ = some cur → _) → ¬ _))

instance : Decidable (PodsPlaced cfg s a) :=
  decidable_of_iff (Current s a ∧ AttemptUnused cfg s a ∧ BindsWhenOpen cfg s a)
    ⟨fun h => ⟨h.1, h.2.1, h.2.2⟩, fun h => ⟨h.current, h.unused, h.binds⟩⟩

/-- The source node of the small cluster is cordoned, or uncordoned. -/
def cordon (on : Bool) : SysAction :=
  .env (.update .node ⟨{ name := "n1" },
    ({ unschedulable := some on, conditions := [⟨"Ready", "True"⟩]
       addresses := [⟨"InternalIP", "10.0.0.1"⟩] } : Node)⟩)

/-- A pod with the claim, bound to a node or not. -/
def claimUser (nodeName : Option String) : Obj .pod :=
  ⟨{ ns := "d", name := "web" },
    ({ nodeName, volumes := [{ name := "data", persistentVolumeClaim := some "c1" }] } : Pod)⟩

/-- The source is uncordoned, and a consumer is bound to it. -/
def landed : List SysAction :=
  [cordon false, .env (.create .pod (claimUser none)), .env (.update .pod (claimUser (some "n1")))]

/-- The consumer is deleted, and the source is cordoned again. -/
def leftAgain : List SysAction := [.env (.delete .pod ⟨"d", "web"⟩), cordon true]

/-- A volume that is moved under `whenClaimed`, up to its copy. -/
def claimedCopy : List SysAction :=
  Sample.setup.dropLast ++
    [cordon true, .env (.create .evacuation (Sample.evacuation "pv1" .whenClaimed))] ++
    Sample.reconcileOf "pv1" 0 7 ++ Sample.reconcileOf "pv1" 2 5 ++ Sample.reconcileOf "pv1" 3 4 ++
    Sample.reconcileOf "pv1" 4 7 ++ [Sample.seconds 100] ++ Sample.reconcileOf "pv1" 5 8 ++
    [Sample.seconds 100] ++ Sample.reconcileOf "pv1" 6 7 ++ Sample.reconcileOf "pv1" 7 12 ++
    Sample.reconcileOf "pv1" 8 11 ++ [.env (.relay "pv1" ⟨1, 2, 0, 0, false, true⟩)] ++
    Sample.reconcileOf "pv1" 9 8

/-- The copy is made and adopted, up to the write of the commit. -/
def copyToCommit : List SysAction :=
  [ Sample.restoreReport "pv1-evacr-a1" Sample.newHandle "n2" bkpStatusDone,
    Sample.backupReport "pv1-evac-a1" "vol1" "n1" "zevac-a1-0000" bkpStatusDone ] ++
    Sample.reconcileOf "pv1" 9 8 ++ Sample.reconcileOf "pv1" 10 5 ++
    [Sample.volumeReport Sample.newHandle "n2" zfsStatusReady] ++
    Sample.reconcileOf "pv1" 10 4 ++ Sample.reconcileOf "pv1" 11 6

/-- The evacuation pv1 of the claim c1 is committed. -/
def commitsNow (s s' : System) : Bool :=
  (s.world.get .evacuation ⟨"", "pv1"⟩).any fun e =>
    (s'.world.get .evacuation ⟨"", "pv1"⟩).any fun e' =>
      !(viewStatus e).committed && (viewStatus e).phase = .committing &&
        e'.metadata.uid = e.metadata.uid && (viewStatus e').committed &&
        (viewStatus e').pvcRef.any fun ref => ref.ns = "d" && ref.name = "c1"

theorem commits_of_commitsNow (h : commitsNow s s' = true) : ∃ e e' ref,
    s.world.get .evacuation ⟨"", "pv1"⟩ = some e ∧ (viewStatus e).phase = .committing ∧
    e'.metadata.uid = e.metadata.uid ∧ Commits s s' "pv1" e' ∧ (viewStatus e').pvcRef = some ref ∧
    ref.ns = "d" ∧ ref.name = "c1" := by
  obtain ⟨e, he, h⟩ := (Option.any_eq_true ..).mp h
  obtain ⟨e', he', h⟩ := (Option.any_eq_true ..).mp h
  simp only [Bool.and_eq_true, Bool.not_eq_true', decide_eq_true_eq, Option.any_eq_true] at h
  obtain ⟨⟨⟨⟨hbefore, hphase⟩, huid⟩, hcommitted⟩, ref, href, hns, hname⟩ := h
  refine ⟨e, e', ref, he, hphase, huid, ⟨he', hcommitted, fun x hx => ?_⟩, href, hns, hname⟩
  obtain rfl := Option.some.inj (he.symm.trans hx)
  exact hbefore

theorem not_copied_quietly : ¬ ∀ (cfg : Config) (as : List SysAction) (s s' : System)
    (a : SysAction) (n : String) (e' : Obj .evacuation) (ref : PvcRef),
    Run (step cfg) (PodsPlaced cfg) init as s → PodsPlaced cfg s a → step cfg s a = some s' →
    Commits s s' n e' → (viewStatus e').pvcRef = some ref →
      NeverBound cfg as n e'.metadata.uid ref := by
  intro hall
  obtain ⟨s, hrun, hs⟩ := Run.exists_of_runList
    (p := fun s : System => decide (PodsPlaced Sample.config s (.call "pv1" {})) &&
      (step Sample.config s (.call "pv1" {})).any (commitsNow s))
    (show (runList (guarded (step Sample.config) (PodsPlaced Sample.config)) init
      (claimedCopy ++ landed ++ leftAgain ++ copyToCommit)).any _ = true by decide +kernel)
  obtain ⟨hguard, hnext⟩ := Bool.and_eq_true_iff.mp hs
  obtain ⟨s', hstep, hcommits⟩ := (Option.any_eq_true ..).mp hnext
  obtain ⟨e, e', ref, he, hphase, huid, hcommit, href, hns, hname⟩ := commits_of_commitsNow hcommits
  obtain ⟨bkp, hadopts⟩ := adopts_run hrun he (by rw [hphase]; rfl)
  -- every backup that is read in this run is older than the consumer
  obtain ⟨t, hmem, _, r, _, x, hstores, -, -, -, hseen, -⟩ := hadopts.visited
  have hold : ∀ t ∈ visited (step Sample.config) init (claimedCopy ++ landed ++ leftAgain ++
      copyToCommit), ∀ r, t.running.get "pv1" = some r →
        ∀ bkp ∈ seenBackups r.trace, bkp.metadata.uid < 24 := by
    decide +kernel
  have hlt := hold t hmem r hstores.running bkp (mem_seenBackups hseen)
  obtain ⟨u, hmid, hbound⟩ := Run.exists_of_runList
    (p := fun u : System => decide (24 ≤ u.world.revision) &&
      (u.world.get .pod ⟨"d", "web"⟩).any (boundConsumer ⟨"d", "c1", 0⟩))
    (show (runList (guarded (step Sample.config) (PodsPlaced Sample.config)) init
      (claimedCopy ++ landed)).any _ = true by decide +kernel)
  obtain ⟨hrevision, hpod⟩ := Bool.and_eq_true_iff.mp hbound
  obtain ⟨pod, hget, hconsumes⟩ := (Option.any_eq_true ..).mp hpod
  have hnone := hall _ _ s s' (.call "pv1" {}) "pv1" e' ref hrun (of_decide_eq_true hguard) hstep
    hcommit href bkp (huid ▸ hadopts) (claimedCopy ++ landed) (leftAgain ++ copyToCommit) u
    (List.append_assoc ..) hmid.runList_eq (Nat.lt_of_lt_of_le hlt (of_decide_eq_true hrevision))
    _ pod hget
  rw [boundConsumer, hns, hname] at hnone
  exact absurd (hconsumes.symm.trans hnone) (by decide)

/-- A small cluster whose source stays cordoned, with an evacuation under `whenClaimed`. -/
theorem copied_quietly_small : ∃ (as : List SysAction) (s s' : System) (a : SysAction)
    (e' : Obj .evacuation) (ref : PvcRef) (source : SourceInfo),
    Run (step Sample.config) (PodsPlaced Sample.config) init as s ∧
    PodsPlaced Sample.config s a ∧ step Sample.config s a = some s' ∧ Commits s s' "pv1" e' ∧
    (∀ v ∈ s'.world.versions, (specOf v).mode = .whenClaimed) ∧
    CopiedQuietly Sample.config as "pv1" e'.metadata.uid ref source := by
  obtain ⟨s, hrun, hs⟩ := Run.exists_of_runList
    (p := fun s : System => decide (PodsPlaced Sample.config s (.call "pv1" {})) &&
      (step Sample.config s (.call "pv1" {})).any fun s' => commitsNow s s' &&
        decide (∀ v ∈ s'.world.versions, (specOf v).mode = .whenClaimed))
    (show (runList (guarded (step Sample.config) (PodsPlaced Sample.config)) init
      (claimedCopy ++ copyToCommit)).any _ = true by decide +kernel)
  obtain ⟨hguard, hnext⟩ := Bool.and_eq_true_iff.mp hs
  obtain ⟨s', hstep, hboth⟩ := (Option.any_eq_true ..).mp hnext
  obtain ⟨hcommits, hmode⟩ := Bool.and_eq_true_iff.mp hboth
  obtain ⟨_, e', _, -, -, -, hcommit, -, -, -⟩ := commits_of_commitsNow hcommits
  have hplaced : PodsPlaced Sample.config s (.call "pv1" {}) := of_decide_eq_true hguard
  obtain ⟨ref, source, -, -, hquiet⟩ :=
    copied_quietly _ _ s s' _ "pv1" e' hrun hplaced hstep hcommit
  exact ⟨_, s, s', _, e', ref, source, hrun, hplaced, hstep, hcommit, of_decide_eq_true hmode, hquiet⟩

end System

end ZfsEvacuation
