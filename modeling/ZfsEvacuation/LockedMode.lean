import ZfsEvacuation.AttachLockHolding

/-!
# The mode an evacuation locked with

The mode chooses the list at the lock, and is read again from the spec in every later check.
As long as nobody edits it, the two agree, and an evacuation under the weak lock copies only
while its source node repels pods.
-/
namespace ZfsEvacuation
open ClientProgram Program GuardedRun

/-- The phases that ask for the mode. -/
def Phase.asksMode : Phase → Bool
  | .quiescing | .targetSelecting | .committing | .swapping => true
  | _ => false

theorem Phase.held_of_asksMode {p : Phase} (h : p.asksMode = true) : p.held = true := by
  cases p with
  | quiescing | targetSelecting | committing | swapping => rfl
  | _ => cases h

theorem EvacuationParamsSpec.LockedAs.unique {p : EvacuationParamsSpec} {k : String}
    {m m' : EvacuationMode} (h : p.LockedAs k m) (h' : p.LockedAs k m') : m = m' := by
  cases m <;> cases m'
  · rfl
  · exact absurd h.1 h'.2
  · exact absurd h.1 h'.2
  · rfl

/-- The phases from the last check of the source node to the end of the copy. -/
def Phase.copies (p : Phase) : Prop := p = .targetSelecting ∨ p = .transferring

theorem Writes.copies {cfg : Config} {view : Obj .evacuation} {tr : Trace}
    {st w : ZFSEvacuationStatus} (h : Writes cfg view tr st w) (hw : w.phase.copies) :
    w.source = st.source ∧ (st.phase.copies ∨ st.phase = .quiescing ∧ written tr = none ∧
      ((specOf view).mode = .whenClaimed → SourceRepels cfg tr st)) := by
  cases h with
  | quiesced r pods hp hwrote hr seen idle repels => exact ⟨rfl, .inr ⟨hp, hwrote, repels⟩⟩
  | gaveUp msg hp => simp [Phase.copies] at hw
  | _ => first
    | (simp [Phase.copies] at hw; done)
    | (refine ⟨rfl, .inl ?_⟩; simp_all [Phase.copies])

namespace System
variable {cfg : Config} {s s' : System} {a : SysAction} {n : String} {node : String}

/-- The lists hold for every mode-dependent decision, and the weak lock lets no evacuation
out of Quiescing before its source node was seen to repel pods. -/
structure ModeGoverns (cfg : Config) (s : System) : Prop where
  decides : ∀ n r ref, s.running.get n = some r → written r.trace = none →
    (viewStatus r.view).phase.asksMode = true → (viewStatus r.view).pvcRef = some ref →
      s.world.params.LockedAs ref.lockKey (specOf r.view).mode
  starts : ∀ n r ref w, ∀ next : Except ApiError Unit → M Action, s.running.get n = some r →
    r.prog = .call (.patch .evacuation (evacKey r.view) (.status w)) next →
    r.status.phase = .quiescing → w.phase = .targetSelecting → r.status.pvcRef = some ref →
    s.world.params.LockedAs ref.lockKey .whenClaimed → SourceRepels cfg r.trace r.status

/-- No key is unlocked that is needed, and no mode is changed that counts. -/
def HoldsModes (s : System) (a : SysAction) : Prop := HoldsLocks s a ∧ KeepsModes s a

theorem locksHeld_run {as : List SysAction} (h : Run (step cfg) HoldsModes init as s) :
    LocksHeld True cfg s :=
  h.invariant (locksHeld_init True) fun _ _ _ hx hg hstep => hx.step hg.1 (fun _ => hg.2) hstep

theorem LocksHeld.governs (hx : LocksHeld True cfg s) : ModeGoverns cfg s := by
  have hworking : ∀ n r ref, s.running.get n = some r → written r.trace = none →
      (viewStatus r.view).phase.held = true → (viewStatus r.view).pvcRef = some ref →
      s.world.params.LockedAs ref.lockKey (specOf r.view).mode := fun n r ref hr hw hheld href =>
    (hx.secured n _ _ (.working r hr hw hheld ⟨⟨ref, href, rfl⟩, rfl⟩)).mode trivial
  refine ⟨fun n r ref hr hw hasks href =>
    hworking n r ref hr hw (Phase.held_of_asksMode hasks) href, ?_⟩
  intro n r ref w next hr hprog hphase hw href hlocked
  obtain ⟨st, hk, -, hwrites⟩ := hx.sound.informed.contracted.allowed hr hprog
  obtain rfl : r.status = st := hk.eq
  rcases (hwrites.copies (.inl hw)).2 with hcopies | ⟨-, hwrote, hrepels⟩
  · rw [hphase] at hcopies
    simp [Phase.copies] at hcopies
  · have hview : r.status = viewStatus r.view := by rw [Running.status, hwrote, Option.getD_none]
    have hmode : s.world.params.LockedAs ref.lockKey (specOf r.view).mode :=
      hworking n r ref hr hwrote (by rw [← hview, hphase]; rfl) (hview ▸ href)
    exact hrepels (hmode.unique hlocked)

/-! ## The source node during the copy -/

def Repels (cfg : Config) (w : World) (node : String) : Prop :=
  (w.get .node ⟨"", node⟩).all (nodeRepelsPods · cfg.taintKey) = true

/-- An evacuation under the weak lock relies on its source node to repel pods. -/
inductive NeedsCordon (cfg : Config) (s : System) (node : String) : Prop
  | stored (n : String) (e : Obj .evacuation) (source : SourceInfo)
      (he : s.world.get .evacuation ⟨"", n⟩ = some e) (hphase : (viewStatus e).phase.copies)
      (hmode : (specOf e).mode = .whenClaimed) (hs : (viewStatus e).source = some source)
      (hnode : source.node = node)
  | working (n : String) (r : Running) (source : SourceInfo) (hr : s.running.get n = some r)
      (hw : written r.trace = none) (hphase : (viewStatus r.view).phase = .quiescing)
      (hs : (viewStatus r.view).source = some source) (hnode : source.node = node)
      (hrepels : SourceRepels cfg r.trace (viewStatus r.view))

/-- Nobody makes a source node schedulable that an evacuation relies on. -/
def KeepsCordons (cfg : Config) (s : System) : SysAction → Prop
  | .env e => ∀ node, NeedsCordon cfg s node → Repels cfg s.world node →
    Repels cfg (s.world.env e) node
  | _ => True

def Cordoned (cfg : Config) (s : System) : Prop :=
  ∀ node, NeedsCordon cfg s node → Repels cfg s.world node

theorem source_congr {st st' : ZFSEvacuationStatus} (h : st.core = st'.core) :
    st.source = st'.source := by
  have hcore := congrArg ZFSEvacuationStatus.source h
  exact hcore

theorem get_node_after (hc : Contracted cfg s) {r : Running} {o : Outcome} {c : Call}
    {next : c.Resp → M Action} (hr : s.running.get n = some r) (hprog : r.prog = .call c next)
    (key : Key) : (s.world.after o c).get .node key = s.world.get .node key := by
  rcases World.after_cases s.world o c with ⟨heq, -⟩ | heq
  · rw [heq]
  · rw [heq]
    exact World.get_effect_other fun x hw => absurd hw (not_written_node hc hr hprog)

/-- The stored spec and the one a reconcile started from have the same mode. -/
theorem LocksHeld.mode_eq (hx : LocksHeld True cfg s) {r : Running} {e : Obj .evacuation}
    (hr : s.running.get n = some r) (he : s.world.get .evacuation ⟨"", n⟩ = some e)
    (hwrote : written r.trace = none) (hcore : (viewStatus e).core = (viewStatus r.view).core)
    (hheld : (viewStatus e).phase.held = true) : (specOf e).mode = (specOf r.view).mode := by
  obtain ⟨ref, href⟩ := hx.claimed n e he hheld
  have hview : (viewStatus r.view).phase.held = true := by rwa [← phase_congr hcore]
  have hclaim : (viewStatus r.view).pvcRef = some ref := by rwa [← pvcRef_congr hcore]
  have hstored := (hx.secured n _ _ (.stored e he hheld ⟨⟨ref, href, rfl⟩, rfl⟩)).mode trivial
  have hworking :=
    (hx.secured n _ _ (.working r hr hwrote hview ⟨⟨ref, hclaim, rfl⟩, rfl⟩)).mode trivial
  exact hstored.unique hworking

theorem needsCordon_step (hx : LocksHeld True cfg s) (hg : HoldsModes s a)
    (h : step cfg s a = some s') (hn : NeedsCordon cfg s' node) :
    NeedsCordon cfg s node ∨ (∃ n o, a = .call n o) ∧ Repels cfg s.world node := by
  have hi := hx.sound.informed
  cases hn with
  | stored n e' source he' hphase hmode hs hnode =>
    refine .inl ?_
    rcases status_step hi hg.1.1.1.1 h he' with ⟨e, he, hstep⟩ | ⟨-, hnone, -⟩
    · cases hstep with
      | kept same status _ spec =>
        rw [viewStatus_congr status] at hphase hs
        have hheld : (viewStatus e).phase.held = true := by
          rcases hphase with hp | hp <;> rw [hp] <;> rfl
        rw [mode_of_edit hg.2 spec he (.inl hheld)] at hmode
        exact .stored n e source he hphase hmode hs hnode
      | wrote r o st w next same running prog knows writes old new spec =>
        rw [phase_congr new] at hphase
        rw [source_congr new] at hs
        rw [spec] at hmode
        obtain ⟨hsource, hcase⟩ := writes.copies hphase
        rw [hsource] at hs
        rcases hcase with hst | ⟨hst, hwrote, hrepels⟩
        · exact .stored n e source he (by rwa [phase_congr old]) hmode
            (by rwa [source_congr old]) hnode
        · obtain rfl : viewStatus r.view = st := by
            have heq := knows.eq
            rwa [hwrote] at heq
          have hheld : (viewStatus e).phase.held = true := by
            rw [phase_congr old, hst]
            rfl
          rw [hx.mode_eq running he hwrote old hheld] at hmode
          exact .working n r source running hwrote hst hs hnode (hrepels hmode)
    · rw [viewStatus, hnone] at hs
      cases hs
  | working n r' source hr' hwrote hphase hs hnode hrepels =>
    cases running_step h hr' with
    | kept _ hr _ => exact .inl (.working n r' source hr hwrote hphase hs hnode hrepels)
    | started version _ _ _ heq =>
      rw [heq] at hrepels
      obtain ⟨_, _, -, hseen, -⟩ := hrepels
      cases hseen
    | called o r c next hr hprog _ heq =>
      rw [heq] at hwrote hphase hs hrepels
      obtain ⟨source', node', hs', hseen, hall⟩ := hrepels
      obtain rfl : source = source' := Option.some.inj (hs.symm.trans hs')
      rcases List.mem_cons.mp hseen with hnow | hbefore
      · obtain rfl : Call.get .node ⟨"", source.node⟩ = c := congrArg Sigma.fst hnow
        refine .inr ⟨⟨n, o, rfl⟩, ?_⟩
        rw [Repels, ← hnode, answer_get hnow.symm]
        exact hall
      · exact .inl (.working n r source hr (written_of_cons hwrote).2 hphase hs hnode
          ⟨source, node', hs, hbefore, hall⟩)

theorem cordoned_step (hx : LocksHeld True cfg s) (hc : Cordoned cfg s) (hg : HoldsModes s a)
    (hk : KeepsCordons cfg s a) (h : step cfg s a = some s') : Cordoned cfg s' := by
  intro node hn
  have hbefore := needsCordon_step hx hg h hn
  have hrepels : Repels cfg s.world node := hbefore.elim (hc node) And.right
  cases step_cases h with
  | env e =>
    rcases hbefore with hneeds | ⟨⟨n, o, ha⟩, -⟩
    · exact hk node hneeds hrepels
    · cases ha
  | start name version view _ _ _ _ => exact hrepels
  | call name o r c next hr hprog _ =>
    rw [Repels, world_proceed]
    have hkept := get_node_after (o := o) hx.sound.informed.contracted hr hprog ⟨"", node⟩
    exact hkept ▸ hrepels
  | crash => exact hrepels

/-- The source node of an evacuation under the weak lock repels pods while the copy is on. -/
def CopiesCordoned (cfg : Config) (s : System) : Prop :=
  ∀ n e ref source, s.world.get .evacuation ⟨"", n⟩ = some e → (viewStatus e).phase.copies →
    (viewStatus e).pvcRef = some ref → s.world.params.LockedAs ref.lockKey .whenClaimed →
    (viewStatus e).source = some source → Repels cfg s.world source.node

theorem Cordoned.copies (hx : LocksHeld True cfg s) (hc : Cordoned cfg s) :
    CopiesCordoned cfg s := by
  intro n e ref source he hphase href hlocked hs
  have hheld : (viewStatus e).phase.held = true := by
    rcases hphase with hp | hp <;> rw [hp] <;> rfl
  have hstored := (hx.secured n _ _ (.stored e he hheld ⟨⟨ref, href, rfl⟩, rfl⟩)).mode trivial
  exact hc _ (.stored n e source he hphase (hstored.unique hlocked) hs rfl)

theorem cordoned_init : Cordoned cfg init := by
  intro node hn
  cases hn with
  | stored n e source he _ _ _ _ => cases he
  | working n r source hr _ _ _ _ _ => cases hr

/-- In every run in which no mode is edited that counts and no key is unlocked that is needed,
every decision is taken for the mode of the list that has the key. Where the source nodes are
left cordoned as well, an evacuation under the weak lock copies from a node that repels pods. -/
theorem mode_governs (cfg : Config) : (∀ as s, Run (step cfg) HoldsModes init as s →
    ModeGoverns cfg s) ∧
    ∀ as s, Run (step cfg) (fun s a => HoldsModes s a ∧ KeepsCordons cfg s a) init as s →
      CopiesCordoned cfg s := by
  refine ⟨fun as s h => (locksHeld_run h).governs, fun as s h => ?_⟩
  have hbase : ∀ {as : List SysAction} {s : System},
      Run (step cfg) (fun s a => HoldsModes s a ∧ KeepsCordons cfg s a) init as s →
      LocksHeld True cfg s := fun h => locksHeld_run (h.mono fun _ _ hg => hg.1)
  have hcordoned : Cordoned cfg s := h.invariant_over hbase cordoned_init
    fun _ _ _ hx hc hg hstep => cordoned_step hx hc hg.1 hg.2 hstep
  exact hcordoned.copies (hbase h)

/-! ### A mode that is edited after the lock -/

/-- A volume that is locked for `whenClaimed`. -/
def lockedClaimable : List SysAction :=
  Sample.setup.dropLast ++ [.env (.create .evacuation (Sample.evacuation "pv1" .whenClaimed))] ++
    Sample.reconcileOf "pv1" 0 7 ++ Sample.reconcileOf "pv1" 2 5 ++ Sample.reconcileOf "pv1" 3 4 ++
    Sample.reconcileOf "pv1" 4 7

def editMode (w : World) (name : String) (mode : EvacuationMode) : List SysAction :=
  ((w.get .evacuation ⟨"", name⟩).map fun e => SysAction.env (.update .evacuation
    ⟨e.metadata,
      ({ spec := { specOf e with mode }, status := statusOf e } : ZFSEvacuation)⟩)).toList

/-- Its mode is edited to `whenIdle`, and it is let out of Quiescing without a look at the
source node, which is schedulable. -/
def editedMode : List SysAction :=
  lockedClaimable ++ ((runList (step Sample.config) init lockedClaimable).map fun s =>
      editMode s.world "pv1" .whenIdle).getD [] ++
    [Sample.seconds 100] ++ Sample.reconcileOf "pv1" 6 7 ++ [Sample.seconds 100] ++
    Sample.reconcileOf "pv1" 7 5

instance (name : String) : Decidable (Repels cfg s.world name) :=
  inferInstanceAs (Decidable (_ = true))

/-- The reconcile works for another mode than that of the list that has its key. -/
def worksForOther (s : System) (n : String) (m : EvacuationMode) : Bool :=
  (s.running.get n).any fun r => decide (written r.trace = none) &&
    (viewStatus r.view).phase.asksMode && decide ((specOf r.view).mode ≠ m) &&
    (viewStatus r.view).pvcRef.any fun ref => decide (s.world.params.LockedAs ref.lockKey m)

theorem not_mode_governs : ¬ ∀ (cfg : Config) (as : List SysAction) (s : System),
    Run (step cfg) HoldsLocks init as s → ModeGoverns cfg s := by
  intro hall
  obtain ⟨s, hrun, hs⟩ := Run.exists_of_runList
    (p := fun s : System => worksForOther s "pv1" .whenClaimed)
    (show (runList (guarded (step Sample.config) fun s a => Undisturbed s a ∧ UnlocksUnneeded s a)
      init editedMode).any _ = true by decide +kernel)
  have hguarded : Run (step Sample.config) HoldsLocks init editedMode s :=
    hrun.mono fun _ _ hg => ⟨hg.1, hg.2.spares⟩
  obtain ⟨r, hr, hworks⟩ := (Option.any_eq_true ..).mp hs
  simp only [Bool.and_eq_true, decide_eq_true_eq] at hworks
  obtain ⟨⟨⟨hwrote, hasks⟩, hmode⟩, hkey⟩ := hworks
  obtain ⟨ref, href, hlocked⟩ := (Option.any_eq_true ..).mp hkey
  have hdecides := (hall _ _ s hguarded).decides "pv1" r ref hr hwrote hasks href
  exact hmode (hdecides.unique (of_decide_eq_true hlocked))

/-! ### A volume that is locked for `whenClaimed` on a cordoned node -/

/-- Nodes come before everything else, and nobody edits anything. -/
def NodesFirst (s : System) : SysAction → Prop
  | .env (.create .node _) =>
    (s.world.objects .evacuation).items = [] ∧ s.running.items = []
  | .env (.create _ _) | .env (.tick _) | .start _ _ | .call _ _ => True
  | _ => False

/-- All evacuations are for `whenClaimed`. -/
def AllClaimed (s : System) : Prop :=
  (∀ e ∈ (s.world.objects .evacuation).items, (specOf e).mode = .whenClaimed) ∧
    ∀ r ∈ s.running.items, (specOf r.view).mode = .whenClaimed

instance : Decidable (NodesFirst s a) := by
  unfold NodesFirst
  rcases a with ⟨⟨⟩, _⟩ | _ <;> dsimp only <;> infer_instance

instance : Decidable (AllClaimed s) := inferInstanceAs (Decidable (_ ∧ _))

def cordonedNode : Obj .node :=
  ⟨{ name := "n1" }, ({ unschedulable := some true } : Node)⟩

theorem AllClaimed.needs (h : AllClaimed s) {k : String} {m : EvacuationMode}
    (hn : Needs s n k m) : m = .whenClaimed := by
  cases hn with
  | stored e he _ hwants => exact hwants.mode.symm.trans (h.1 e (KeyedStore.mem_of_get he))
  | working r hr _ _ hwants => exact hwants.mode.symm.trans (h.2 r (KeyedStore.mem_of_get hr))
  | locking r hr _ _ hwants _ => exact hwants.mode.symm.trans (h.2 r (KeyedStore.mem_of_get hr))

theorem AllClaimed.keepsModes (h : AllClaimed s) (hfirst : NodesFirst s a) : KeepsModes s a := by
  cases a with
  | call n o =>
    intro r ref hwriter _ n' m hn
    rw [h.needs hn, h.2 r (KeyedStore.mem_of_get hwriter.running)]
  | env e =>
    cases e with
    | update k o => exact hfirst.elim
    | _ => trivial
  | _ => trivial

theorem NodesFirst.keepsCordons (h : NodesFirst s a) : KeepsCordons cfg s a := by
  cases a with
  | env e =>
    intro name hneeds hrepels
    by_cases hnode : ∃ o : Obj .node, e = .create .node o
    · obtain ⟨o, rfl⟩ := hnode
      cases hneeds with
      | stored n e _ he _ _ _ _ =>
        have hmem := KeyedStore.mem_of_get he
        rw [h.1] at hmem
        cases hmem
      | working n r _ hr _ _ _ _ _ =>
        have hmem := KeyedStore.mem_of_get hr
        rw [h.2] at hmem
        cases hmem
    · have hsame : (s.world.env e).get .node ⟨"", name⟩ = s.world.get .node ⟨"", name⟩ := by
        cases e with
        | create k o =>
          exact World.get_create_other s.world o fun hk => by
            subst hk
            exact absurd ⟨o, rfl⟩ hnode
        | tick nanos => rfl
        | _ => exact h.elim
      rw [Repels, hsame]
      exact hrepels
  | _ => trivial

/-- A volume on a cordoned node, up to the choice of its target. -/
def cordonedVolume : List SysAction :=
  .env (.create .node cordonedNode) :: lockedClaimable.tail ++ [Sample.seconds 100] ++
    Sample.reconcileOf "pv1" 5 8 ++ [Sample.seconds 100] ++ Sample.reconcileOf "pv1" 6 7

/-- An evacuation that may copy by now, its claim and its source. -/
def copying (s : System) (n : String) : Option (PvcRef × SourceInfo) :=
  ((s.world.get .evacuation ⟨"", n⟩).map viewStatus).bind fun st =>
    if st.phase = .targetSelecting then st.pvcRef.bind fun ref => st.source.map (ref, ·) else none

theorem mode_governs_cordoned : ∃ s as n source,
    Run (step Sample.config) (fun s a => HoldsModes s a ∧ KeepsCordons Sample.config s a)
      init as s ∧ (∃ e, s.world.get .evacuation ⟨"", n⟩ = some e ∧ (viewStatus e).phase.copies ∧
        (viewStatus e).source = some source) ∧ ModeGoverns Sample.config s ∧
      Repels Sample.config s.world source.node := by
  obtain ⟨s, hrun, hs⟩ := Run.exists_of_runList
    (p := fun s : System => (copying s "pv1").any fun c =>
      decide (s.world.params.LockedAs c.1.lockKey .whenClaimed))
    (show (runList (guarded (step Sample.config) fun s a =>
      (Undisturbed s a ∧ UnlocksUnneeded s a) ∧ NodesFirst s a ∧ AllClaimed s) init
        cordonedVolume).any _ = true by decide +kernel)
  have hguarded : Run (step Sample.config)
      (fun s a => HoldsModes s a ∧ KeepsCordons Sample.config s a) init cordonedVolume s := by
    refine hrun.mono fun _ _ ⟨hg, hfirst, hclaimed⟩ => ?_
    exact ⟨⟨⟨hg.1, hg.2.spares⟩, hclaimed.keepsModes hfirst⟩, hfirst.keepsCordons⟩
  obtain ⟨⟨ref, source⟩, hcopying, hlocked⟩ := (Option.any_eq_true ..).mp hs
  obtain ⟨e, he, hst⟩ : ∃ e, s.world.get .evacuation ⟨"", "pv1"⟩ = some e ∧
      (viewStatus e).phase = .targetSelecting ∧ (viewStatus e).pvcRef = some ref ∧
        (viewStatus e).source = some source := by
    cases he : s.world.get .evacuation ⟨"", "pv1"⟩ with
    | none => simp [copying, he] at hcopying
    | some e =>
      refine ⟨e, rfl, ?_⟩
      simp only [copying, he, Option.map_some, Option.bind_some] at hcopying
      split_ifs at hcopying with hphase
      simp only [Option.bind_eq_some_iff, Option.map_eq_some_iff] at hcopying
      obtain ⟨ref', href, source', hsource, heq⟩ := hcopying
      cases heq
      exact ⟨hphase, href, hsource⟩
  obtain ⟨hphase, href, hsource⟩ := hst
  have hgoverns := mode_governs Sample.config
  refine ⟨s, _, "pv1", source, hguarded, ⟨e, he, .inl hphase, hsource⟩,
    hgoverns.1 _ s (hguarded.mono fun _ _ hg => hg.1), ?_⟩
  exact hgoverns.2 _ s hguarded "pv1" e ref source he (.inl hphase) href
    (of_decide_eq_true hlocked) hsource

end System

end ZfsEvacuation
