import ZfsEvacuation.SyncedViews

/-!
# The commit record

The status write of the commit is the only record that an evacuation may not be aborted any
more. It holds for good as soon as no reconcile starts from a version that is older than it.
-/
namespace ZfsEvacuation
open ClientProgram Program GuardedRun

/-- The phases behind the commit. -/
def Phase.committed : Phase → Bool
  | .swapping | .cleaningUp | .completed => true
  | _ => false

/-- The commit record and the phase say the same. -/
def CommitConsistent (st : ZFSEvacuationStatus) : Prop := st.committed = st.phase.committed

theorem commitConsistent_congr {st st' : ZFSEvacuationStatus} (h : st.core = st'.core) :
    CommitConsistent st ↔ CommitConsistent st' := by
  have hcommitted := congrArg ZFSEvacuationStatus.committed h
  have hphase := congrArg ZFSEvacuationStatus.phase h
  simp only [ZFSEvacuationStatus.core] at hcommitted hphase
  rw [CommitConsistent, CommitConsistent, hcommitted, hphase]

theorem committed_congr {st st' : ZFSEvacuationStatus} (h : st.core = st'.core) :
    st.committed = st'.committed := by
  have hcore := congrArg ZFSEvacuationStatus.committed h
  exact hcore

/-- A status whose phase is behind the commit does not enter the abort path. -/
theorem not_entersAbort {e : Obj .evacuation} (h : CommitConsistent (viewStatus e))
    (hc : (viewStatus e).committed = true) : entersAbort e = false := by
  have hphase : (viewStatus e).phase ≠ .aborting := by
    intro hp
    rw [CommitConsistent, hc, hp] at h
    cases h
  simp [entersAbort, hc, hphase]

section Writes
variable {cfg : Config} {view : Obj .evacuation} {tr : Trace} {st w : ZFSEvacuationStatus}

/-- No write takes the record back. -/
theorem Writes.keeps_commit (h : Writes cfg view tr st w) (hc : st.committed = true) :
    w.committed = true := by
  cases h with
  | committed _ _ _ _ _ _ _ _ _ _ _ _ _ _ _ _ => rfl
  | _ => exact hc

theorem Writes.commitConsistent (h : Writes cfg view tr st w) (hk : Knows view tr st)
    (hst : CommitConsistent st) : CommitConsistent w := by
  cases h with
  | cancelled reason hc _ _ _ _ => exact hc
  | abortStarts msg hv hwrote _ =>
    obtain rfl : viewStatus view = st := by
      have heq := hk.eq
      rwa [hwrote] at heq
    by_contra hne
    have hc : (viewStatus view).committed = true := by simpa [CommitConsistent, Phase.committed] using hne
    rw [not_entersAbort hst hc] at hv
    cases hv
  | committed _ _ _ _ _ _ _ _ _ _ _ _ _ _ _ _ => rfl
  | gaveUp msg hp =>
    rcases hp with hp | hp <;> rw [CommitConsistent, hp] at hst <;> exact hst
  | pvLost msg hp _ _ _ | pvReplaced msg _ _ _ _ _ hp _ _ _ _ =>
    rw [CommitConsistent, hp] at hst
    exact hst
  | shown _ _ _ => exact hst
  | unwound _ hp _ _ _ | refused _ hp | accepted _ _ _ hp _ _ _ _ | guarded hp | retained hp
  | locked _ _ hp _ _ _ | blocked _ hp | settles _ hp | quiesced _ _ hp _ _ _ _ _
  | selected _ _ _ _ _ hp _ _ _ | attempted _ _ _ _ _ hp _ _ _ _ | attemptFailing _ _ hp
  | exhausted _ _ hp | copied _ _ _ _ hp _ _ _ _ _ _ | progressed _ _ hp _ | adopted hp
  | swapped _ _ _ hp _ _ _ _ _ _ | snapDeleteIssued hp | completed hp _ =>
    simp only [CommitConsistent, hp, Phase.committed] at hst ⊢
    exact hst

end Writes

namespace System
variable {cfg : Config} {s s' : System} {a : SysAction} {n : String}

/-- Every status that is or was stored, or is known to a reconcile, is consistent. -/
structure AllConsistent (s : System) : Prop where
  versions : ∀ v ∈ s.world.versions, CommitConsistent (viewStatus v)
  known : ∀ n r st, s.running.get n = some r → Knows r.view r.trace st → CommitConsistent st

theorem knows_nil_iff {view : Obj .evacuation} {st : ZFSEvacuationStatus} :
    Knows view [] st ↔ st = viewStatus view :=
  ⟨fun h => h.eq.symm, fun h => h ▸ knows_nil view⟩

/-- What a reconcile knows after its call: what it knew, or what it has written. -/
theorem knows_step (hc : Contracted cfg s) {r : Running} {c : Call} {next : c.Resp → M Action}
    (hr : s.running.get n = some r) (hprog : r.prog = .call c next) {ans : c.Resp}
    {st : ZFSEvacuationStatus} (hk : Knows r.view (⟨c, ans⟩ :: r.trace) st) :
    Knows r.view r.trace st ∨
      ∃ st₀, Knows r.view r.trace st₀ ∧ Writes cfg r.view r.trace st₀ st := by
  cases hw : statusWrite c with
  | none => exact .inl (hk.of_cons hw)
  | some w =>
    obtain ⟨key, rfl⟩ := statusWrite_some hw
    obtain ⟨rfl, -⟩ := hk.of_write
    obtain ⟨st₀, hknows, -, hwrites⟩ := hc.allowed hr hprog
    exact .inr ⟨st₀, hknows, hwrites⟩

/-- Every status that is or was stored, or is known to a reconcile, is of this kind. -/
structure EveryStatus (kind : String → ZFSEvacuationStatus → Prop) (s : System) : Prop where
  versions : ∀ v ∈ s.world.versions, kind v.name (viewStatus v)
  known : ∀ n r st, s.running.get n = some r → Knows r.view r.trace st → kind n st

theorem everyStatus_init (kind : String → ZFSEvacuationStatus → Prop) :
    EveryStatus kind init := by
  constructor
  · intro v hv
    cases hv
  · intro n r st hr
    cases hr

/-- A kind of status that does not tell statuses of one record apart, and to which what is
written belongs. -/
theorem EveryStatus.step {kind kind' : String → ZFSEvacuationStatus → Prop}
    (hx : EveryStatus kind s) (hg : Grounded cfg s) (hl : KeepsEvacs s a)
    (h : step cfg s a = some s') (hkeep : ∀ n st, kind n st → kind' n st)
    (hcore : ∀ n st st', st'.core = st.core → kind' n st → kind' n st')
    (hblank : ∀ n, kind' n {})
    (hwrite : ∀ n o r st w, ∀ next : Except ApiError Unit → M Action, a = .call n o →
      s.running.get n = some r →
      r.prog = .call (.patch .evacuation (evacKey r.view) (.status w)) next →
      Knows r.view r.trace st → Writes cfg r.view r.trace st w → kind' n w) :
    EveryStatus kind' s' := by
  constructor
  · intro v hv
    rcases new_version hg hl h hv with hold | hstored
    · exact hkeep _ _ (hx.versions v hold)
    · rcases evac_step hg.contracted hl h hstored with ⟨e, he, rfl | hstep⟩ | ⟨-, o, rfl, rfl, -⟩
      · exact hkeep _ _ (hx.versions v (hg.recorded.stored _ v he))
      · have hname : e.name = v.name := (evac_key_name he).2
        have hold := hkeep _ _ (hx.versions e (hg.recorded.stored _ e he))
        rw [hname] at hold
        cases hstep with
        | edited _ status _ _ _ => rwa [viewStatus_congr status]
        | wrote r o st w next _ running prog knows writes status _ _ =>
          have hnew : (viewStatus v).core = w.core := by
            rw [viewStatus, status]
            exact core_mergeStatus _ _
          exact hcore _ w _ hnew (hwrite _ o r st w next rfl running prog knows writes)
        | signed _ _ _ _ _ _ _ _ status _ _ => rwa [viewStatus_congr status]
      · have hfresh : statusOf ((o.born s.world.revision).stamped s.world.revision) = none := hl.2.1
        rw [viewStatus, hfresh]
        exact hblank _
  · intro n r' st hr' hk
    cases running_step h hr' with
    | kept _ hr _ => exact hkeep _ _ (hx.known n r' st hr hk)
    | started version _ hstored hname heq =>
      rw [heq] at hk
      obtain rfl := knows_nil_iff.mp hk
      rw [← hname]
      exact hkeep _ _ (hx.versions _ (List.mem_of_getElem? hstored))
    | called o r c next hr hprog _ heq =>
      rw [heq] at hk
      cases hw : statusWrite c with
      | none => exact hkeep _ _ (hx.known n r st hr (hk.of_cons hw))
      | some w =>
        obtain ⟨key, rfl⟩ := statusWrite_some hw
        obtain ⟨rfl, -⟩ := hk.of_write
        obtain ⟨st₀, hknows, hkey, hwrites⟩ := hg.contracted.allowed hr hprog
        rw [hkey] at hprog
        exact hwrite n o r st₀ st next rfl hr hprog hknows hwrites

theorem allConsistent_init : AllConsistent init := by
  have hevery := everyStatus_init fun _ st => CommitConsistent st
  exact ⟨hevery.versions, hevery.known⟩

theorem consistent_step (hg : Grounded cfg s) (hx : AllConsistent s) (hl : KeepsEvacs s a)
    (h : step cfg s a = some s') : AllConsistent s' := by
  have hevery : EveryStatus (fun _ st => CommitConsistent st) s := ⟨hx.versions, hx.known⟩
  have hnext := hevery.step hg hl h (fun _ _ hst => hst)
    (fun _ _ _ hcore hst => (commitConsistent_congr hcore).mpr hst) (fun _ => rfl)
    fun n o r st w next _ hr _ hk hw => hw.commitConsistent hk (hx.known n r st hr hk)
  exact ⟨hnext.versions, hnext.known⟩

/-! ## The record over a run -/

/-- A version of the evacuation that is committed has been stored. -/
def CommitStored (s : System) (n : String) : Prop :=
  ∃ v ∈ s.world.versions, v.name = n ∧ (viewStatus v).committed = true

/-- Nobody else interferes, names are not given twice, and once a commit is stored no
reconcile starts from a version without it. -/
def Irrevocable (s : System) (a : SysAction) : Prop :=
  KeepsEvacs s a ∧ match a with
    | .env (.create .evacuation o) => ∀ v ∈ s.world.versions, v.name ≠ o.name
    | .start name version => CommitStored s name →
        ∀ view, s.world.versions[version]? = some view → (viewStatus view).committed = true
    | _ => True

/-- Behind a stored commit, everybody knows of it. -/
structure CommitKept (s : System) : Prop where
  stored : ∀ n e, CommitStored s n → s.world.get .evacuation ⟨"", n⟩ = some e →
    (viewStatus e).committed = true
  known : ∀ n r st, CommitStored s n → s.running.get n = some r → Knows r.view r.trace st →
    st.committed = true

/-- How a commit comes to be stored. -/
theorem commitStored_step (hg : Grounded cfg s) (hl : KeepsEvacs s a)
    (h : step cfg s a = some s') (hs : CommitStored s' n) : CommitStored s n ∨
      ∃ r o st w, ∃ next : Except ApiError Unit → M Action, a = .call n o ∧
        s.running.get n = some r ∧
        r.prog = .call (.patch .evacuation (evacKey r.view) (.status w)) next ∧
        Knows r.view r.trace st ∧ Writes cfg r.view r.trace st w ∧ w.committed = true ∧
        ∀ e', s'.world.get .evacuation ⟨"", n⟩ = some e' → (viewStatus e').committed = true := by
  obtain ⟨v, hv, rfl, hc⟩ := hs
  rcases new_version hg hl h hv with hold | hstored
  · exact .inl ⟨v, hold, rfl, hc⟩
  · rcases evac_step hg.contracted hl h hstored with ⟨e, he, rfl | hstep⟩ | ⟨-, o, rfl, rfl, -⟩
    · exact .inl ⟨v, hg.recorded.stored _ v he, rfl, hc⟩
    · have hmem := hg.recorded.stored _ e he
      have hname : e.name = v.name := (evac_key_name he).2
      cases hstep with
      | edited _ status _ _ _ => exact .inl ⟨e, hmem, hname, by rwa [← viewStatus_congr status]⟩
      | wrote r o st w next _ running prog knows writes status _ _ =>
        have hnew : (viewStatus v).core = w.core := by
          rw [viewStatus, status]
          exact core_mergeStatus _ _
        refine .inr ⟨r, o, st, w, next, rfl, running, prog, knows, writes, ?_, fun e' he' => ?_⟩
        · rwa [← committed_congr hnew]
        · obtain rfl : v = e' := Option.some.inj (hstored.symm.trans he')
          exact hc
      | signed _ _ _ _ _ _ _ _ status _ _ =>
        exact .inl ⟨e, hmem, hname, by rwa [← viewStatus_congr status]⟩
    · have hfresh : statusOf ((o.born s.world.revision).stamped s.world.revision) = none := hl.2.1
      rw [viewStatus, hfresh] at hc
      cases hc

theorem commitKept_step (hg : Grounded cfg s) (hx : CommitKept s) (hi : Irrevocable s a)
    (h : step cfg s a = some s') : CommitKept s' := by
  constructor
  · intro n e' hs he'
    rcases commitStored_step hg hi.1 h hs with hbefore | ⟨_, _, _, _, _, -, -, -, -, -, -, hnow⟩
    · rcases evac_step hg.contracted hi.1 h he' with ⟨e, he, rfl | hstep⟩ | ⟨-, o, rfl, -, hname⟩
      · exact hx.stored n e' hbefore he
      · have hold := hx.stored n e hbefore he
        cases hstep with
        | edited _ status _ _ _ => rwa [viewStatus_congr status]
        | wrote r o st w next _ running _ knows writes status _ _ =>
          have hnew : (viewStatus e').core = w.core := by
            rw [viewStatus, status]
            exact core_mergeStatus _ _
          rw [committed_congr hnew]
          exact writes.keeps_commit (hx.known n r st hbefore running knows)
        | signed _ _ _ _ _ _ _ _ status _ _ => rwa [viewStatus_congr status]
      · obtain ⟨v, hv, hvname, -⟩ := hbefore
        exact absurd (hvname.trans hname.symm) (hi.2 v hv)
    · exact hnow e' he'
  · intro n r' st' hs hr' hk
    have hrun := running_step h hr'
    rcases commitStored_step hg hi.1 h hs with
      hbefore | ⟨r, o, st, w, next, rfl, hr, hprog, -, -, hw, -⟩
    · cases hrun with
      | kept _ hr _ => exact hx.known n r' st' hbefore hr hk
      | started version _ hstored _ heq =>
        rw [heq] at hk
        rw [knows_nil_iff.mp hk]
        exact hi.2 hbefore _ hstored
      | called o r c next hr hprog _ heq =>
        rw [heq] at hk
        rcases knows_step hg.contracted hr hprog hk with hknown | ⟨st₀, hknown, hwrites⟩
        · exact hx.known n r st' hbefore hr hknown
        · exact hwrites.keeps_commit (hx.known n r st₀ hbefore hr hknown)
    · cases hrun with
      | kept _ _ hother => exact absurd rfl (hother o)
      | called _ r₁ c next₁ hr₁ hprog₁ _ heq =>
        obtain rfl : r = r₁ := Option.some.inj (hr.symm.trans hr₁)
        rw [hprog] at hprog₁
        cases hprog₁
        rw [heq] at hk
        rw [hk.of_write.1]
        exact hw

/-- What the runs with a commit that is not overlooked keep. -/
structure CommitSound (cfg : Config) (s : System) : Prop where
  grounded : Grounded cfg s
  consistent : AllConsistent s
  kept : CommitKept s

theorem commitSound_run {as : List SysAction} (h : Run (step cfg) Irrevocable init as s) :
    CommitSound cfg s := by
  have hgrounded : ∀ {as s}, Run (step cfg) Irrevocable init as s → Grounded cfg s :=
    fun hrun => grounded_run (fun _ _ hg => hg.1) hrun
  have hkept : CommitKept init := by
    constructor
    · intro n e _ he
      cases he
    · intro n r st _ hr
      cases hr
  exact ⟨hgrounded h,
    h.invariant_over hgrounded allConsistent_init fun _ _ _ hb hx hg hs => consistent_step hb hx hg.1 hs,
    h.invariant_over hgrounded hkept fun _ _ _ hb hx hg hs => commitKept_step hb hx hg hs⟩

/-- The next call of the reconcile deletes the PV. -/
def deletesPv (r : Running) : Bool :=
  match r.prog with
  | .call (.delete .pv _) _ => true
  | _ => false

theorem call_of_deletesPv {r : Running} (h : deletesPv r = true) :
    ∃ key, ∃ next : Except ApiError Unit → M Action, r.prog = .call (.delete .pv key) next := by
  unfold deletesPv at h
  split at h
  · rename_i key next hprog
    exact ⟨key, next, hprog⟩
  · cases h

/-- A reconcile of the evacuation issues the delete of the PV. -/
def DeletesPv (n : String) (s : System) (a : SysAction) : Prop :=
  (∃ o, a = .call n o) ∧ (s.running.get n).any deletesPv = true

/-- A commit is stored and whoever works on the evacuation started from it. -/
structure Beyond (n : String) (s : System) : Prop where
  stored : CommitStored s n
  views : ∀ r, s.running.get n = some r → (viewStatus r.view).committed = true

theorem CommitStored.step (hs : CommitStored s n) (h : step cfg s a = some s') :
    CommitStored s' n := by
  obtain ⟨v, hv, hname, hc⟩ := hs
  exact ⟨v, versions_step h hv, hname, hc⟩

theorem beyond_of_delete (hx : CommitSound cfg s) (hd : DeletesPv n s a)
    (h : step cfg s a = some s') : Beyond n s' := by
  obtain ⟨⟨o, rfl⟩, hany⟩ := hd
  obtain ⟨r, hr, hdel⟩ := (Option.any_eq_true ..).mp hany
  obtain ⟨key, next, hprog⟩ := call_of_deletesPv hdel
  obtain ⟨st, hk, source, pv, hphase, hwrote, -⟩ := hx.grounded.contracted.allowed hr hprog
  obtain rfl : viewStatus r.view = st := by
    have heq := hk.eq
    rwa [hwrote] at heq
  have hc : (viewStatus r.view).committed = true := by
    have hconsistent := hx.consistent.known n r _ hr hk
    rwa [CommitConsistent, hphase] at hconsistent
  have hstored : CommitStored s n :=
    ⟨r.view, hx.grounded.recorded.views n r hr, name_of_running hr, hc⟩
  refine ⟨hstored.step h, fun r' hr' => ?_⟩
  cases running_step h hr' with
  | kept _ _ hother => exact absurd rfl (hother o)
  | called _ r₁ _ _ hr₁ _ _ heq =>
    obtain rfl : r = r₁ := Option.some.inj (hr.symm.trans hr₁)
    rw [heq]
    exact hc

theorem Beyond.step (hb : Beyond n s) (hi : Irrevocable s a) (h : step cfg s a = some s') :
    Beyond n s' := by
  refine ⟨hb.stored.step h, fun r' hr' => ?_⟩
  cases running_step h hr' with
  | kept _ hr _ => exact hb.views r' hr
  | started version _ hstored _ _ => exact hi.2 hb.stored _ hstored
  | called o r c next hr _ _ heq =>
    rw [heq]
    exact hb.views r hr

/-- In every run in which no reconcile overlooks a stored commit, once the old PV has been
deleted no reconcile runs the abort, and the stored status stays committed. -/
theorem commit_irrevocable (cfg : Config) (as : List SysAction) (s : System) (n : String)
    (h : Run (step cfg) Irrevocable init as s)
    (hd : Happened (step cfg) init (DeletesPv n) as) :
    (∀ r, s.running.get n = some r → entersAbort r.view = false) ∧
      ∀ e, s.world.get .evacuation ⟨"", n⟩ = some e → (viewStatus e).committed = true := by
  have hx := commitSound_run h
  have hb : Beyond n s := h.since commitSound_run
    (fun _ _ _ hx _ hd hs => beyond_of_delete hx hd hs) (fun _ _ _ _ hb hg hs => hb.step hg hs) hd
  constructor
  · intro r hr
    have hview := hx.consistent.versions _ (hx.grounded.recorded.views n r hr)
    exact not_entersAbort hview (hb.views r hr)
  · exact fun e he => hx.kept.stored n e hb.stored he

/-! ### A commit that is overlooked -/

instance : Decidable (CommitStored s n) := inferInstanceAs (Decidable (∃ v ∈ _, _))

instance : Decidable (Irrevocable s a) := by
  unfold Irrevocable
  rcases a with ⟨⟨⟩, _⟩ | _ <;> dsimp only <;> infer_instance

def committedOnce : List SysAction := Sample.toCommitting ++ Sample.reconcileOf "pv1" 11 6

/-- A second reconcile starts from the version before the commit and finds the annotation
gone; a third one starts from the commit and deletes the PV. -/
def overlookedCommit : List SysAction :=
  committedOnce ++ [.env (.update .pv (Sample.pv "pv1" "c1" "vol1" []))] ++
    Sample.reconcileOf "pv1" 11 2 ++ Sample.reconcileOf "pv1" 12 2

theorem happened_of_runList {as bs : List SysAction} {o : Outcome}
    (h : (runList (step cfg) init as).any (fun s => (s.running.get n).any deletesPv) = true) :
    Happened (step cfg) init (DeletesPv n) (as ++ .call n o :: bs) := by
  obtain ⟨s, hs, hdel⟩ := (Option.any_eq_true ..).mp h
  exact ⟨as, _, bs, s, rfl, hs, ⟨o, rfl⟩, hdel⟩

theorem not_commit_irrevocable : ¬ ∀ (cfg : Config) (as : List SysAction) (s : System) (n : String),
    Run (step cfg) KeepsEvacs init as s → Happened (step cfg) init (DeletesPv n) as →
      (∀ r, s.running.get n = some r → entersAbort r.view = false) ∧
        ∀ e, s.world.get .evacuation ⟨"", n⟩ = some e → (viewStatus e).committed = true := by
  intro hall
  obtain ⟨s, hrun, hs⟩ := Run.exists_of_runList
    (p := fun s : System => (s.running.get "pv1").any fun r => entersAbort r.view)
    (show (runList (guarded (step Sample.config) KeepsEvacs) init (overlookedCommit ++
      .call "pv1" {} :: (.call "pv1" {} :: Sample.reconcileOf "pv1" 13 1))).any _ = true
      by decide +kernel)
  obtain ⟨r, hr, henters⟩ := (Option.any_eq_true ..).mp hs
  have hdel : Happened (step Sample.config) init (DeletesPv "pv1") (overlookedCommit ++
      .call "pv1" {} :: (.call "pv1" {} :: Sample.reconcileOf "pv1" 13 1)) :=
    happened_of_runList (by decide +kernel)
  have hnot := (hall _ _ s "pv1" hrun hdel).1 r hr
  rw [henters] at hnot
  cases hnot

/-- The PV is deleted and replaced and the swap is written, but the next reconcile starts from
the version of the commit once more. -/
def staleSwap : List SysAction :=
  .call "pv1" {} :: Sample.reconcileOf "pv1" 12 2 ++ [Sample.replacementBound] ++
    Sample.reconcileOf "pv1" 12 3 ++ Sample.reconcileOf "pv1" 12 1

/-- The PV of a small cluster is deleted after the commit, and the evacuation stays committed, for
the reconcile that is behind as well. -/
theorem commit_irrevocable_small : ∃ s as r e, Run (step Sample.config) Irrevocable init as s ∧
    Happened (step Sample.config) init (DeletesPv "pv1") as ∧
    s.running.get "pv1" = some r ∧ (viewStatus r.view).phase = .swapping ∧
    entersAbort r.view = false ∧ s.world.get .evacuation ⟨"", "pv1"⟩ = some e ∧
    (viewStatus e).phase = .cleaningUp ∧ (viewStatus e).committed = true := by
  obtain ⟨s, hrun, hs⟩ := Run.exists_of_runList
    (p := fun s : System =>
      ((s.running.get "pv1").any fun r => (viewStatus r.view).phase = .swapping) &&
        (s.world.get .evacuation ⟨"", "pv1"⟩).any fun e => (viewStatus e).phase = .cleaningUp)
    (show (runList (guarded (step Sample.config) Irrevocable) init
      (committedOnce ++ Sample.reconcileOf "pv1" 12 2 ++ .call "pv1" {} :: staleSwap)).any _ = true
      by decide +kernel)
  have hdel : Happened (step Sample.config) init (DeletesPv "pv1")
      (committedOnce ++ Sample.reconcileOf "pv1" 12 2 ++ .call "pv1" {} :: staleSwap) :=
    happened_of_runList (by decide +kernel)
  obtain ⟨hview, hstored⟩ := Bool.and_eq_true_iff.mp hs
  obtain ⟨r, hr, hphase⟩ := (Option.any_eq_true ..).mp hview
  obtain ⟨e, he, hphase'⟩ := (Option.any_eq_true ..).mp hstored
  have hirrevocable := commit_irrevocable _ _ s "pv1" hrun hdel
  exact ⟨s, _, r, e, hrun, hdel, hr, of_decide_eq_true hphase, hirrevocable.1 r hr, he,
    of_decide_eq_true hphase', hirrevocable.2 e he⟩

end System

end ZfsEvacuation
