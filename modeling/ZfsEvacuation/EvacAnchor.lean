import ZfsEvacuation.CommitRecord

/-!
# The finalizer of a ZFSEvacuation

Before it writes anything else, a reconcile puts the controller's finalizer on its
ZFSEvacuation, and it takes it off only once the evacuation is over or unwound. So the status
of a volume that is being moved cannot disappear.
-/
namespace ZfsEvacuation
open ClientProgram Program GuardedRun

/-- The phases that are not left any more, but for each other. -/
def Phase.ended : Phase → Bool
  | .aborting | .failed | .completed => true
  | _ => false

/-- Something has been done already, and there is more to do. -/
def Phase.working (p : Phase) : Bool := !p.ended && p ≠ .pending

theorem Phase.ended_of_working {p : Phase} (h : p.working = true) : p.ended = false := by
  simpa using (Bool.and_eq_true_iff.mp h).1

theorem Phase.working_of_committed {p : Phase} (h : p.committed = true) (he : p.ended = false) :
    p.working = true := by
  revert h he
  cases p <;> decide

section Writes
variable {cfg : Config} {view : Obj .evacuation} {tr : Trace} {st w : ZFSEvacuationStatus}

theorem Writes.ended (h : Writes cfg view tr st w) (hst : st.phase.ended = true) :
    w.phase.ended = true := by
  cases h with
  | shown _ _ _ => exact hst
  | snapDeleteIssued hp | settles _ hp | attempted _ _ _ _ _ hp _ _ _ _ | attemptFailing _ _ hp
  | progressed _ _ hp _ | blocked _ hp | accepted _ _ _ hp _ _ _ _ | guarded hp | retained hp
  | locked _ _ hp _ _ _ | quiesced _ _ hp _ _ _ _ _ | selected _ _ _ _ _ hp _ _ _
  | copied _ _ _ _ hp _ _ _ _ _ _ | adopted hp | committed _ _ _ _ _ hp _ _ _ _ _ _ _ _ _ _
  | swapped _ _ _ hp _ _ _ _ _ _ =>
    rw [hp] at hst
    cases hst
  | _ => rfl

theorem Writes.not_ended (h : Writes cfg view tr st w) (hw : w.phase.ended = false) :
    st.phase.ended = false := by
  by_contra hst
  rw [h.ended (by simpa using hst)] at hw
  cases hw

end Writes

/-! ## The first call of a reconcile -/

theorem reconcile_signs (cfg : Config) {evac : Obj .evacuation} (hlive : evac.deleting = false)
    (hover : (viewStatus evac).phase.ended = false)
    (hf : evacuationFinalizer ∉ evac.metadata.finalizers) :
    ∃ rest : Unit → M Action, reconcile cfg evac = .call (.patch .evacuation (evacKey evac)
      (.finalizers (evac.metadata.finalizers ++ [evacuationFinalizer])))
        fun r => answer r >>= rest := by
  have hphase : ¬ ((viewStatus evac).phase = .completed ∨ (viewStatus evac).phase = .failed) := by
    rintro (hp | hp) <;> rw [hp] at hover <;> cases hover
  have hany : (evac.metadata.finalizers.any (· == evacuationFinalizer)) = false := by
    simp only [List.any_eq_false, beq_iff_eq]
    exact fun f hmem heq => hf (heq ▸ hmem)
  simp only [reconcile, if_neg hphase, hlive, Bool.false_and, Bool.false_eq_true, if_false,
    Bool.not_false, if_true, ensureEvacFinalizer, hany]
  exact ⟨_, rfl⟩

theorem reconcile_aborts (cfg : Config) {evac : Obj .evacuation} (hdel : evac.deleting = true)
    (hc : (viewStatus evac).committed = false) (hover : (viewStatus evac).phase.ended = false) :
    ∃ w : ZFSEvacuationStatus, ∃ next : Except ApiError Unit → M Action, w.phase = .aborting ∧
      reconcile cfg evac = .call (.patch .evacuation (evacKey evac) (.status w)) next := by
  have hphase : ¬ ((viewStatus evac).phase = .completed ∨ (viewStatus evac).phase = .failed) := by
    rintro (hp | hp) <;> rw [hp] at hover <;> cases hover
  have haborting : (viewStatus evac).phase ≠ .aborting := by
    intro hp
    rw [hp] at hover
    cases hover
  refine ⟨{ viewStatus evac with
    phase := .aborting
    committed := false
    message := some "ZFSEvacuation deleted before commit; aborting" }, ?_⟩
  simp only [reconcile, if_neg hphase, hdel, hc, Bool.not_false, Bool.and_self, if_true,
    Abort.run, if_pos haborting]
  exact ⟨_, trivial, rfl⟩

/-! ## The finalizer over a run -/

/-- The reconcile found the finalizer or has put it on. -/
def SignedBy (r : Running) : Prop :=
  evacuationFinalizer ∈ r.view.metadata.finalizers ∨
    patchedEvent .evacuation (evacKey r.view)
      (.finalizers (r.view.metadata.finalizers ++ [evacuationFinalizer])) ∈ r.trace

/-- The reconcile has made no call yet, or will make none any more. -/
def AtRest (cfg : Config) (r : Running) : Prop :=
  (r.trace = [] ∧ r.prog = reconcile cfg r.view) ∨ r.prog.finished = true

/-- An evacuation of this name is stored, with the controller's finalizer. -/
def AnchoredIn (w : World) (n : String) : Prop :=
  ∃ e, w.get .evacuation ⟨"", n⟩ = some e ∧ evacuationFinalizer ∈ e.metadata.finalizers

theorem World.anchored_of_patch {w : World} {o : Outcome} {n : String} {fs : List String}
    (hf : evacuationFinalizer ∈ fs)
    (hok : w.answer o (.patch .evacuation ⟨"", n⟩ (.finalizers fs)) = .ok ()) :
    AnchoredIn (w.after o (.patch .evacuation ⟨"", n⟩ (.finalizers fs))) n := by
  have hfault : o.fault = .none := by
    cases hf : o.fault with
    | none => rfl
    | lost => simp [World.answer, Outcome.write, hf] at hok
    | unacked => simp [World.answer, Outcome.write, hf] at hok
  cases hget : w.get .evacuation ⟨"", n⟩ with
  | none => simp [World.answer, Outcome.write, hfault, World.patch, hget] at hok
  | some e =>
    have hkept : ((Patch.finalizers fs).apply e).gone = false := by
      have hne : fs.isEmpty = false := by
        cases fs with
        | nil => cases hf
        | cons _ _ => rfl
      simp [Obj.gone, Patch.apply, hne]
    have hself := World.get_patch_self hget (.finalizers fs)
    rw [hkept] at hself
    rw [World.after, if_neg (by simp [hfault])]
    exact ⟨_, hself, hf⟩

theorem MayLeave.ended {cfg : Config} {view : Obj .evacuation} {tr : Trace} {st : ZFSEvacuationStatus}
    (h : MayLeave cfg view tr st) : st.phase.ended = true := by
  cases h with
  | finished hp => rcases hp with hp | hp <;> rw [hp] <;> rfl
  | unwound hp _ _ => rw [hp]; rfl

theorem SignedBy.mono {r : Running} {c : Call} {ans : c.Resp} {prog : M Action} (h : SignedBy r) :
    SignedBy { r with trace := ⟨c, ans⟩ :: r.trace, prog } :=
  h.imp id (List.mem_cons_of_mem _)

namespace System
variable {cfg : Config} {s s' : System} {a : SysAction} {n : String}

structure Anchored (cfg : Config) (s : System) : Prop where
  stored : ∀ n e, s.world.get .evacuation ⟨"", n⟩ = some e →
    (viewStatus e).phase.working = true → evacuationFinalizer ∈ e.metadata.finalizers
  views : ∀ n r, s.running.get n = some r → (viewStatus r.view).phase.working = true →
    evacuationFinalizer ∈ r.view.metadata.finalizers
  fresh : ∀ n r, s.running.get n = some r → r.view.deleting = false →
    (viewStatus r.view).phase.ended = false → AtRest cfg r ∨ SignedBy r
  doomed : ∀ n r, s.running.get n = some r → r.view.deleting = true →
    (viewStatus r.view).committed = false → (viewStatus r.view).phase.ended = false →
      AtRest cfg r ∨ ∀ st, Knows r.view r.trace st → st.phase.ended = true
  dead : ∀ n r, s.running.get n = some r → (viewStatus r.view).phase.ended = true →
    ∀ st, Knows r.view r.trace st → st.phase.ended = true
  held : ∀ n r st, s.running.get n = some r → SignedBy r → Knows r.view r.trace st →
    st.phase.ended = false → AnchoredIn s.world n

theorem anchored_init : Anchored cfg init := by
  constructor
  · intro n e he
    cases he
  all_goals
    intro n r
    intros
    simp_all [init]

/-- The finalizer goes only when a reconcile takes it off. -/
theorem anchor_kept (hc : Contracted cfg s) (hl : KeepsEvacs s a) (h : step cfg s a = some s')
    (hs : AnchoredIn s.world n) : AnchoredIn s'.world n ∨
      ∃ (r : Running) (o : Outcome) (st : ZFSEvacuationStatus), a = .call n o ∧
        s.running.get n = some r ∧ Knows r.view r.trace st ∧ MayLeave cfg r.view r.trace st := by
  obtain ⟨e, he, hf⟩ := hs
  cases he' : s'.world.get .evacuation ⟨"", n⟩ with
  | none =>
    rcases evac_gone hc hl h he he' with hnot | ⟨r, o, st, fs, next, ha, hr, -, hk, hleave⟩
    · exact absurd hf hnot
    · exact .inr ⟨r, o, st, ha, hr, hk, hleave⟩
  | some e' =>
    rcases evac_step hc hl h he' with ⟨e₀, he₀, hcase⟩ | ⟨hnone, -⟩
    · obtain rfl : e = e₀ := Option.some.inj (he.symm.trans he₀)
      rcases hcase with rfl | hstep
      · exact .inl ⟨e', he', hf⟩
      · cases hstep with
        | edited _ _ finalizer _ _ => exact .inl ⟨e', he', finalizer.mpr hf⟩
        | wrote _ _ _ _ _ _ _ _ _ _ _ _ finalizers => exact .inl ⟨e', he', finalizers ▸ hf⟩
        | signed r o fs next _ running prog allowed _ _ finalizers =>
          obtain ⟨st, hk, -, ⟨-, -, hadds⟩ | ⟨-, hleave⟩⟩ := allowed
          · refine .inl ⟨e', he', ?_⟩
            rw [finalizers, hadds]
            simp
          · exact .inr ⟨r, o, st, rfl, running, hk, hleave⟩
    · rw [he] at hnone
      cases hnone

/-- A reconcile that knows its evacuation to go on has signed it, or makes no call. -/
theorem Anchored.signed_or_rest (hac : AllConsistent s) (hrec : Recorded s)
    (hx : Anchored cfg s) {r : Running} {st : ZFSEvacuationStatus}
    (hr : s.running.get n = some r) (hk : Knows r.view r.trace st)
    (hst : st.phase.ended = false) : SignedBy r ∨
      AtRest cfg r ∧ (viewStatus r.view).phase.ended = false ∧
        (r.view.deleting = true → (viewStatus r.view).committed = false) := by
  have hview : (viewStatus r.view).phase.ended = false := by
    by_contra hended
    rw [hx.dead n r hr (by simpa using hended) st hk] at hst
    cases hst
  cases hdel : r.view.deleting with
  | false =>
    rcases hx.fresh n r hr hdel hview with hrest | hsigned
    · exact .inr ⟨hrest, hview, fun hcon => by cases hcon⟩
    · exact .inl hsigned
  | true =>
    cases hc : (viewStatus r.view).committed with
    | false =>
      rcases hx.doomed n r hr hdel hc hview with hrest | hended
      · exact .inr ⟨hrest, hview, fun _ => rfl⟩
      · rw [hended st hk] at hst
        cases hst
    | true =>
      have hconsistent := hac.versions _ (hrec.views n r hr)
      rw [CommitConsistent, hc] at hconsistent
      exact .inl (.inl (hx.views n r hr (Phase.working_of_committed hconsistent.symm hview)))

/-- A reconcile that writes a status of an evacuation that goes on has signed it before. -/
theorem signed_of_write (hac : AllConsistent s) (hrec : Recorded s) (hx : Anchored cfg s)
    {r : Running} {key : Key} {w st : ZFSEvacuationStatus}
    {next : Except ApiError Unit → M Action} (hr : s.running.get n = some r)
    (hprog : r.prog = .call (.patch .evacuation key (.status w)) next)
    (hk : Knows r.view r.trace st) (hw : Writes cfg r.view r.trace st w)
    (hphase : w.phase.ended = false) : SignedBy r := by
  rcases hx.signed_or_rest hac hrec hr hk (hw.not_ended hphase) with
    hsigned | ⟨⟨-, hstart⟩ | hfinished, hview, hcommitted⟩
  · exact hsigned
  · -- the first call of a reconcile writes no such status
    cases hdel : r.view.deleting with
    | false =>
      by_contra hnot
      have hf : evacuationFinalizer ∉ r.view.metadata.finalizers := fun hf => hnot (.inl hf)
      obtain ⟨rest, heq⟩ := reconcile_signs cfg hdel hview hf
      rw [hprog, heq] at hstart
      cases hstart
    | true =>
      obtain ⟨w', next', hw', heq⟩ := reconcile_aborts cfg hdel (hcommitted hdel) hview
      rw [hprog, heq] at hstart
      cases hstart
      rw [hw'] at hphase
      cases hphase
  · rw [hprog] at hfinished
    cases hfinished

/-- A reconcile is started on the stored version. -/
theorem view_stored {version : Nat} {view : Obj .evacuation} (hg : Current s (.start n version))
    (hview : s.world.versions[version]? = some view) :
    s.world.get .evacuation ⟨"", n⟩ = some view := by
  obtain ⟨-, view', hstored, hcur⟩ := hg
  obtain rfl : view' = view := Option.some.inj (hstored.symm.trans hview)
  exact hcur

theorem Anchored.stored_step (hi : Informed cfg s) (hac : AllConsistent s) (hrec : Recorded s)
    (hx : Anchored cfg s) (hg : Current s a) (h : step cfg s a = some s') {e' : Obj .evacuation}
    (he' : s'.world.get .evacuation ⟨"", n⟩ = some e')
    (hphase : (viewStatus e').phase.working = true) :
    evacuationFinalizer ∈ e'.metadata.finalizers := by
  have hc := hi.contracted
  rcases evac_step hc hg.1 h he' with ⟨e, he, rfl | hstep⟩ | ⟨-, o, rfl, rfl, -⟩
  · exact hx.stored n e' he hphase
  · cases hstep with
    | edited _ status finalizer _ _ =>
      rw [viewStatus_congr status] at hphase
      exact finalizer.mpr (hx.stored n e he hphase)
    | wrote r o st w next _ running prog knows writes status _ finalizers =>
      have hnew : (viewStatus e').phase = w.phase := by
        rw [viewStatus, status]
        exact phase_mergeStatus _ _
      have hw : w.phase.ended = false := Phase.ended_of_working (hnew ▸ hphase)
      have hsigned := signed_of_write hac hrec hx running prog knows writes hw
      obtain ⟨e₀, he₀, hf⟩ := hx.held n r st running hsigned knows (writes.not_ended hw)
      obtain rfl : e = e₀ := Option.some.inj (he.symm.trans he₀)
      rwa [finalizers]
    | signed r o fs next _ running prog allowed status _ finalizers =>
      rw [viewStatus_congr status] at hphase
      obtain ⟨st, hk, -, ⟨-, -, hadds⟩ | ⟨-, hleave⟩⟩ := allowed
      · rw [finalizers, hadds]
        simp
      · have hcore := (hi.synced n r e running he).status st hk
        have hended := hleave.ended
        have hphase' := congrArg ZFSEvacuationStatus.phase hcore
        rw [show (viewStatus e).phase = st.phase from hphase', Phase.working, hended] at hphase
        cases hphase
  · have hfresh : statusOf ((o.born s.world.revision).stamped s.world.revision) = none := hg.1.2.1
    rw [viewStatus, hfresh] at hphase
    cases hphase

section Reconciles
variable {r' : Running}

theorem Anchored.views_step (hx : Anchored cfg s) (hg : Current s a)
    (h : step cfg s a = some s') (hr' : s'.running.get n = some r')
    (hphase : (viewStatus r'.view).phase.working = true) :
    evacuationFinalizer ∈ r'.view.metadata.finalizers := by
  cases running_step h hr' with
  | kept _ hr _ => exact hx.views n r' hr hphase
  | started version _ hstored _ heq =>
    exact hx.stored n _ (view_stored hg hstored) hphase
  | called o r c next hr _ _ heq =>
    rw [heq] at hphase ⊢
    exact hx.views n r hr hphase

/-- The first call of a reconcile that is not deleted puts the finalizer on. -/
theorem Anchored.fresh_step (hx : Anchored cfg s) (h : step cfg s a = some s')
    (hr' : s'.running.get n = some r') (hdel : r'.view.deleting = false)
    (hphase : (viewStatus r'.view).phase.ended = false) : AtRest cfg r' ∨ SignedBy r' := by
  cases running_step h hr' with
  | kept _ hr _ => exact hx.fresh n r' hr hdel hphase
  | started version _ _ _ heq =>
    rw [heq]
    exact .inl (.inl ⟨rfl, rfl⟩)
  | called o r c next hr hprog _ heq =>
    have hdel₀ : r.view.deleting = false := by rwa [heq] at hdel
    have hphase₀ : (viewStatus r.view).phase.ended = false := by rwa [heq] at hphase
    rcases hx.fresh n r hr hdel₀ hphase₀ with (⟨hnil, hstart⟩ | hfin) | hsigned
    · by_cases hf : evacuationFinalizer ∈ r.view.metadata.finalizers
      · rw [heq]
        exact .inr (.inl hf)
      · obtain ⟨rest, hreconcile⟩ := reconcile_signs cfg hdel₀ hphase₀ hf
        rw [hprog, hreconcile] at hstart
        cases hstart
        rw [heq]
        cases hans : s.world.answer o (.patch .evacuation (evacKey r.view)
          (.finalizers (r.view.metadata.finalizers ++ [evacuationFinalizer]))) with
        | ok u => exact .inr (.inr (List.mem_cons_self ..))
        | error err => exact .inl (.inr rfl)
    · rw [hprog] at hfin
      cases hfin
    · rw [heq]
      exact .inr hsigned.mono

/-- That of one that is deleted before its commit turns to the abort. -/
theorem Anchored.doomed_step (hc : Contracted cfg s) (hx : Anchored cfg s)
    (h : step cfg s a = some s') (hr' : s'.running.get n = some r')
    (hdel : r'.view.deleting = true) (hcommitted : (viewStatus r'.view).committed = false)
    (hphase : (viewStatus r'.view).phase.ended = false) :
    AtRest cfg r' ∨ ∀ st, Knows r'.view r'.trace st → st.phase.ended = true := by
  cases running_step h hr' with
  | kept _ hr _ => exact hx.doomed n r' hr hdel hcommitted hphase
  | started version _ _ _ heq =>
    rw [heq]
    exact .inl (.inl ⟨rfl, rfl⟩)
  | called o r c next hr hprog _ heq =>
    have hdel₀ : r.view.deleting = true := by rwa [heq] at hdel
    have hc₀ : (viewStatus r.view).committed = false := by rwa [heq] at hcommitted
    have hphase₀ : (viewStatus r.view).phase.ended = false := by rwa [heq] at hphase
    refine .inr fun st hk => ?_
    rw [heq] at hk
    rcases hx.doomed n r hr hdel₀ hc₀ hphase₀ with (⟨hnil, hstart⟩ | hfin) | hended
    · obtain ⟨w, next', hw, hreconcile⟩ := reconcile_aborts cfg hdel₀ hc₀ hphase₀
      rw [hprog, hreconcile] at hstart
      cases hstart
      rw [hk.of_write.1, hw]
      rfl
    · rw [hprog] at hfin
      cases hfin
    · rcases knows_step hc hr hprog hk with hbefore | ⟨st₀, hknows, hwrites⟩
      · exact hended st hbefore
      · exact hwrites.ended (hended st₀ hknows)

theorem Anchored.dead_step (hc : Contracted cfg s) (hx : Anchored cfg s)
    (h : step cfg s a = some s') (hr' : s'.running.get n = some r')
    (hphase : (viewStatus r'.view).phase.ended = true) {st : ZFSEvacuationStatus}
    (hk : Knows r'.view r'.trace st) : st.phase.ended = true := by
  cases running_step h hr' with
  | kept _ hr _ => exact hx.dead n r' hr hphase st hk
  | started version _ _ _ heq =>
    rw [heq] at hk
    rw [knows_nil_iff.mp hk]
    exact hphase
  | called o r c next hr hprog _ heq =>
    rw [heq] at hk hphase
    rcases knows_step hc hr hprog hk with hbefore | ⟨st₀, hknows, hwrites⟩
    · exact hx.dead n r hr hphase st hbefore
    · exact hwrites.ended (hx.dead n r hr hphase st₀ hknows)

/-- What a reconcile has signed stays signed while its evacuation goes on. -/
theorem Anchored.held_step (hc : Contracted cfg s) (hx : Anchored cfg s) (hg : Current s a)
    (h : step cfg s a = some s') (hr' : s'.running.get n = some r') {st : ZFSEvacuationStatus}
    (hsigned : SignedBy r') (hk : Knows r'.view r'.trace st) (hphase : st.phase.ended = false) :
    AnchoredIn s'.world n := by
  cases running_step h hr' with
  | kept _ hr hother =>
    rcases anchor_kept hc hg.1 h (hx.held n r' st hr hsigned hk hphase) with
      hkept | ⟨_, o, _, ha, -⟩
    · exact hkept
    · exact absurd ha (hother o)
  | started version _ hstored _ heq =>
    have hf : evacuationFinalizer ∈ r'.view.metadata.finalizers := by
      rw [heq] at hsigned
      exact hsigned.elim id fun hmem => by cases hmem
    rcases anchor_kept hc hg.1 h ⟨_, view_stored hg hstored, hf⟩ with hkept | ⟨_, _, _, ha, -⟩
    · exact hkept
    · cases ha
  | called o r c next hr hprog _ heq =>
    rw [heq] at hk hsigned
    obtain ⟨st₀, hk₀, hphase₀⟩ : ∃ st₀, Knows r.view r.trace st₀ ∧ st₀.phase.ended = false := by
      rcases knows_step hc hr hprog hk with hbefore | ⟨st₀, hknows, hwrites⟩
      · exact ⟨st, hbefore, hphase⟩
      · exact ⟨st₀, hknows, hwrites.not_ended hphase⟩
    have hbefore : SignedBy r → AnchoredIn s'.world n := by
      intro hold
      rcases anchor_kept hc hg.1 h (hx.held n r st₀ hr hold hk₀ hphase₀) with
        hkept | ⟨r₁, _, st₁, -, hr₁, hk₁, hleave⟩
      · exact hkept
      · obtain rfl : r = r₁ := Option.some.inj (hr.symm.trans hr₁)
        rw [hk₀.unique hk₁, hleave.ended] at hphase₀
        cases hphase₀
    rcases hsigned with hf | hmem
    · exact hbefore (.inl hf)
    · rcases List.mem_cons.mp hmem with hnow | hold
      · obtain rfl : Call.patch .evacuation (evacKey r.view)
          (.finalizers (r.view.metadata.finalizers ++ [evacuationFinalizer])) = c :=
          congrArg Sigma.fst hnow
        have hok := eq_of_heq (Sigma.mk.inj hnow).2
        have hname : evacKey r.view = ⟨"", n⟩ := by rw [evacKey, name_of_running hr]
        rw [world_call h hr hprog]
        rw [hname] at hok ⊢
        exact World.anchored_of_patch (by simp) hok.symm
      · exact hbefore (.inr hold)

end Reconciles

theorem anchored_step (hi : Informed cfg s) (hac : AllConsistent s) (hrec : Recorded s)
    (hx : Anchored cfg s) (hg : Current s a) (h : step cfg s a = some s') : Anchored cfg s' where
  stored _ _ he' hphase := hx.stored_step hi hac hrec hg h he' hphase
  views _ _ hr' hphase := hx.views_step hg h hr' hphase
  fresh _ _ hr' hdel hphase := hx.fresh_step h hr' hdel hphase
  doomed _ _ hr' hdel hcommitted hphase :=
    hx.doomed_step hi.contracted h hr' hdel hcommitted hphase
  dead _ _ hr' hphase _ hk := hx.dead_step hi.contracted h hr' hphase hk
  held _ _ _ hr' hsigned hk hphase := hx.held_step hi.contracted hg h hr' hsigned hk hphase

/-- A reconcile that works on a volume that is being moved works on a stored evacuation. -/
theorem Anchored.exists_stored (hx : Anchored cfg s) {r : Running} {st : ZFSEvacuationStatus}
    (hr : s.running.get n = some r) (hk : Knows r.view r.trace st)
    (hview : (viewStatus r.view).phase.working = true) (hst : st.phase.ended = false) :
    ∃ e, s.world.get .evacuation ⟨"", n⟩ = some e := by
  obtain ⟨e, he, -⟩ := hx.held n r st hr (.inl (hx.views n r hr hview)) hk hst
  exact ⟨e, he⟩

/-- So does one that is in the middle of something, whatever it has started from. -/
theorem Anchored.exists_stored_of_busy (hac : AllConsistent s) (hrec : Recorded s)
    (hx : Anchored cfg s) {r : Running} {st : ZFSEvacuationStatus}
    (hr : s.running.get n = some r) (hk : Knows r.view r.trace st)
    (hst : st.phase.working = true) (hbusy : r.prog.finished = false) :
    ∃ e, s.world.get .evacuation ⟨"", n⟩ = some e := by
  have hopen := Phase.ended_of_working hst
  rcases hx.signed_or_rest hac hrec hr hk hopen with hsigned | ⟨⟨htrace, -⟩ | hfinished, -, -⟩
  · obtain ⟨e, he, -⟩ := hx.held n r st hr hsigned hk hopen
    exact ⟨e, he⟩
  · have hview : st = viewStatus r.view := knows_nil_iff.mp (htrace ▸ hk)
    exact hx.exists_stored hr hk (hview ▸ hst) hopen
  · rw [hbusy] at hfinished
    cases hfinished

end System

end ZfsEvacuation
