import ZfsEvacuation.MoveSound

/-!
# Every reconcile keeps the contract

The last phase, the abort path, and the reconcile as a whole.
-/
namespace ZfsEvacuation
open ClientProgram Program

section Reconcile
variable {cfg : Config} {view : Obj .evacuation} {tr : Trace} {st : ZFSEvacuationStatus}

theorem GuardOff.mono {key : Key} {tr' : Trace} (h : GuardOff tr key) (hsub : tr ⊆ tr') :
    GuardOff tr' key := by
  rcases h with h | ⟨o, hseen, hset⟩
  · exact .inl (hsub h)
  · exact .inr ⟨o, hsub hseen, Or.imp_right (hsub ·) hset⟩

/-- The finalizer edits that both the abort and the cleanup make on a volume. -/
theorem strip_allowed {key : Key} (hst : Knows view tr st) (hphase : Unlocks st)
    (o : Obj .zfsVolume) : Allowed cfg view (sawEvent .zfsVolume key (some o) :: tr)
      (.patch .zfsVolume key (.finalizers (o.metadata.finalizers.filter (· ≠ zfsFinalizer)))) :=
  ⟨st, ((Extends.refl tr).saw ..).knows hst, .inr ⟨hphase, .inl ⟨o, rfl, rfl⟩⟩⟩

theorem unguard_allowed {source : SourceInfo} (hst : Knows view tr st) (hphase : Unlocks st)
    (hs : st.source = some source) (o : Obj .zfsVolume) :
    Allowed cfg view (sawEvent .zfsVolume (source.volKey cfg) (some o) :: tr)
      (.patch .zfsVolume (source.volKey cfg) (.finalizers (unguard o.metadata.finalizers))) :=
  ⟨st, ((Extends.refl tr).saw ..).knows hst,
    .inr ⟨hphase, .inr ⟨⟨source, hs, rfl⟩, ⟨o, rfl, rfl⟩⟩⟩⟩

theorem follows_destroySource {source : SourceInfo} (h : Extends [] tr)
    (hp : (viewStatus view).phase = .cleaningUp) (hs : (viewStatus view).source = some source)
    (hgone : CrsGone cfg view tr (viewStatus view)) (hsnap : SnapSettled cfg tr (viewStatus view))
    {post : Trace → Bool → Prop} (hpost : ∀ tr' b, Extends tr tr' → post tr' b) :
    Follows (Allowed cfg view) post tr (destroySource cfg source) := by
  simp only [destroySource, bind_eq, follows_bind, follows_getOpt]
  refine ⟨trivial, fun zv => ?_⟩
  have h₁ := (Extends.refl tr).saw .zfsVolume (source.volKey cfg) zv
  cases zv with
  | none => exact hpost _ _ h₁
  | some zv =>
    have hrest : ∀ tr₁, Extends tr tr₁ → Follows (Allowed cfg view) post tr₁ (do
        setFinalizers .zfsVolume (source.volKey cfg) unguard
        stripZfsFinalizerIfNodeGone .zfsVolume (source.volKey cfg) source.nodeId
        pure true) := by
      intro tr₁ hext₁
      simp only [bind_eq, follows_bind]
      refine follows_setFinalizers reads_allowed
        (unguard_allowed (h.trans hext₁).knows_view (.inr hp) hs) fun tr₂ hext₂ _ => ?_
      refine follows_strip reads_allowed (fun tr' o hext => ?_) fun tr₃ hext₃ => ?_
      · exact strip_allowed ((h.trans hext₁).trans (hext₂.trans hext)).knows_view (.inr hp) o
      · exact hpost _ _ ((hext₁.trans hext₂).trans hext₃)
    simp only
    split_ifs
    · simp only [follows_bind]
      have hdelete : Allowed cfg view (sawEvent .zfsVolume (source.volKey cfg) (some zv) :: tr)
          (.delete .zfsVolume (source.volKey cfg)) :=
        ⟨_, (h.trans h₁).knows_view, .inr ⟨.inr ⟨hp, (h.trans h₁).written_nil, hgone.mono h₁,
          hsnap.mono h₁.mono⟩, source, hs, rfl⟩⟩
      have hdeleted := hrest (deletedEvent .zfsVolume (source.volKey cfg) :: _)
        (h₁.step ⟨rfl, rfl, rfl, rfl⟩)
      simp only [bind_eq, follows_bind] at hdeleted
      exact follows_deleteObj.mpr ⟨hdelete, hdeleted⟩
    · exact hrest _ h₁

/-- The end of a cleanup. -/
theorem complete_follows (h : Extends [] tr) (hp : (viewStatus view).phase = .cleaningUp)
    (hgone : CrsGone cfg view tr (viewStatus view)) :
    Follows (Allowed cfg view) (fun _ _ => True) tr (do
      let action ← advance view.name
        { viewStatus view with message := some "evacuation complete" } .completed
      removeEvacFinalizer view.name
      pure action) := by
  simp only [advance, bind_eq, pure_eq, follows_bind, follows_ret]
  refine follows_writeStatus.mpr ⟨allowed_write h.knows_view (.completed hp hgone), ?_⟩
  exact follows_removeEvacFinalizer (h.knows_view.patched ..) fun _ _ => .finished (.inl rfl)

/-- The annotation of the new PV, then the end. -/
theorem unannotate_follows (h : Extends [] tr) (hp : (viewStatus view).phase = .cleaningUp)
    (hgone : CrsGone cfg view tr (viewStatus view)) :
    Follows (Allowed cfg view) (fun _ _ => True) tr (do
      match ← getOpt .pv (pvKey view) with
      | some pv =>
        if pv.metadata.annotations.contains evacuateAnnotation then
          patchObj .pv (pvKey view) (.annotate evacuateAnnotation none)
      | none => pure ()
      let action ← advance view.name
        { viewStatus view with message := some "evacuation complete" } .completed
      removeEvacFinalizer view.name
      pure action) := by
  simp only [bind_eq, follows_bind, follows_getOpt]
  refine ⟨trivial, fun pv => ?_⟩
  have hext : Extends tr (sawEvent .pv (pvKey view) pv :: tr) :=
    (Extends.refl tr).saw .pv (pvKey view) pv
  have h₁ := h.trans hext
  have hgone₁ := hgone.mono hext
  cases pv with
  | none => exact complete_follows h₁ hp hgone₁
  | some pv =>
    simp only
    split_ifs
    · simp only [follows_bind]
      refine follows_patchObj.mpr ⟨⟨_, h₁.knows_view, hp, rfl, rfl, rfl⟩, ?_⟩
      have hdone := complete_follows
        (h₁.step (e := patchedEvent .pv (pvKey view) (.annotate evacuateAnnotation none))
          ⟨rfl, rfl, rfl, rfl⟩) hp (hgone₁.mono ((Extends.refl _).step ⟨rfl, rfl, rfl, rfl⟩))
      simp only [bind_eq, follows_bind] at hdone
      exact hdone
    · exact complete_follows h₁ hp hgone₁

theorem finishCleanup_follows (h : Extends [] tr) (hp : (viewStatus view).phase = .cleaningUp)
    (hgone : CrsGone cfg view tr (viewStatus view)) :
    Follows (Allowed cfg view) (fun _ _ => True) tr (finishCleanup view (viewStatus view)) := by
  simp only [finishCleanup, bind_eq]
  split
  · rename_i r hr
    simp only [follows_bind]
    refine follows_unlockKey h.knows_view (.inr hp) hr fun tr₁ hext₁ _ => ?_
    refine follows_unlabelPvc (h.trans hext₁).knows_view hr fun tr₂ hext₂ => ?_
    have hext := hext₁.trans hext₂
    have htail := unannotate_follows (h.trans hext) hp (hgone.mono hext)
    simp only [bind_eq, follows_bind] at htail
    exact htail
  · exact unannotate_follows h hp hgone

/-- Once the transfer resources are gone. -/
theorem destroyDatasets_follows {source : SourceInfo} (h : Extends [] tr)
    (hp : (viewStatus view).phase = .cleaningUp) (hgone : CrsGone cfg view tr (viewStatus view))
    (hs : (viewStatus view).source = some source) :
    Follows (Allowed cfg view) (fun _ _ => True) tr (do
      let (st, left) ← destroyTargetSnapshot cfg view.name (viewStatus view)
      match left with
      | some msg => wait view.name st msg 5
      | none => do
        if ← destroySource cfg source then
          wait view.name st "waiting for source dataset destruction" 10
        else finishCleanup view st) := by
  simp only [bind_eq, follows_bind]
  refine follows_destroyTargetSnapshot h hp (fun tr₁ st' msg hcur hp' => ?_)
    fun tr₁ hext hsnap => ?_
  · exact follows_wait (allowed_write hcur (.shown _ (by simp [hp']) (by simp [hp'])))
  · simp only [follows_bind]
    refine follows_destroySource (h.trans hext) hp hs (hgone.mono hext) hsnap
      fun tr₂ b hext₂ => ?_
    have h₂ := (h.trans hext).trans hext₂
    cases b with
    | true => exact follows_wait (allowed_write h₂.knows_view (.shown _ (by simp [hp]) (by simp [hp])))
    | false => exact finishCleanup_follows h₂ hp (hgone.mono (hext.trans hext₂))

theorem cleaningUp_follows (h : Extends [] tr) (hp : (viewStatus view).phase = .cleaningUp) :
    Follows (Allowed cfg view) (fun _ _ => True) tr (cleaningUp cfg view (viewStatus view)) := by
  simp only [cleaningUp, bind_eq, follows_bind, follows_orErr]
  intro source hs
  split
  · rename_i t ht
    simp only [follows_bind]
    refine follows_cleanupTransferCrs h.knows_view (.inr (.inr hp)) ht h.quiet_nil ?_
    intro tr' gone hext hgone
    have h' := h.trans hext
    cases gone with
    | false => exact follows_wait (allowed_write h'.knows_view (.shown _ (by simp [hp]) (by simp [hp])))
    | true => exact destroyDatasets_follows h' hp (hgone rfl) hs
  · rename_i ht
    exact destroyDatasets_follows h hp ⟨by simp [ht], by simp [ht], h.quiet_nil⟩ hs

/-! ## The abort path -/

section Abort
variable {c : ZFSEvacuationStatus} {m : Option String}

theorem follows_some_requeueMsg (hc : Knows view tr c) (hp : c.phase = .aborting)
    {msg : String} {post : Trace → Option Action → Prop} (hpost : ∀ tr a, post tr (some a)) :
    Follows (Allowed cfg view) post tr
      (some <$> requeueMsg view.name { c with message := m } msg) := by
  have hmsg : Follows (Allowed cfg view) (fun _ _ => True) tr
      (requeueMsg view.name { c with message := m } msg) :=
    follows_requeueMsg (allowed_write hc (.shown msg (by simp [hp]) (by simp [hp])))
  simp only [map_eq, follows_bind, follows_ret]
  exact follows_mono hmsg fun _ _ _ => hpost _ _

theorem restore_open {rst : Option (Obj .zfsRestore)}
    (h : ¬ (rst.bind fun o => let r : ZFSRestore := o.data; r.status).any
      (· == bkpStatusDone) = true) : restoreStatus rst ≠ bkpStatusDone := by
  intro hdone
  rw [restoreStatus] at hdone
  cases hstatus : (rst.bind fun o => let r : ZFSRestore := o.data; r.status) with
  | none =>
    rw [hstatus] at hdone
    exact absurd hdone (by decide)
  | some status =>
    rw [hstatus] at h hdone
    exact h (by simpa using hdone)

theorem targetSide_follows (hv : entersAbort view = true) (hc : Knows view tr c)
    (hp : c.phase = .aborting) (hq : Quiet tr)
    {post : Trace → Option Action → Prop} (hback : ∀ tr a, post tr (some a))
    (hdone : ∀ tr', Extends tr tr' → (c.target.isSome → CrsGone cfg view tr' c) → post tr' none) :
    Follows (Allowed cfg view) post tr
      (Abort.targetSide cfg view.name { c with message := m }) := by
  have hcur : ∀ {tr'}, Extends tr tr' → Knows view tr' c :=
    fun hext => hext.knows hc
  simp only [Abort.targetSide]
  split
  · rename_i target t htarget ht
    -- Both ways of not finding a dataset end in the cleanup of the transfer resources.
    have hcleanup : ∀ tr', Extends tr tr' → MayDropRestore cfg view tr' c t →
        Follows (Allowed cfg view) post tr' (do
        if ← cleanupTransferCrs cfg view.name t.attempt { c with message := m } then pure none
        else some <$>
          requeueMsg view.name { c with message := m } "abort: cleaning up transfer CRs") := by
      intro tr' hext hdrop
      simp only [bind_eq, follows_bind]
      refine follows_cleanupTransferCrs (hcur hext) (.inr (.inl ⟨hp, hdrop⟩)) ht (hext.quiet hq) ?_
      intro tr₁ gone hext₁ hgone
      have h₁ := hext.trans hext₁
      cases gone with
      | true => exact hdone tr₁ h₁ fun _ => hgone rfl
      | false => exact follows_some_requeueMsg (hcur h₁) hp hback
    simp only [bind_eq, follows_bind, follows_getOpt]
    refine ⟨trivial, fun rst => ⟨trivial, fun zv => ?_⟩⟩
    have h₁ := ((Extends.refl tr).saw .zfsRestore (rstKey cfg view.name t.attempt) rst).saw
      .zfsVolume (target.volKey cfg) zv
    have hstrip : ∀ tr', Extends tr tr' → Follows (Allowed cfg view)
        (fun tr _ => Follows (Allowed cfg view) post tr (some <$> requeueMsg view.name
          { c with message := m } "abort: destroying target dataset")) tr'
        (stripZfsFinalizerIfNodeGone .zfsVolume (target.volKey cfg) target.nodeId) := by
      intro tr' hext
      refine follows_strip reads_allowed (fun tr₁ o hext₁ => ?_) fun tr₁ hext₁ => ?_
      · exact strip_allowed (hcur (hext.trans hext₁)) (.inl hp) o
      · exact follows_some_requeueMsg (hcur (hext.trans hext₁)) hp hback
    cases zv with
    | some zv =>
      simp only
      split_ifs
      · simp only [follows_bind]
        exact follows_deleteObj.mpr ⟨⟨c, hcur h₁, .inl ⟨hp, target, htarget, rfl⟩⟩,
          hstrip _ (h₁.step ⟨rfl, rfl, rfl, rfl⟩)⟩
      · simp only [follows_bind]
        exact hstrip _ h₁
    | none =>
      simp only
      split_ifs
      · simp only [follows_bind, follows_orErr]
        intro src hs
        refine follows_getOpt.mpr ⟨trivial, fun srcZv => ?_⟩
        have h₂ := h₁.saw .zfsVolume (src.volKey cfg) srcZv
        cases srcZv with
        | none => exact hcleanup _ h₂ ⟨hv, .inr ⟨src, hs, List.mem_cons_self ..⟩⟩
        | some srcZv =>
          obtain ⟨ms, srcZv⟩ := srcZv
          simp only [follows_bind]
          refine follows_createIfAbsent ⟨c, hcur h₂, target, srcZv.spec, .inr hp, htarget, rfl⟩
            fun r => ?_
          exact follows_some_requeueMsg (hcur (h₂.step ⟨rfl, rfl, rfl, rfl⟩)) hp hback
      · rename_i hopen
        exact hcleanup _ h₁ ⟨hv, .inl ⟨rst, List.mem_cons_of_mem _ (List.mem_cons_self ..),
          restore_open hopen⟩⟩
  · rename_i hnot
    refine hdone tr (Extends.refl tr) fun hsome => ⟨fun t ht => ?_, fun t ht => ?_, hq⟩
    all_goals
      obtain ⟨target, htarget⟩ := Option.isSome_iff_exists.mp hsome
      exact absurd ht (hnot target t htarget)

theorem PolicyRestored.mono {tr' : Trace} (h : PolicyRestored view tr c) (hsub : tr ⊆ tr') :
    PolicyRestored view tr' c := by
  intro source orig hs horig
  rcases h source orig hs horig with h | ⟨pv, hseen, huid⟩ | h
  · exact .inl (hsub h)
  · exact .inr (.inl ⟨pv, hsub hseen, huid⟩)
  · exact .inr (.inr (hsub h))

theorem follows_restorePolicy (hc : Knows view tr c) (hp : c.phase = .aborting)
    {post : Trace → Unit → Prop}
    (hpost : ∀ tr', Extends tr tr' → PolicyRestored view tr' c → post tr' ()) :
    Follows (Allowed cfg view) post tr (Abort.restorePolicy view { c with message := m }) := by
  simp only [Abort.restorePolicy]
  split
  · rename_i source orig hs horig
    have hset : ∀ tr', (sawEvent .pv (pvKey view) none ∈ tr' ∨
        (∃ pv, sawEvent .pv (pvKey view) (some pv) ∈ tr' ∧ pv.metadata.uid ≠ source.pvUid) ∨
        patchedEvent .pv (pvKey view) (.reclaimPolicy orig) ∈ tr') → PolicyRestored view tr' c := by
      intro tr' h source' orig' hs' horig'
      rw [hs] at hs'
      rw [horig] at horig'
      obtain rfl := Option.some.inj hs'
      obtain rfl := Option.some.inj horig'
      exact h
    simp only [bind_eq, follows_bind, follows_getOpt]
    refine ⟨trivial, fun pv => ?_⟩
    have h₁ := (Extends.refl tr).saw .pv (pvKey view) pv
    cases pv with
    | none => exact hpost _ h₁ (hset _ (.inl (List.mem_cons_self ..)))
    | some pv =>
      simp only
      split_ifs with huid
      · have hpatch : Allowed cfg view (sawEvent .pv (pvKey view) (some pv) :: tr)
            (.patch .pv (pvKey view) (.reclaimPolicy orig)) :=
          ⟨c, h₁.knows hc, rfl, .inr ⟨.inl hp, horig⟩⟩
        refine follows_patchObj.mpr ⟨hpatch, hpost _ (h₁.step ⟨rfl, rfl, rfl, rfl⟩) ?_⟩
        exact hset _ (.inr (.inr (List.mem_cons_self ..)))
      · exact hpost _ h₁ (hset _ (.inr (.inl ⟨pv, List.mem_cons_self .., huid⟩)))
  · rename_i hnot
    refine hpost tr (Extends.refl tr) fun source orig hs horig => ?_
    exact absurd horig (hnot source orig hs)

/-- The guard of the source comes off last. -/
theorem follows_unguardSource {source : SourceInfo} (hc : Knows view tr c)
    (hp : c.phase = .aborting) (hs : c.source = some source) {post : Trace → Unit → Prop}
    (hpost : ∀ tr', Extends tr tr' → GuardOff tr' (source.volKey cfg) → post tr' ()) :
    Follows (Allowed cfg view) post tr (do
      setFinalizers .zfsVolume (source.volKey cfg) unguard
      stripZfsFinalizerIfNodeGone .zfsVolume (source.volKey cfg) source.nodeId) := by
  simp only [bind_eq, follows_bind]
  refine follows_setFinalizers reads_allowed (unguard_allowed hc (.inl hp) hs)
    fun tr₁ hext₁ hset => ?_
  refine follows_strip reads_allowed (fun tr₂ o hext₂ => ?_) fun tr₂ hext₂ => ?_
  · exact strip_allowed ((hext₁.trans hext₂).knows hc) (.inl hp) o
  · exact hpost tr₂ (hext₁.trans hext₂) (GuardOff.mono hset hext₂.mono)

/-- Whether the orphaned volume is deleted first. -/
theorem follows_deleteOrphan {source : SourceInfo} (hc : Knows view tr c) (hp : c.phase = .aborting)
    (hs : c.source = some source) (gone : Bool) {post : Trace → Unit → Prop}
    (hpost : ∀ tr', Extends tr tr' → GuardOff tr' (source.volKey cfg) → post tr' ()) :
    Follows (Allowed cfg view) post tr (do
      let pv ← getOpt .pv (pvKey view)
      if gone ∧ pv.isNone ∧ c.originalReclaimPolicy = some "Delete" then
        match ← getOpt .zfsVolume (source.volKey cfg) with
        | some zv =>
          if !zv.deleting then deleteObj .zfsVolume (source.volKey cfg) else pure ()
        | none => pure ()
      setFinalizers .zfsVolume (source.volKey cfg) unguard
      stripZfsFinalizerIfNodeGone .zfsVolume (source.volKey cfg) source.nodeId) := by
  have hguard : ∀ tr', Extends tr tr' → Follows (Allowed cfg view) post tr' (do
      setFinalizers .zfsVolume (source.volKey cfg) unguard
      stripZfsFinalizerIfNodeGone .zfsVolume (source.volKey cfg) source.nodeId) := fun tr' hext =>
    follows_unguardSource (hext.knows hc) hp hs fun tr'' hext' => hpost tr'' (hext.trans hext')
  simp only [bind_eq, follows_bind, follows_getOpt] at hguard ⊢
  refine ⟨trivial, fun pv => ?_⟩
  have h₁ := (Extends.refl tr).saw .pv (pvKey view) pv
  split
  · simp only [follows_bind, follows_getOpt]
    refine ⟨trivial, fun zv => ?_⟩
    have h₂ := h₁.saw .zfsVolume (source.volKey cfg) zv
    cases zv with
    | none => simpa only [follows_bind] using hguard _ h₂
    | some zv =>
      simp only
      split
      · simp only [follows_bind]
        exact follows_deleteObj.mpr ⟨⟨c, h₂.knows hc, .inr ⟨.inl hp, source, hs, rfl⟩⟩,
          hguard _ (h₂.step ⟨rfl, rfl, rfl, rfl⟩)⟩
      · simpa only [follows_bind] using hguard _ h₂
  · simpa only [follows_bind] using hguard _ h₁

theorem follows_releaseSource (hc : Knows view tr c) (hp : c.phase = .aborting)
    {post : Trace → Unit → Prop}
    (hpost : ∀ tr', Extends tr tr' →
      (∀ source, c.source = some source → GuardOff tr' (source.volKey cfg)) → post tr' ()) :
    Follows (Allowed cfg view) post tr (Abort.releaseSource cfg view { c with message := m }) := by
  simp only [Abort.releaseSource, bind_eq]
  split
  · rename_i hs
    exact hpost tr (Extends.refl tr) (by simp [hs])
  · rename_i source hs
    have hguarded : ∀ tr', Extends tr tr' → GuardOff tr' (source.volKey cfg) → post tr' () := by
      intro tr' hext hoff
      refine hpost tr' hext fun source' hs' => ?_
      rw [hs] at hs'
      obtain rfl := Option.some.inj hs'
      exact hoff
    split
    · rename_i r hr
      simp only [follows_bind, follows_getOpt]
      refine ⟨trivial, fun pvc => ?_⟩
      have hext : Extends tr (sawEvent .pvc r.key pvc :: tr) := (Extends.refl tr).saw .pvc r.key pvc
      have hpvc := follows_deleteOrphan (hext.knows hc) hp hs pvc.isNone fun tr' hext' =>
        hguarded tr' (hext.trans hext')
      simp only [bind_eq, follows_bind, follows_getOpt] at hpvc
      exact hpvc
    · exact follows_deleteOrphan hc hp hs false hguarded

theorem Unwound.mono {tr' : Trace} (h : Unwound cfg view tr c) (hext : Extends tr tr') :
    Unwound cfg view tr' c :=
  { crs := fun hsome => (h.crs hsome).mono hext
    quiet := hext.quiet h.quiet
    policy := h.policy.mono hext.mono
    lock := fun r hr => (h.lock r hr).mono hext.mono
    guard := fun source hs => (h.guard source hs).mono hext.mono }

/-- From the first write on, the current status is an aborting one. -/
theorem unwind_follows (cfg : Config) (m : Option String) (hv : entersAbort view)
    (hc : Knows view tr c) (hp : c.phase = .aborting) (hq : Quiet tr)
    (heq : { viewStatus view with phase := .aborting, message := m } = { c with message := m }) :
    Follows (Allowed cfg view) (fun _ _ => True) tr (do
      send (.transferRemove view.name)
      match ← Abort.targetSide cfg view.name
        { viewStatus view with phase := .aborting, message := m } with
      | some action => pure action
      | none => do
        Abort.restorePolicy view { viewStatus view with phase := .aborting, message := m }
        Abort.unlock { viewStatus view with phase := .aborting, message := m }
        Abort.releaseSource cfg view { viewStatus view with phase := .aborting, message := m }
        if view.deleting then do
          removeEvacFinalizer view.name
          pure .awaitChange
        else do
          writeStatus view.name { viewStatus view with
            phase := .failed
            message := some (m.getD "evacuation aborted") }
          pure .awaitChange) := by
  rw [heq]
  refine follows_transferRemove_bind.mpr ⟨⟨rfl, .inl hv⟩, ?_⟩
  have hext₁ : Extends tr (⟨.transferRemove view.name, ()⟩ :: tr) :=
    (Extends.refl tr).step ⟨rfl, rfl, rfl, rfl⟩
  have hc₁ := hext₁.knows hc
  have hq₁ : Quiet (⟨.transferRemove view.name, ()⟩ :: tr) := hq.cons rfl
  simp only [bind_eq, follows_bind]
  refine targetSide_follows hv hc₁ hp hq₁ (fun _ _ => trivial) fun tr₂ hext₂ hgone => ?_
  have hcur : ∀ {tr₃}, Extends tr₂ tr₃ → Knows view tr₃ c :=
    fun hext => hext.knows (hext₂.knows hc₁)
  simp only [follows_bind]
  refine follows_restorePolicy (hcur (Extends.refl _)) hp fun tr₃ hext₃ hpolicy => ?_
  have h₃ := hext₂.trans hext₃
  refine follows_unlock (hcur hext₃) (.inl hp) rfl fun tr₄ hext₄ hlock => ?_
  refine follows_releaseSource (hcur (hext₃.trans hext₄)) hp fun tr₅ hext₅ hguard => ?_
  have h₅ := h₃.trans (hext₄.trans hext₅)
  have facts : Unwound cfg view tr₅ c :=
    { crs := fun hsome => (hgone hsome).mono (hext₃.trans (hext₄.trans hext₅))
      quiet := h₅.quiet hq₁
      policy := hpolicy.mono (hext₄.trans hext₅).mono
      lock := fun r hr => (hlock r hr).mono hext₅.mono
      guard := hguard }
  have hcur₅ : Knows view tr₅ c := hcur (hext₃.trans (hext₄.trans hext₅))
  by_cases hdeleting : view.deleting = true
  · rw [if_pos hdeleting]
    simp only [follows_bind]
    exact follows_mono (follows_removeEvacFinalizer hcur₅ fun tr₆ hext₆ =>
      .unwound hp hv (facts.mono hext₆)) fun _ _ _ => trivial
  · rw [if_neg hdeleting]
    simp only [follows_bind]
    refine follows_writeStatus.mpr ⟨allowed_write hcur₅ ?_, trivial⟩
    have hfailed := congrArg (fun s : ZFSEvacuationStatus => { s with
      phase := .failed, message := some (m.getD "evacuation aborted") }) heq
    exact hfailed ▸ .unwound _ hp hv (by simpa using hdeleting) facts

/-- The abort path, entered with a status that differs from the current one in its message
only. -/
theorem abort_follows {st : ZFSEvacuationStatus} (h : Extends [] tr) (hv : entersAbort view)
    (hst : st = { viewStatus view with message := m })
    (hdel : (viewStatus view).phase = .aborting ∨ view.deleting = true) :
    Follows (Allowed cfg view) (fun _ _ => True) tr (Abort.run cfg view st) := by
  subst hst
  simp only [Abort.run]
  by_cases hp : (viewStatus view).phase = .aborting
  · rw [if_neg (by simpa using hp)]
    exact unwind_follows cfg m hv h.knows_view hp h.quiet_nil (by rw [← hp])
  · rw [if_pos hp]
    simp only [bind_eq, follows_bind]
    refine follows_writeStatus.mpr ⟨allowed_write h.knows_view ?_, ?_⟩
    · exact .abortStarts m hv h.written_nil (hdel.resolve_left hp)
    · have hunwound := unwind_follows cfg m hv (h.knows_view.patched ⟨"", view.name⟩
        { viewStatus view with phase := .aborting, message := m }) rfl (h.quiet_nil.cons rfl) rfl
      simp only [bind_eq] at hunwound
      exact hunwound

end Abort

/-! ## The whole reconcile -/

theorem triggerWithdrawn_follows {pv : Obj .pv} {post : Trace → Option String → Prop}
    (hpost : ∀ tr' reason, Extends tr tr' → post tr' reason) :
    Follows (Allowed cfg view) post tr (triggerWithdrawn cfg view st pv) := by
  unfold triggerWithdrawn
  split
  · split_ifs
    · exact hpost _ _ (Extends.refl tr)
    · exact hpost _ _ (Extends.refl tr)
  · split
    · exact hpost _ _ (Extends.refl tr)
    · rename_i src _
      simp only [bind_eq, follows_bind, follows_getOpt]
      refine ⟨trivial, fun node => ?_⟩
      have h₁ := (Extends.refl tr).saw .node ⟨"", src.node⟩ node
      cases node with
      | none => exact hpost _ _ h₁
      | some node =>
        simp only
        split_ifs
        · exact hpost _ _ h₁
        · exact hpost _ _ h₁

theorem cancelReason_follows {post : Trace → Option String → Prop}
    (hpost : ∀ tr' reason, Extends tr tr' → (reason ≠ none → st.phase ≠ .pending) →
      post tr' reason) :
    Follows (Allowed cfg view) post tr (cancelReason cfg view st) := by
  unfold cancelReason
  by_cases hp : st.phase = .pending
  · rw [if_pos hp]
    exact hpost _ _ (Extends.refl tr) (by simp)
  rw [if_neg hp]
  simp only [bind_eq, follows_bind, follows_getOpt]
  refine ⟨trivial, fun pv => ?_⟩
  have h₁ := (Extends.refl tr).saw .pv (pvKey view) pv
  cases pv with
  | none => exact hpost _ _ h₁ fun _ => hp
  | some pv =>
    simp only [follows_bind]
    refine triggerWithdrawn_follows fun tr' reason hext => ?_
    have h₂ := h₁.trans hext
    cases reason with
    | some reason => exact hpost _ _ h₂ fun _ => hp
    | none =>
      simp only
      split
      · exact hpost _ _ h₂ fun _ => hp
      · rename_i r _
        simp only [follows_bind, follows_getOpt]
        refine ⟨trivial, fun pvc => ?_⟩
        have h₃ := h₂.saw .pvc r.key pvc
        cases pvc with
        | none => exact hpost _ _ h₃ fun _ => hp
        | some pvc =>
          simp only
          split_ifs
          · exact hpost _ _ h₃ fun _ => hp
          · exact hpost _ _ h₃ fun _ => hp

theorem handlePhase_follows (h : Extends [] tr) :
    Follows (Allowed cfg view) (fun _ _ => True) tr (handlePhase cfg view (viewStatus view)) := by
  unfold handlePhase
  split <;> rename_i hp
  · exact pending_follows h hp
  · exact guarding_follows h hp
  · exact retaining_follows h hp
  · exact locking_follows h hp
  · exact quiescing_follows h hp
  · exact targetSelecting_follows h hp
  · exact transferring_follows h hp
  · exact adopting_follows h hp
  · exact committing_follows h hp
  · exact swapping_follows h hp
  · exact cleaningUp_follows h hp
  all_goals trivial

/-- The checks of a live evacuation, then its phase. -/
theorem live_follows (h : Extends [] tr)
    (hover : ¬ ((viewStatus view).phase = .completed ∨ (viewStatus view).phase = .failed)) :
    Follows (Allowed cfg view) (fun _ _ => True) tr (
    if (viewStatus view).phase = .aborting then Abort.run cfg view (viewStatus view)
    else do
      let cancel ← if !(viewStatus view).committed then cancelReason cfg view (viewStatus view)
        else pure none
      match cancel with
      | some reason => do
        writeStatus view.name { viewStatus view with
          phase := .aborting, cancelled := true, message := some reason }
        pure (requeueSecs 1)
      | none => handlePhase cfg view (viewStatus view)) := by
  split_ifs with habort hopen
  · refine abort_follows h ?_ rfl (.inl habort)
    simp [entersAbort, habort]
  · simp only [bind_eq, follows_bind]
    refine cancelReason_follows fun tr' reason hext hphase => ?_
    have h' := h.trans hext
    cases reason with
    | none => exact handlePhase_follows h'
    | some reason =>
      simp only [follows_bind]
      refine follows_writeStatus.mpr ⟨allowed_write h'.knows_view ?_, trivial⟩
      exact .cancelled reason (by simpa using hopen) (hphase (by simp)) h'.written_nil
        (fun hc => hover (.inl hc)) fun hf => hover (.inr hf)
  · exact handlePhase_follows h

/-- Every call of every reconcile is an allowed one, whatever the answers. -/
theorem reconcile_follows (cfg : Config) (view : Obj .evacuation) :
    Follows (Allowed cfg view) (fun _ _ => True) [] (reconcile cfg view) := by
  by_cases hover : (viewStatus view).phase = .completed ∨ (viewStatus view).phase = .failed
  · simp only [reconcile, bind_eq, if_pos hover]
    split_ifs
    · simp only [follows_bind]
      exact follows_mono (follows_removeEvacFinalizer (knows_nil view) fun _ _ => .finished hover)
        fun _ _ _ => trivial
    · trivial
  by_cases hdel : (view.deleting && !(viewStatus view).committed) = true
  · simp only [reconcile, bind_eq, if_neg hover, if_pos hdel]
    have hdeleting : view.deleting = true := (Bool.and_eq_true_iff.mp hdel).1
    refine abort_follows (Extends.refl []) ?_ rfl (.inr hdeleting)
    simp_all [entersAbort]
  simp only [reconcile, if_neg hover, if_neg hdel]
  by_cases hlive : view.deleting = true
  · rw [if_neg (by simpa using hlive)]
    exact live_follows (Extends.refl []) hover
  · rw [if_pos (by simpa using hlive)]
    rw [bind_eq, follows_bind]
    unfold ensureEvacFinalizer
    by_cases hfin : (view.metadata.finalizers.any (· == evacuationFinalizer)) = true
    · rw [if_pos hfin]
      exact live_follows (Extends.refl []) hover
    · rw [if_neg hfin]
      refine follows_patchObj.mpr ⟨⟨_, knows_nil view, rfl, .inl ⟨rfl, by simpa using hlive, rfl⟩⟩, ?_⟩
      exact live_follows ((Extends.refl []).step (silent_finalizers ..)) hover

end Reconcile

end ZfsEvacuation
