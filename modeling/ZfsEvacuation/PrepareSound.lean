import ZfsEvacuation.ReconcileContract

/-!
# The phases before the copy keep the contract

One lemma for each handler from Pending to TargetSelecting, and for what they read.
-/
namespace ZfsEvacuation
open ClientProgram Program

section Handlers
variable {cfg : Config} {view : Obj .evacuation} {tr : Trace} {st w : ZFSEvacuationStatus}

theorem reads_allowed : ReadsAllowed (Allowed cfg view) := ⟨fun _ _ _ => trivial, fun _ _ _ => trivial⟩

theorem allowed_write (hst : Knows view tr st) (hw : Writes cfg view tr st w) :
    Allowed cfg view tr (.patch .evacuation ⟨"", view.name⟩ (.status w)) :=
  ⟨st, hst, rfl, hw⟩

/-- The trace of a phase handler: nothing but reads since the reconcile began. -/
theorem Extends.knows_view (h : Extends [] tr) : Knows view tr (viewStatus view) :=
  h.knows (knows_nil view)

theorem Extends.quiet_nil (h : Extends [] tr) : Quiet tr := h.quiet ZfsEvacuation.quiet_nil

theorem Extends.written_nil (h : Extends [] tr) : written tr = none := h.same

theorem pending_follows (h : Extends [] tr) (hp : (viewStatus view).phase = .pending) :
    Follows (Allowed cfg view) (fun _ _ => True) tr (pending cfg view (viewStatus view)) := by
  have hfail : ∀ {tr' msg}, Extends [] tr' →
      Follows (Allowed cfg view) (fun _ _ => True) tr' (fail view.name (viewStatus view) msg) :=
    fun h' => follows_fail (allowed_write h'.knows_view (.refused _ hp))
  simp only [pending, bind_eq, follows_bind, follows_getOpt]
  refine ⟨trivial, fun pv => ?_⟩
  have h₁ := h.saw .pv ⟨"", (specOf view).pvName⟩ pv
  have hseen : sawEvent .pv (pvKey view) pv ∈ sawEvent .pv ⟨"", (specOf view).pvName⟩ pv :: tr :=
    List.mem_cons_self ..
  cases pv with
  | none => exact hfail h₁
  | some pv =>
    simp only
    cases hhandle : evacuableHandle ((pvSpec pv).getD {}) with
    | error msg => exact hfail h₁
    | ok handle =>
      cases boundClaim ((pvSpec pv).getD {}) with
      | error msg => exact hfail h₁
      | ok claim =>
        simp only [follows_bind, follows_getOpt]
        refine ⟨trivial, fun pvc => ?_⟩
        have h₂ := h₁.saw .pvc claim pvc
        cases pvc with
        | none => exact hfail h₂
        | some pvc =>
          obtain ⟨pvcMeta, pvc⟩ := pvc
          simp only
          split_ifs
          · exact hfail h₂
          · exact hfail h₂
          simp only [follows_bind, follows_getOpt]
          refine ⟨trivial, fun zv => ?_⟩
          have h₃ := h₂.saw .zfsVolume ⟨cfg.openebsNs, handle⟩ zv
          cases zv with
          | none => exact hfail h₃
          | some zv =>
            simp only
            cases volumeRefusal zv with
            | some msg => exact hfail h₃
            | none =>
              simp only [follows_bind, follows_listObjs]
              refine ⟨trivial, fun snaps => ?_⟩
              have h₄ := h₃.listed .zfsSnapshot
                { ns := some cfg.openebsNs, label := some (zfsVolLabel, handle) } snaps
              by_cases hsnaps : (!snaps.isEmpty) = true
              · rw [if_pos hsnaps]
                exact hfail h₄
              · rw [if_neg hsnaps]
                simp only [follows_bind]
                refine follows_nodeById reads_allowed fun tr' srcNode hext => ?_
                have h₅ := h₄.trans hext
                cases srcNode with
                | none => exact hfail h₅
                | some srcNode =>
                  simp only
                  split_ifs with hcap
                  · exact hfail h₅
                  · refine follows_advance (allowed_write h₅.knows_view ?_)
                    exact .accepted _ _ pv hp (hext.mono (by simp [hseen])) hhandle rfl
                      (Nat.pos_of_ne_zero hcap)

theorem guarding_follows (h : Extends [] tr) (hp : (viewStatus view).phase = .guarding) :
    Follows (Allowed cfg view) (fun _ _ => True) tr (guarding cfg view (viewStatus view)) := by
  simp only [guarding, bind_eq, follows_bind, follows_orErr, follows_withContext]
  intro source hs
  refine follows_setFinalizers reads_allowed
    (fun o => ⟨_, (h.saw ..).knows_view, .inl ?_⟩) fun tr' hext _ => ?_
  · exact ⟨hp, ⟨source, hs, rfl⟩, ⟨o, rfl, rfl⟩⟩
  · exact follows_advance (allowed_write (h.trans hext).knows_view (.guarded hp))

theorem retaining_follows (h : Extends [] tr) (hp : (viewStatus view).phase = .retaining) :
    Follows (Allowed cfg view) (fun _ _ => True) tr (retaining view (viewStatus view)) := by
  simp only [retaining, bind_eq, follows_bind, follows_withContext, follows_patchObj]
  refine ⟨⟨_, h.knows_view, rfl, .inl ⟨hp, rfl⟩⟩, ?_⟩
  exact follows_advance (allowed_write (h.step ⟨rfl, rfl, rfl, rfl⟩).knows_view (.retained hp))

theorem lock_of_unchanged {p : EvacuationParamsSpec} {key : String} {mode : EvacuationMode}
    (h : (p.lock key mode).2 = false) : p.LockedAs key mode := by
  have hpush : ∀ keys : List String, (EvacuationParamsSpec.pushNew keys key).2 = false →
      key ∈ keys := by
    intro keys hk
    unfold EvacuationParamsSpec.pushNew at hk
    split_ifs at hk with hmem
    simpa using hmem
  have hnot : ∀ keys : List String, ((keys.filter (· ≠ key)).length != keys.length) = false →
      key ∉ keys := by
    intro keys hk hmem
    have hlen : (keys.filter (· ≠ key)).length = keys.length := by simpa using hk
    have hne := List.length_filter_eq_length_iff.mp hlen key hmem
    simp at hne
  cases mode with
  | whenIdle =>
    obtain ⟨hinto, hout⟩ := Bool.or_eq_false_iff.mp h
    exact ⟨hpush _ hinto, hnot _ hout⟩
  | whenClaimed =>
    obtain ⟨hinto, hout⟩ := Bool.or_eq_false_iff.mp h
    exact ⟨hpush _ hinto, hnot _ hout⟩

theorem lockSeen_of_paramsSet {key : String} {mode : EvacuationMode}
    (h : ParamsSet (fun p => p.lock key mode) tr) : LockSeen tr key mode := by
  have hlock := fun p : EvacuationParamsSpec => EvacuationParamsSpec.lockedAs_lock p key mode
  cases h with
  | absent _ same =>
    have hlocked := (lock_of_unchanged same).locked
    simp [EvacuationParamsSpec.Locked] at hlocked
  | created done => exact ⟨_, _, hlock {}, .inr (.inl done)⟩
  | kept m spec seen same => exact ⟨m, spec, lock_of_unchanged same, .inl seen⟩
  | replaced m spec done => exact ⟨m, _, hlock spec, .inr (.inr done)⟩

theorem locking_follows (h : Extends [] tr) (hp : (viewStatus view).phase = .locking) :
    Follows (Allowed cfg view) (fun _ _ => True) tr (locking view (viewStatus view)) := by
  simp only [locking, bind_eq, follows_bind, follows_orErr, follows_withContext, lockKey,
    follows_patchObj]
  intro r hr
  refine follows_updateParams reads_allowed ?_ ?_ fun tr' hext hset => ?_
  · exact fun tr' hext => ⟨_, (h.trans hext).knows_view, r, hr, rfl, .lock hp⟩
  · exact fun tr' m spec hext hseen =>
      ⟨_, (h.trans hext).knows_view, r, spec, hr, hseen, .lock hp⟩
  · refine ⟨⟨_, (h.trans hext).knows_view, ⟨r, hr, rfl⟩, rfl⟩, ?_⟩
    refine follows_nowRfc3339.mpr ⟨trivial, fun t => ?_⟩
    have hext' : Extends [] (⟨.now, t⟩ :: patchedEvent .pvc r.key
        (.label evacuatingLabel (some "true")) :: tr') :=
      ((h.trans hext).step ⟨rfl, rfl, rfl, rfl⟩).step ⟨rfl, rfl, rfl, rfl⟩
    refine follows_advance (allowed_write hext'.knows_view (.locked r _ hp hr hext'.written_nil ?_))
    have later : ∀ {e}, e ∈ tr' → e ∈ (⟨.now, t⟩ :: patchedEvent .pvc r.key
        (.label evacuatingLabel (some "true")) :: tr' : Trace) :=
      fun he => List.mem_cons_of_mem _ (List.mem_cons_of_mem _ he)
    obtain ⟨m, spec, hlocked, hev⟩ := lockSeen_of_paramsSet hset
    refine ⟨m, spec, hlocked, ?_⟩
    exact Or.imp later (Or.imp later later) hev

theorem follows_podsReferencingPvc {ok : Trace → Call → Prop} (hr : ReadsAllowed ok)
    {ns pvcName : String} {post : Trace → List (Obj .pod) → Prop}
    (hpost : ∀ pods, post (listedEvent .pod { ns := some ns } pods :: tr)
      (pods.filter (podReferencesPvc pvcName))) :
    Follows ok post tr (podsReferencingPvc ns pvcName) := by
  simp only [podsReferencingPvc, bind_eq, follows_bind, follows_listObjs]
  exact ⟨hr.list _ _ _, hpost⟩

/-- What it takes for nothing to block: none of the pods that count is there and, where the
lock is the weak one, the source node repels pods. -/
structure Unblocked (cfg : Config) (view : Obj .evacuation) (tr : Trace)
    (st : ZFSEvacuationStatus) (pods : List (Obj .pod)) : Prop where
  idle : unexpectedPods (specOf view).mode pods = []
  repels : (specOf view).mode = .whenClaimed → SourceRepels cfg tr st

theorem follows_blockingReason {pods : List (Obj .pod)} {post : Trace → Option String → Prop}
    (hpost : ∀ tr' reason, Extends tr tr' →
      (reason = none → Unblocked cfg view tr' st pods) → post tr' reason) :
    Follows (Allowed cfg view) post tr (blockingReason cfg view st pods) := by
  unfold blockingReason
  cases hmode : (specOf view).mode with
  | whenIdle =>
    refine hpost tr _ (Extends.refl tr) fun h => ⟨?_, by simp [hmode]⟩
    by_contra hne
    simp [unexpectedPods, hmode] at hne
    simp [hne] at h
  | whenClaimed =>
    by_cases hsched : (!(pods.filter podIsScheduled).isEmpty) = true
    · rw [if_pos hsched]
      exact hpost tr _ (Extends.refl tr) (by simp)
    · have hnone : pods.filter podIsScheduled = [] := by simpa using hsched
      rw [if_neg hsched]
      simp only [sourceRepelsPods, bind_eq, follows_bind, follows_orErr, follows_getOpt]
      refine fun source hs => ⟨trivial, fun node => ?_⟩
      have hext := (Extends.refl tr).saw .node ⟨"", source.node⟩ node
      have hidle : unexpectedPods (specOf view).mode pods = [] := by
        simp [unexpectedPods, hmode, hnone]
      have hdone : ∀ b : Bool, (b = true → node.all (nodeRepelsPods · cfg.taintKey) = true) →
          Follows (Allowed cfg view) post (sawEvent .node ⟨"", source.node⟩ node :: tr)
            (if b then pure none else pure (some (cordonMessage pods)) : M (Option String)) := by
        intro b hb
        cases b with
        | false => exact hpost _ _ hext fun h => by cases h
        | true =>
          have hrepels : SourceRepels cfg (sawEvent .node ⟨"", source.node⟩ node :: tr) st :=
            ⟨source, node, hs, List.mem_cons_self .., hb rfl⟩
          exact hpost _ _ hext fun _ => ⟨hidle, fun _ => hrepels⟩
      cases node with
      | none => exact hdone true fun _ => rfl
      | some node => exact hdone _ fun hb => hb

theorem SourceRepels.mono {tr' : Trace} (h : SourceRepels cfg tr st) (hsub : tr ⊆ tr') :
    SourceRepels cfg tr' st := by
  obtain ⟨source, node, hs, hseen, hrepels⟩ := h
  exact ⟨source, node, hs, hsub hseen, hrepels⟩

theorem quiescing_follows (h : Extends [] tr) (hp : (viewStatus view).phase = .quiescing) :
    Follows (Allowed cfg view) (fun _ _ => True) tr (quiescing cfg view (viewStatus view)) := by
  simp only [quiescing, bind_eq, follows_bind, follows_orErr]
  refine fun r hr => follows_now_bind.mpr ⟨trivial, fun lockNow => ?_⟩
  have h₁ : Extends [] (⟨.now, lockNow⟩ :: tr) := h.step ⟨rfl, rfl, rfl, rfl⟩
  by_cases hleft : 0 < propagationLeft lockNow (viewStatus view).lockedAt
  · rw [if_pos hleft]
    trivial
  rw [if_neg hleft]
  simp only [follows_bind]
  refine follows_podsReferencingPvc reads_allowed fun pods => ?_
  have h₂ := h₁.listed .pod { ns := some r.ns } pods
  refine follows_blockingReason fun tr' reason hext hidle => ?_
  have h₃ := h₂.trans hext
  cases reason with
  | some msg => exact follows_wait (allowed_write h₃.knows_view (.blocked msg hp))
  | none =>
    refine follows_now_bind.mpr ⟨trivial, fun now => ?_⟩
    have h₄ : Extends [] (⟨.now, now⟩ :: tr') := h₃.step ⟨rfl, rfl, rfl, rfl⟩
    have hlisted := hext.mono (List.mem_cons_self (a := listedEvent .pod { ns := some r.ns } pods))
    have hlook : LookedIdle cfg view (⟨.now, now⟩ :: tr') (viewStatus view) r pods :=
      ⟨h₄.written_nil, hr, List.mem_cons_of_mem _ hlisted, (hidle rfl).idle,
        fun hmode => ((hidle rfl).repels hmode).mono (List.subset_cons_self ..)⟩
    split
    · simp only [follows_bind]
      refine follows_nowRfc3339.mpr ⟨trivial, fun t => ?_⟩
      have h₅ : Extends [] (⟨.now, t⟩ :: ⟨.now, now⟩ :: tr') := h₄.step ⟨rfl, rfl, rfl, rfl⟩
      refine follows_writeStatus.mpr ⟨allowed_write h₅.knows_view (.settles _ hp r pods ?_), trivial⟩
      exact ⟨h₅.written_nil, hr, List.mem_cons_of_mem _ hlook.listed, hlook.idle,
        fun hmode => (hlook.repels hmode).mono (List.subset_cons_self ..)⟩
    · rename_i elapsed hsince
      have hsettled : (viewStatus view).quiescedAt.isSome = true := by
        obtain ⟨at_, hat, -⟩ := Option.bind_eq_some_iff.mp hsince
        rw [hat]
        rfl
      split_ifs
      · trivial
      · exact follows_advance (allowed_write h₄.knows_view
          (.quiesced r pods hp hlook.wrote hr hlook.listed hlook.idle hlook.repels hsettled))

/-! ## Target selection -/

section Reads
variable {ok : Trace → Call → Prop}

theorem follows_storageClassOf (hr : ReadsAllowed ok) {pv : Obj .pv}
    {post : Trace → Option (Obj .storageClass) → Prop}
    (hpost : ∀ tr' sc, Extends tr tr' → post tr' sc) :
    Follows ok post tr (storageClassOf pv) := by
  unfold storageClassOf
  cases (pvSpec pv).bind (·.storageClassName) with
  | none => exact hpost tr none (Extends.refl tr)
  | some sc =>
    exact follows_getOpt.mpr ⟨hr.get _ _ _, fun o => hpost _ o ((Extends.refl tr).saw ..)⟩

theorem follows_scPoolname (hr : ReadsAllowed ok) {pv : Obj .pv}
    {post : Trace → Option String → Prop} (hpost : ∀ tr' pool, Extends tr tr' → post tr' pool) :
    Follows ok post tr (scPoolname pv) := by
  simp only [scPoolname, bind_eq, follows_bind]
  refine follows_storageClassOf hr fun tr' sc hext => ?_
  rcases sc with _ | ⟨_, _⟩
  · exact hpost tr' _ hext
  · exact hpost tr' _ hext

theorem follows_allowedNodeIds (hr : ReadsAllowed ok) {pv : Obj .pv}
    {post : Trace → Option (List String) → Prop}
    (hpost : ∀ tr' ids, Extends tr tr' → post tr' ids) :
    Follows ok post tr (allowedNodeIds pv) := by
  simp only [allowedNodeIds, bind_eq, follows_bind]
  refine follows_storageClassOf hr fun tr' sc hext => ?_
  rcases sc with _ | ⟨m, sc⟩
  · exact hpost tr' _ hext
  · simp only
    split
    · exact hpost tr' _ hext
    · split_ifs
      · exact hpost tr' _ hext
      · trivial
      · exact hpost tr' _ hext

theorem follows_selectTarget (hr : ReadsAllowed ok) {input : SelectionInput}
    {post : Trace → TargetInfo → Prop}
    (hpost : ∀ tr' t sview destPool zfsNodes, Extends tr tr' →
      listedEvent .node {} sview.nodes ∈ tr' →
      (HoldsSelection tr → ListedInSelection tr' sview.evacs) →
      chooseTarget cfg input sview destPool zfsNodes = .ok t → post tr' t) :
    Follows ok post tr (selectTarget cfg input) := by
  simp only [selectTarget, bind_eq, follows_bind, follows_listObjs]
  refine ⟨hr.list _ _ _, fun nodes => ⟨hr.list _ _ _, fun evacs => ?_⟩⟩
  have h₁ := ((Extends.refl tr).listed .node {} nodes).listed .evacuation {} evacs
  refine follows_scPoolname hr fun tr₁ scPool hext₁ => ?_
  refine follows_allowedNodeIds hr fun tr₂ allowedIds hext₂ => ?_
  refine ⟨hr.list _ _ _, fun zfsNodes => ?_⟩
  have hlist := (hext₁.trans hext₂).listed .zfsNode { ns := some cfg.openebsNs } zfsNodes
  split
  · rename_i t hchosen
    refine hpost _ t _ _ _ (h₁.trans hlist) ?_ (fun hheld => ?_) hchosen
    · exact hlist.mono (by simp)
    · have hheld' := ((Extends.refl tr).listed .node {} nodes).holds hheld
      exact ⟨_, hlist.suffix, hheld'⟩
  · trivial

theorem follows_classifyClaim (hr : ReadsAllowed ok) {ns sourceNodeId claim : String}
    {post : Trace → Option Contribution → Prop}
    (hpost : ∀ tr' c, Extends tr tr' →
      (HoldsSelection tr → ClaimSeen cfg view tr' ns sourceNodeId claim c) → post tr' c) :
    Follows ok post tr (classifyClaim cfg view.name ns sourceNodeId claim) := by
  simp only [classifyClaim, bind_eq, follows_bind, follows_getOpt]
  refine ⟨hr.get _ _ _, fun pvc => ?_⟩
  have h₁ := (Extends.refl tr).saw .pvc ⟨ns, claim⟩ pvc
  cases pvc with
  | none => exact hpost _ _ h₁ fun _ => .noClaim (by simp)
  | some pvc =>
    obtain ⟨m, pvc⟩ := pvc
    simp only
    cases hv : pvc.volumeName with
    | none => exact hpost _ _ h₁ fun _ => .unbound m pvc (by simp) hv
    | some memberPv =>
      simp only [follows_bind, follows_getOpt]
      refine ⟨hr.get _ _ _, fun pv => ?_⟩
      have h₂ := h₁.saw .pv ⟨"", memberPv⟩ pv
      cases pv with
      | none => exact hpost _ _ h₂ fun _ => .noPv m pvc memberPv (by simp) hv (by simp)
      | some pv =>
        simp only
        cases hcsi : (pvSpec pv).bind (·.csi) with
        | none =>
          exact hpost _ _ h₂ fun _ =>
            .notZfs m pvc memberPv pv (by simp) hv (by simp) (by simp [hcsi])
        | some csi =>
          by_cases hdriver : csi.driver = zfsDriver
          · simp only [hdriver, ne_eq, not_true_eq_false, if_false, follows_bind, follows_getOpt]
            refine ⟨hr.get _ _ _, fun zv => ?_⟩
            have h₃ := h₂.saw .zfsVolume ⟨cfg.openebsNs, csi.volumeHandle⟩ zv
            cases zv with
            | none =>
              exact hpost _ _ h₃ fun _ =>
                .noVolume m pvc memberPv pv csi (by simp) hv (by simp) hcsi (by simp)
            | some zv =>
              obtain ⟨mv, zv⟩ := zv
              simp only
              split_ifs with hown
              · subst hown
                exact hpost _ _ h₃ fun _ => .own m pvc zv (by simp) hv
              · simp only [follows_bind, follows_getOpt]
                refine ⟨hr.get _ _ _, fun e => hpost _ _ (h₃.saw ..) fun hheld => ?_⟩
                exact .sibling m pvc memberPv pv csi mv zv e (by simp) hv (by simp) hcsi hdriver
                  (by simp) hown ⟨_, List.suffix_refl _, h₃.holds hheld⟩
          · simp only [hdriver, ne_eq, not_false_eq_true, if_true]
            refine hpost _ _ h₂ fun _ => .notZfs m pvc memberPv pv (by simp) hv (by simp) ?_
            intro csi' h
            rw [hcsi] at h
            cases h
            exact hdriver

theorem ClaimSeen.mono {ns sourceNodeId claim : String} {c : Option Contribution} {tr' : Trace}
    (hext : Extends tr tr') (h : ClaimSeen cfg view tr ns sourceNodeId claim c) :
    ClaimSeen cfg view tr' ns sourceNodeId claim c := by
  have hsub := hext.mono
  cases h with
  | noClaim h => exact .noClaim (hsub h)
  | unbound m pvc h hv => exact .unbound m pvc (hsub h) hv
  | noPv m pvc memberPv h hv hpv => exact .noPv m pvc memberPv (hsub h) hv (hsub hpv)
  | notZfs m pvc memberPv pv h hv hpv hcsi =>
    exact .notZfs m pvc memberPv pv (hsub h) hv (hsub hpv) hcsi
  | noVolume m pvc memberPv pv csi h hv hpv hcsi hvol =>
    exact .noVolume m pvc memberPv pv csi (hsub h) hv (hsub hpv) hcsi (hsub hvol)
  | own m pvc zv h hv => exact .own m pvc zv (hsub h) hv
  | sibling m pvc memberPv pv csi mv zv e h hv hpv hcsi hdriver hvol hother he =>
    exact .sibling m pvc memberPv pv csi mv zv e (hsub h) hv (hsub hpv) hcsi hdriver (hsub hvol)
      hother (hext.readInSelection he)

theorem ClaimsSeen.mono {ns sourceNodeId : String} {claims : List String} {cs : List Contribution}
    {tr' : Trace} (hext : Extends tr tr') (h : ClaimsSeen cfg view tr ns sourceNodeId claims cs) :
    ClaimsSeen cfg view tr' ns sourceNodeId claims cs := by
  induction h with
  | nil => exact .nil
  | cons claim claims c cs head tail ih => exact .cons claim claims c cs (head.mono hext) ih

theorem follows_classifyClaims (hr : ReadsAllowed ok) {ns sourceNodeId : String} {claims : List String}
    {post : Trace → List Contribution → Prop}
    (hpost : ∀ tr' cs, Extends tr tr' →
      (HoldsSelection tr → ClaimsSeen cfg view tr' ns sourceNodeId claims cs) → post tr' cs) :
    Follows ok post tr
      (classifyClaims cfg view.name ns sourceNodeId claims) := by
  induction claims generalizing tr post with
  | nil => exact hpost tr [] (Extends.refl tr) fun _ => .nil
  | cons claim claims ih =>
    simp only [classifyClaims, bind_eq, follows_bind]
    refine follows_classifyClaim hr fun tr₁ c hext₁ hc => ?_
    refine ih fun tr₂ cs hext₂ hcs => ?_
    exact hpost tr₂ _ (hext₁.trans hext₂) fun hheld =>
      .cons claim claims c cs ((hc hheld).mono hext₂) (hcs (hext₁.holds hheld))

theorem GroupSeen.mono {r : PvcRef} {sourceNodeId : String} {group : Option Group} {tr' : Trace}
    (hext : Extends tr tr') (h : GroupSeen cfg view tr r sourceNodeId group) :
    GroupSeen cfg view tr' r sourceNodeId group := by
  obtain ⟨pods, hlist, hgroup⟩ := h
  refine ⟨pods, hext.mono hlist, ?_⟩
  split at hgroup
  · exact hgroup
  · obtain ⟨cs, g, hg, hcs, hanchor⟩ := hgroup
    exact ⟨cs, g, hg, hcs.mono hext, hanchor⟩

theorem follows_resolve (hr : ReadsAllowed ok) {r : PvcRef} {sourceNodeId : String}
    {pods : List (Obj .pod)} {post : Trace → Option Group → Prop}
    (hpost : ∀ tr' group, Extends tr tr' → (HoldsSelection tr →
      match (unscheduledPods pods).head? with
        | none => group = none
        | some pod => ∃ cs g, group = some g ∧
            ClaimsSeen cfg view tr' r.ns sourceNodeId (podPvcNames pod) cs ∧
            g.anchor = pickAnchor (anchorsOf cs)) → post tr' group) :
    Follows ok post tr (resolve cfg view.name r sourceNodeId pods) := by
  unfold resolve
  cases hpod : (unscheduledPods pods).head? with
  | none => exact hpost tr none (Extends.refl tr) (by simp [hpod])
  | some pod =>
    simp only [bind_eq, follows_bind]
    refine follows_classifyClaims hr fun tr' cs hext hcs => ?_
    refine hpost tr' _ hext fun hheld => ?_
    rw [hpod]
    exact ⟨cs, _, rfl, hcs hheld, rfl⟩

end Reads

/-- Calls that only read. -/
def ReadCall (_ : Trace) : Call → Prop
  | .get .. | .list .. => True
  | _ => False

theorem ReadCall.silent {c : Call} (h : ReadCall tr c) : Silent c := by
  cases c with
  | get k key => exact ⟨rfl, rfl, rfl, rfl⟩
  | list k sel => exact ⟨rfl, rfl, rfl, rfl⟩
  | _ => exact h.elim

/-- The calls of the body of target selection: allowed ones, and the lock is not given back. -/
def WithinSelection (cfg : Config) (view : Obj .evacuation) (tr : Trace) (c : Call) : Prop :=
  Allowed cfg view tr c ∧ unlocksSelection c = false

theorem within_reads : ReadsAllowed (WithinSelection cfg view) :=
  ⟨fun _ _ _ => ⟨trivial, rfl⟩, fun _ _ _ => ⟨trivial, rfl⟩⟩

theorem within_write (h : Extends [] tr) (hw : Writes cfg view tr (viewStatus view) w) :
    WithinSelection cfg view tr (.patch .evacuation ⟨"", view.name⟩ (.status w)) :=
  ⟨allowed_write h.knows_view hw, rfl⟩

theorem ReadCall.within {c : Call} (h : ReadCall tr c) : WithinSelection cfg view tr c := by
  cases c with
  | get k key => exact ⟨trivial, rfl⟩
  | list k sel => exact ⟨trivial, rfl⟩
  | _ => exact h.elim

/-- Whatever the group, the choice is made and recorded in the same way. -/
theorem recordChoice_follows {source : SourceInfo} {r : PvcRef} {pv : Obj .pv}
    {evacs : List (Obj .evacuation)} {tr' : Trace} {group : Option Group} (h : Extends [] tr)
    (hp : (viewStatus view).phase = .targetSelecting) (hs : (viewStatus view).source = some source)
    (hr : (viewStatus view).pvcRef = some r) (hl : HoldsSelection tr)
    (hbusy : ¬ sourceBusy view.name source.nodeId evacs = true)
    (hext : Extends (sawEvent .pv (pvKey view) (some pv) ::
      listedEvent .evacuation {} evacs :: tr) tr')
    (hgroup : match (specOf view).mode with
      | .whenIdle => group = none
      | .whenClaimed => GroupSeen cfg view tr' r source.nodeId group) :
    Follows (WithinSelection cfg view) (fun _ _ => True) tr' (do
      let chosen : Except Error TargetInfo ← tryCatch
        (do pure (.ok (← selectTarget cfg
          (selectionInput view.name (specOf view) source pv group))))
        (fun e => pure (.error e))
      match chosen with
      | .ok t => do
        let r : Nat ← send (.random (2 ^ 128))
        advance view.name { viewStatus view with
          colocation := group.map (colocationStatus (specOf view))
          target := some { t with newVolumeHandle := newDestinationHandle r } } .transferring
      | .error e => wait view.name (viewStatus view) ("no target yet: " ++ e.text) 60) := by
  have h₂ := (h.listed .evacuation {} evacs).saw .pv (pvKey view) (some pv)
  have hl₂ := (((Extends.refl tr).listed .evacuation {} evacs).saw .pv (pvKey view) (some pv)).holds hl
  have h₃ := h₂.trans hext
  have hl₃ := hext.holds hl₂
  simp only [bind_eq, follows_bind]
  refine follows_tryCatch ReadCall (Extends tr') (Extends.refl tr')
    (fun _ _ _ hinv hc => hinv.step hc.silent) (fun _ _ hc => hc.within) ?_ ?_
  · simp only [pure_eq, follows_bind, follows_ret]
    refine follows_selectTarget ⟨fun _ _ _ => trivial, fun _ _ _ => trivial⟩ ?_
    intro tr'' t sview destPool zfsNodes hext' hnodes hevacs hchosen
    refine follows_random_bind.mpr ⟨⟨trivial, rfl⟩, fun rand => ?_⟩
    have hext₄ : Extends tr'' (⟨.random (2 ^ 128), rand⟩ :: tr'') :=
      (Extends.refl tr'').step ⟨rfl, rfl, rfl, rfl⟩
    have h₄ := (h₃.trans hext').trans hext₄
    have hext₅ := hext'.trans hext₄
    refine follows_advance (within_write h₄
      (.selected source r group t rand hp hs hr ⟨hext₅.holds hl₃, ?_, ?_, ?_⟩))
    · cases hmode : (specOf view).mode with
      | whenIdle => simpa [hmode] using hgroup
      | whenClaimed =>
        rw [hmode] at hgroup
        exact hgroup.mono hext₅
    · have hlisted : ListedInSelection (listedEvent .evacuation {} evacs :: tr) evacs :=
        ⟨tr, List.suffix_refl _, hl⟩
      have hlater := ((Extends.refl _).saw .pv (pvKey view) (some pv)).trans (hext.trans hext₅)
      exact ⟨evacs, hlater.listedInSelection hlisted, by simpa using hbusy⟩
    · exact ⟨pv, sview, destPool, zfsNodes, hext₄.mono hnodes,
        hext₄.listedInSelection (hevacs hl₃), hchosen⟩
  · intro tr'' e hext'
    simp only [pure_eq, follows_ret]
    exact follows_wait (within_write (h₃.trans hext')
      (.shown _ (by simp [hp]) (by simp [hp])))

theorem selectAndRecord_follows {source : SourceInfo} {r : PvcRef} (h : Extends [] tr)
    (hp : (viewStatus view).phase = .targetSelecting) (hs : (viewStatus view).source = some source)
    (hr : (viewStatus view).pvcRef = some r) (hl : HoldsSelection tr) :
    Follows (WithinSelection cfg view) (fun _ _ => True) tr
      (selectAndRecord cfg view (viewStatus view) source r) := by
  simp only [selectAndRecord, bind_eq, follows_bind, follows_listObjs]
  refine ⟨⟨trivial, rfl⟩, fun evacs => ?_⟩
  have h₁ := h.listed .evacuation {} evacs
  by_cases hbusy : sourceBusy view.name source.nodeId evacs = true
  · rw [if_pos hbusy]
    exact follows_wait (within_write h₁ (.shown _ (by simp [hp]) (by simp [hp])))
  rw [if_neg hbusy]
  simp only [follows_bind, follows_getOpt]
  refine ⟨⟨trivial, rfl⟩, fun pv => ?_⟩
  have h₂ := h₁.saw .pv (pvKey view) pv
  cases pv with
  | none => exact follows_fail (within_write h₂ (.pvLost _ hp evacs tr rfl))
  | some pv =>
    cases hmode : (specOf view).mode with
    | whenIdle =>
      exact recordChoice_follows h hp hs hr hl hbusy (Extends.refl _) (by simp [hmode])
    | whenClaimed =>
      simp only [follows_bind]
      refine follows_podsReferencingPvc within_reads fun pods => ?_
      refine follows_resolve within_reads fun tr' group hext hgroup => ?_
      refine (follows_bind _ _).mp (recordChoice_follows h hp hs hr hl hbusy
        (((Extends.refl _).listed ..).trans hext) ?_)
      rw [hmode]
      have hread := (((Extends.refl tr).listed .evacuation {} evacs).saw .pv (pvKey view)
        (some pv)).listed .pod { ns := some r.ns } pods
      exact ⟨pods, hext.mono (List.mem_cons_self ..), hgroup (hread.holds hl)⟩

theorem targetSelecting_follows (h : Extends [] tr)
    (hp : (viewStatus view).phase = .targetSelecting) :
    Follows (Allowed cfg view) (fun _ _ => True) tr
      (targetSelecting cfg view (viewStatus view)) := by
  simp only [targetSelecting, bind_eq, follows_bind, follows_orErr]
  refine fun source hs r hr => ⟨trivial, fun _ => ?_⟩
  have h₁ : Extends [] (⟨.lockSelection, ()⟩ :: tr) := h.step ⟨rfl, rfl, rfl, rfl⟩
  have hheld : HoldsSelection (⟨.lockSelection, ()⟩ :: tr) :=
    ⟨List.mem_cons_self .., fun e he => (h₁.silent e he).elim (fun hnil => by cases hnil) Silent.unlock⟩
  have hbody : Follows (WithinSelection cfg view) (fun _ _ => True) (⟨.lockSelection, ()⟩ :: tr)
      (selectAndRecord cfg view (viewStatus view) source r) :=
    selectAndRecord_follows h₁ hp hs hr hheld
  exact follows_andFinally (WithinSelection cfg view) HoldsSelection hheld
    (fun _ _ _ hl hc => hl.cons hc.2) (fun _ _ hc => hc.1)
    (fun _ hl => ⟨hl, fun _ => trivial⟩) hbody

end Handlers

end ZfsEvacuation
