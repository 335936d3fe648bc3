import ZfsEvacuation.CooperativeCluster
import ZfsEvacuation.SwapWindow

/-!
# Rounds of a swap

What one reconcile of a committed evacuation makes of the PV when every call succeeds, and
how many of them it takes until the replacement is bound, wherever the swap was left.
-/
namespace ZfsEvacuation
open ClientProgram Program

/-- The spec of a PV without its reclaim policy. -/
def unpoliced (spec : PersistentVolumeSpec) : PersistentVolumeSpec :=
  { spec with persistentVolumeReclaimPolicy := none }

theorem ignoresPolicy_unpoliced : System.IgnoresPolicy unpoliced := fun _ _ => rfl

theorem spec_of_unpoliced {pv pv' : Obj .pv} {spec : PersistentVolumeSpec}
    (h : System.observed unpoliced pv' = System.observed unpoliced pv) (hspec : pvSpec pv = some spec) :
    ∃ policy, pvSpec pv' = some { spec with persistentVolumeReclaimPolicy := policy } := by
  rw [System.observed, System.observed, hspec, Option.map_some] at h
  obtain ⟨spec', hspec', hsame⟩ := Option.map_eq_some_iff.mp h
  refine ⟨spec'.persistentVolumeReclaimPolicy, ?_⟩
  have hback := congrArg (fun x : PersistentVolumeSpec =>
    { x with persistentVolumeReclaimPolicy := spec'.persistentVolumeReclaimPolicy }) hsame
  rw [hspec']
  exact congrArg some hback

/-! ## What a reconcile of a swap finds -/

def podsOf (w : World) (r : PvcRef) : List (Obj .pod) :=
  (w.list .pod { ns := some r.ns }).filter (podReferencesPvc r.name)

/-- Nothing speaks against the copy or the swap. -/
def Unhindered (cfg : Config) (w : World) (evac : Obj .evacuation) (source : SourceInfo)
    (r : PvcRef) : Prop :=
  match (specOf evac).mode with
  | .whenIdle => podsOf w r = []
  | .whenClaimed => (podsOf w r).filter podIsScheduled = [] ∧
      ∀ node, w.get .node ⟨"", source.node⟩ = some node →
        nodeRepelsPods node cfg.taintKey = true

section Handlers
variable {cfg : Config} {evac : Obj .evacuation} {st : ZFSEvacuationStatus} {source : SourceInfo}
  {r : PvcRef} {w : World} {err : Error → World → Prop} {n : String}

theorem ends_sourceRepelsPods {ok : Bool → World → Prop} (hs : st.source = some source)
    (h : ∀ node, w.get .node ⟨"", source.node⟩ = some node →
      nodeRepelsPods node cfg.taintKey = true) (hok : ok true w) :
    Ends cluster ok err (sourceRepelsPods cfg st) w := by
  simp only [sourceRepelsPods, hs, orErr, pure_eq, bind_eq, ret_bind, ends_bind, ends_getOpt]
  cases hnode : w.get .node ⟨"", source.node⟩ with
  | none => exact hok
  | some node =>
    have hrepels := h node hnode
    simp only [ends_ret, hrepels]
    exact hok

theorem ends_blockingReason {ok : Option String → World → Prop} (hs : st.source = some source)
    (h : Unhindered cfg w evac source r) (hok : ok none w) :
    Ends cluster ok err (blockingReason cfg evac st (podsOf w r)) w := by
  unfold Unhindered at h
  unfold blockingReason
  cases hmode : (specOf evac).mode with
  | whenIdle =>
    simp only [hmode] at h ⊢
    rw [h]
    exact hok
  | whenClaimed =>
    simp only [hmode] at h ⊢
    rw [h.1]
    simp only [List.isEmpty_nil, Bool.not_true, Bool.false_eq_true, if_false, bind_eq, ends_bind]
    refine ends_sourceRepelsPods hs h.2 ?_
    simpa using hok

theorem ends_podsReferencingPvc {ok : List (Obj .pod) → World → Prop} :
    Ends cluster ok err (podsReferencingPvc r.ns r.name) w ↔ ok (podsOf w r) w := Iff.rfl

/-- A reconcile of a swap is nothing but the swap. -/
theorem reconcile_swapping (hst : viewStatus evac = st) (hphase : st.phase = .swapping)
    (hcommitted : st.committed = true)
    (hfin : evacuationFinalizer ∈ evac.metadata.finalizers) :
    reconcile cfg evac = swapping cfg evac st := by
  have hsigned : evac.metadata.finalizers.any (· == evacuationFinalizer) = true := by
    simpa using hfin
  have hensure : ensureEvacFinalizer evac = pure () := by
    rw [ensureEvacFinalizer, if_pos hsigned]
  simp only [reconcile, hst, hphase, hcommitted, hensure, handlePhase]
  cases evac.deleting <;> rfl

end Handlers

/-! ## The old PV -/

theorem stripPvFinalizers_eq_nil {fs : List String}
    (h : ∀ f ∈ fs, f = pvProtection ∨ f = provisionerFinalizer) : stripPvFinalizers fs = [] := by
  rw [stripPvFinalizers, List.filter_eq_nil_iff]
  intro f hf
  rcases h f hf with rfl | rfl <;> simp

section Removal
variable {w : World} {key : Key} {pv : Obj .pv} {err : Error → World → Prop}
  {ok : Unit → World → Prop}

/-- Without its finalizers a PV that is being deleted is gone. -/
theorem ends_stripPv (hpv : w.get .pv key = some pv) (hdel : pv.deleting = true)
    (hkept : pv.gone = false)
    (hall : ∀ f ∈ pv.metadata.finalizers, f = pvProtection ∨ f = provisionerFinalizer)
    (hok : ∀ w', w'.get .pv key = none → SameBut .pv key w w' → w.revision ≤ w'.revision →
      ok () w') : Ends cluster ok err (setFinalizers .pv key stripPvFinalizers) w := by
  have hstrip := stripPvFinalizers_eq_nil hall
  have hne : stripPvFinalizers pv.metadata.finalizers ≠ pv.metadata.finalizers := by
    intro heq
    rw [hstrip] at heq
    simp [Obj.gone, hdel, ← heq] at hkept
  simp only [setFinalizers, bind_eq, ends_bind, ends_getOpt, hpv]
  rw [if_pos hne]
  refine (ends_patchObj hpv).mpr (hok _ ?_ (.patch w _) (World.revision_le_effect w _))
  rw [World.get_patch_self hpv, hstrip]
  have hgone : ((Patch.finalizers [] : Patch .pv).apply pv).gone = true := by
    have hdel' : ((Patch.finalizers [] : Patch .pv).apply pv).deleting = true := by
      rw [Patch.deleting_apply, hdel]
    rw [Obj.gone, hdel', Bool.true_and]
    rfl
  rw [hgone, if_pos rfl]

theorem ends_removePv (hpv : w.get .pv key = some pv) (hdel : pv.deleting = false)
    (hall : ∀ f ∈ pv.metadata.finalizers, f = pvProtection ∨ f = provisionerFinalizer)
    (hok : ∀ w', w'.get .pv key = none → SameBut .pv key w w' → w.revision ≤ w'.revision →
      ok () w') :
    Ends cluster (fun _ w₁ => Ends cluster ok err (setFinalizers .pv key stripPvFinalizers) w₁)
      err (deleteObj .pv key) w := by
  refine (ends_deleteObj hpv).mpr ?_
  have hle := World.revision_le_effect w (.delete .pv key)
  have hself := World.get_delete_self hpv hdel
  cases hgone : (pv.marked (w.now / 10 ^ 9)).gone with
  | true =>
    rw [hgone, if_pos rfl] at hself
    simp only [setFinalizers, bind_eq, ends_bind, ends_getOpt, hself]
    exact hok _ hself (.delete w) hle
  | false =>
    rw [hgone, if_neg Bool.false_ne_true] at hself
    refine ends_stripPv hself rfl hgone hall fun w' hnone hsame hle' => ?_
    exact hok w' hnone ((SameBut.delete w).trans hsame) (Nat.le_trans hle hle')

end Removal

/-! ## One round -/

/-- What a status has on record between the commit and the end of the swap. -/
structure SwapPlan (n : String) (st : ZFSEvacuationStatus) (source : SourceInfo) (r : PvcRef)
    (newPv : Obj .pv) (spec : PersistentVolumeSpec) : Prop where
  phase : st.phase = .swapping
  committed : st.committed = true
  source_eq : st.source = some source
  claim_eq : st.pvcRef = some r
  manifest : st.newPvManifest = some (newPv.metadata, newPv.data)
  replacement : ∃ target, st.target = some target ∧ IsReplacement n r target newPv spec

/-- The evacuation is stored in the middle of its swap, and its PV is the old one or the one
of the manifest, or there is none. -/
structure SwapPoint (n : String) (st : ZFSEvacuationStatus) (source : SourceInfo) (w : World) :
    Prop where
  stored : ∃ e, w.get .evacuation ⟨"", n⟩ = some e ∧ viewStatus e = st ∧ (specOf e).pvName = n ∧
    evacuationFinalizer ∈ e.metadata.finalizers
  pv : ∀ pv, w.get .pv ⟨"", n⟩ = some pv → System.OldOrNew unpoliced st pv
  kept : ∀ pv, w.get .pv ⟨"", n⟩ = some pv → pv.gone = false
  fresh : source.pvUid < w.revision

/-- Exactly the replacement is there, bound to the recorded claim and under the recorded
policy, and the cleanup is the next phase. -/
structure SwapDone (n : String) (st : ZFSEvacuationStatus) (source : SourceInfo) (r : PvcRef)
    (spec : PersistentVolumeSpec) (w : World) : Prop where
  stored : ∃ e, w.get .evacuation ⟨"", n⟩ = some e ∧
    (viewStatus e).core = { st with phase := .cleaningUp, message := none }.core
  pv : ∃ pv policy, w.get .pv ⟨"", n⟩ = some pv ∧ pv.metadata.uid ≠ source.pvUid ∧
    pvSpec pv = some { spec with persistentVolumeReclaimPolicy := policy } ∧
    (∀ orig, st.originalReclaimPolicy = some orig → policy = some orig) ∧
    boundTo pv r.uid = true

/-- All that one reconcile of a swap can do. -/
inductive SwapRound (n : String) (st : ZFSEvacuationStatus) (source : SourceInfo) (r : PvcRef)
    (newPv : Obj .pv) (spec : PersistentVolumeSpec) (w w' : World) : Prop
  | removed (pv : Obj .pv) (stored : w.get .pv ⟨"", n⟩ = some pv)
      (old : pv.metadata.uid = source.pvUid) (gone : w'.get .pv ⟨"", n⟩ = none)
      (same : SameBut .pv ⟨"", n⟩ w w') (revision : w.revision ≤ w'.revision)
  | created (absent : w.get .pv ⟨"", n⟩ = none)
      (stored : w'.get .pv ⟨"", n⟩ = some ((newPv.born w.revision).stamped w.revision))
      (same : SameBut .pv ⟨"", n⟩ w w') (revision : w.revision ≤ w'.revision)
  | waited (pv : Obj .pv) (stored : w.get .pv ⟨"", n⟩ = some pv)
      (new : pv.metadata.uid ≠ source.pvUid) (unbound : boundTo pv r.uid = false)
      (same : w' = w)
  | finished (pv : Obj .pv) (stored : w.get .pv ⟨"", n⟩ = some pv)
      (new : pv.metadata.uid ≠ source.pvUid) (bound : boundTo pv r.uid = true)
      (done : SwapDone n st source r spec w')

theorem boundTo_reclaimPolicy (pv : Obj .pv) (policy : String) (uid : Uid) :
    boundTo ((Patch.reclaimPolicy policy).apply pv) uid = boundTo pv uid := by
  obtain ⟨m, data⟩ := pv
  cases hspec : PersistentVolume.spec data with
  | none => simp [boundTo, Patch.apply, pvSpec, hspec]
  | some spec => simp [boundTo, Patch.apply, pvSpec, hspec]

theorem pvSpec_reclaimPolicy (pv : Obj .pv) (policy : String) :
    pvSpec ((Patch.reclaimPolicy policy).apply pv) =
      (pvSpec pv).map fun spec => { spec with persistentVolumeReclaimPolicy := some policy } := rfl

section Rounds
variable {cfg : Config} {evac : Obj .evacuation} {st : ZFSEvacuationStatus} {source : SourceInfo}
  {r : PvcRef} {newPv : Obj .pv} {spec : PersistentVolumeSpec} {w : World} {n : String}

/-- A PV of another identity is the replacement, whatever its policy is. -/
theorem SwapPlan.new_spec (hp : SwapPlan n st source r newPv spec)
    (hpt : SwapPoint n st source w) {pv : Obj .pv} (hpv : w.get .pv ⟨"", n⟩ = some pv)
    (hnew : pv.metadata.uid ≠ source.pvUid) :
    ∃ policy, pvSpec pv = some { spec with persistentVolumeReclaimPolicy := policy } := by
  rcases hpt.pv pv hpv with ⟨source', hs, hold⟩ | ⟨manifest, hm, hsame⟩
  · obtain rfl : source = source' := Option.some.inj (hp.source_eq.symm.trans hs)
    exact absurd hold hnew
  · obtain rfl : (newPv.metadata, newPv.data) = manifest :=
      Option.some.inj (hp.manifest.symm.trans hm)
    obtain ⟨target, -, hrepl⟩ := hp.replacement
    exact spec_of_unpoliced hsame hrepl.spec_eq

/-- The end of the swap: the PV has its policy back, and then the status says so. -/
theorem ends_advance_swapped {err : Error → World → Prop} {evac : Obj .evacuation} {w₁ : World}
    {ok : Action → World → Prop} (he : w₁.get .evacuation ⟨"", n⟩ = some evac)
    (hfin : evacuationFinalizer ∈ evac.metadata.finalizers)
    (hpv : ∃ pv policy, w₁.get .pv ⟨"", n⟩ = some pv ∧ pv.metadata.uid ≠ source.pvUid ∧
      pvSpec pv = some { spec with persistentVolumeReclaimPolicy := policy } ∧
      (∀ orig, st.originalReclaimPolicy = some orig → policy = some orig) ∧
      boundTo pv r.uid = true)
    (hok : ∀ a w', SwapDone n st source r spec w' → ok a w') :
    Ends cluster ok err (advance n st .cleaningUp) w₁ := by
  simp only [advance, bind_eq, pure_eq, ends_bind]
  refine (ends_writeStatus he).mpr (hok _ _ ⟨?_, ?_⟩)
  · have hkept : ((Patch.status { st with phase := .cleaningUp, message := none }).apply
        evac).gone = false := by
      have hne : evac.metadata.finalizers.isEmpty = false := by
        cases hnil : evac.metadata.finalizers with
        | nil =>
          rw [hnil] at hfin
          cases hfin
        | cons _ _ => rfl
      simp only [Obj.gone, Patch.deleting_apply]
      rw [show ((Patch.status { st with phase := .cleaningUp, message := none }).apply
        evac).metadata = evac.metadata from rfl, hne, Bool.and_false]
    have hself := World.get_patch_self he
      (.status { st with phase := .cleaningUp, message := none })
    rw [hkept, if_neg Bool.false_ne_true] at hself
    exact ⟨_, hself, core_mergeStatus _ _⟩
  · obtain ⟨pv, policy, hget, hrest⟩ := hpv
    refine ⟨pv, policy, ?_, hrest⟩
    rw [World.get_patch_other w₁ fun heq => by cases heq]
    exact hget

/-- The replacement is given its policy before the status moves on. -/
theorem ends_finishSwap {ok : Action → World → Prop} {err : Error → World → Prop}
    (hp : SwapPlan n st source r newPv spec) (hpt : SwapPoint n st source w)
    (he : w.get .evacuation ⟨"", n⟩ = some evac)
    (hfin : evacuationFinalizer ∈ evac.metadata.finalizers) {pv : Obj .pv}
    (hpv : w.get .pv ⟨"", n⟩ = some pv) (hnew : pv.metadata.uid ≠ source.pvUid)
    (hbound : boundTo pv r.uid = true)
    (hok : ∀ a w', SwapDone n st source r spec w' → ok a w') :
    Ends cluster ok err (do
      match st.originalReclaimPolicy with
      | some orig => patchObj .pv ⟨"", n⟩ (.reclaimPolicy orig)
      | none => pure ()
      advance n st .cleaningUp) w := by
  obtain ⟨policy, hspec⟩ := hp.new_spec hpt hpv hnew
  cases horig : st.originalReclaimPolicy with
  | none =>
    refine ends_advance_swapped he hfin ⟨pv, policy, hpv, hnew, hspec, ?_, hbound⟩ hok
    intro orig hsome
    rw [horig] at hsome
    cases hsome
  | some orig =>
    simp only [bind_eq, ends_bind]
    refine (ends_patchObj hpv).mpr ?_
    have hself := World.get_patch_self hpv (.reclaimPolicy orig)
    have hkept : ((Patch.reclaimPolicy orig).apply pv).gone = false := hpt.kept pv hpv
    rw [hkept, if_neg Bool.false_ne_true] at hself
    have hstored : (w.effect (.patch .pv ⟨"", n⟩ (.reclaimPolicy orig))).get .evacuation
        ⟨"", n⟩ = some evac := by
      rw [World.get_patch_other w fun heq => by cases heq]
      exact he
    refine ends_advance_swapped hstored hfin ⟨_, some orig, hself, hnew, ?_, ?_, ?_⟩ hok
    · have hpatched := pvSpec_reclaimPolicy pv orig
      rw [hspec] at hpatched
      exact hpatched
    · intro orig' hsome
      rw [horig] at hsome
      exact hsome
    · exact (boundTo_reclaimPolicy pv orig r.uid).trans hbound

theorem ends_swapping {ok : Action → World → Prop} {err : Error → World → Prop}
    (hp : SwapPlan n st source r newPv spec) (hpt : SwapPoint n st source w)
    (he : w.get .evacuation ⟨"", n⟩ = some evac) (hpvName : (specOf evac).pvName = n)
    (hfin : evacuationFinalizer ∈ evac.metadata.finalizers)
    (hfree : Unhindered cfg w evac source r)
    (hall : ∀ pv, w.get .pv ⟨"", n⟩ = some pv → pv.metadata.uid = source.pvUid →
      ∀ f ∈ pv.metadata.finalizers, f = pvProtection ∨ f = provisionerFinalizer)
    (hok : ∀ a w', SwapRound n st source r newPv spec w w' → ok a w') :
    Ends cluster ok err (swapping cfg evac st) w := by
  have hname : evac.name = n := congrArg Key.name (World.get_key he)
  simp only [swapping, hp.source_eq, hp.claim_eq, orErr, pure_eq, bind_eq, ret_bind, ends_bind,
    ends_getOpt, hpvName, hname]
  cases hpv : w.get .pv ⟨"", n⟩ with
  | none =>
    obtain ⟨target, -, hrepl⟩ := hp.replacement
    have hkey : newPv.key = ⟨"", n⟩ := hrepl.key
    simp only [hp.manifest, ends_bind]
    have hself := World.get_create_self w (o := newPv) (by rw [hkey, hpv])
    rw [hkey] at hself
    have hsame : SameBut .pv ⟨"", n⟩ w (w.effect (.create .pv newPv)) := by
      intro k' key' hne
      refine World.get_create_other w newPv fun heq => ?_
      rw [hkey]
      exact hne heq
    exact ends_createIfAbsent.mpr
      (hok _ _ (.created hpv hself hsame (World.revision_le_effect w _)))
  | some pv =>
    simp only []
    by_cases hold : pv.metadata.uid = source.pvUid
    · rw [if_pos hold]
      have hall' := hall pv hpv hold
      cases hdel : pv.deleting with
      | true =>
        simp only [Bool.not_true, Bool.false_eq_true, if_false, ends_bind]
        exact ends_stripPv hpv hdel (hpt.kept pv hpv) hall' fun w' hgone hsame hle =>
          hok _ _ (.removed pv hpv hold hgone hsame hle)
      | false =>
        simp only [Bool.not_false, if_true, ends_bind, ends_podsReferencingPvc]
        refine ends_blockingReason hp.source_eq hfree ?_
        simp only [ends_bind]
        exact ends_removePv hpv hdel hall' fun w' hgone hsame hle =>
          hok _ _ (.removed pv hpv hold hgone hsame hle)
    · rw [if_neg hold]
      cases hbound : boundTo pv r.uid with
      | false =>
        simp only [Bool.false_eq_true, if_false]
        exact hok _ _ (.waited pv hpv hold hbound rfl)
      | true =>
        simp only [if_true]
        exact ends_finishSwap hp hpt he hfin hpv hold hbound fun a w' hdone =>
          hok a w' (.finished pv hpv hold hbound hdone)

/-- One reconcile of the stored evacuation, in which every call succeeds. -/
def World.reconciled (w : World) (cfg : Config) (n : String) : World :=
  match w.get .evacuation ⟨"", n⟩ with
  | none => w
  | some evac => (exec cluster (reconcile cfg evac) w).2

theorem reconciled_eq (he : w.get .evacuation ⟨"", n⟩ = some evac) :
    w.reconciled cfg n = (exec cluster (reconcile cfg evac) w).2 := by
  rw [World.reconciled, he]

/-- The finalizers that the swap takes off the old PV are all it has. -/
def OnlyPvFinalizers (n : String) (source : SourceInfo) (w : World) : Prop :=
  ∀ pv, w.get .pv ⟨"", n⟩ = some pv → pv.metadata.uid = source.pvUid →
    ∀ f ∈ pv.metadata.finalizers, f = pvProtection ∨ f = provisionerFinalizer

theorem swap_round (hp : SwapPlan n st source r newPv spec) (hpt : SwapPoint n st source w)
    (hfree : ∀ e, w.get .evacuation ⟨"", n⟩ = some e → Unhindered cfg w e source r)
    (hall : OnlyPvFinalizers n source w) :
    SwapRound n st source r newPv spec w (w.reconciled cfg n) := by
  obtain ⟨e, he, hst, hpvName, hfin⟩ := hpt.stored
  rw [reconciled_eq he, reconcile_swapping hst hp.phase hp.committed hfin]
  have hends : Ends cluster (fun _ => SwapRound n st source r newPv spec w)
      (fun _ => SwapRound n st source r newPv spec w) (swapping cfg e st) w :=
    ends_swapping hp hpt he hpvName hfin (hfree e he) hall fun _ _ hround => hround
  exact Ends.exec hends

end Rounds

/-! ## Round after round -/

/-- The claim that the PV names exists, with the identity that the PV names. -/
def Claimed (w : World) (pv : Obj .pv) : Prop :=
  ∃ ref pvc, (pvSpec pv).bind (·.claimRef) = some ref ∧
    w.get .pvc ⟨ref.ns.getD "", ref.name.getD ""⟩ = some pvc ∧ ref.uid = some pvc.metadata.uid

def pvPhase (pv : Obj .pv) : Option String :=
  let data : PersistentVolume := pv.data
  data.phase

/-- What happens between two reconciles of a swap: the evacuation keeps its status, nobody
else creates the PV or changes the spec of it, and the PV controller binds the replacement
to its claim. -/
structure Meanwhile (n : String) (source : SourceInfo) (w w' : World) : Prop where
  evac : ∀ e, w.get .evacuation ⟨"", n⟩ = some e → ∃ e', w'.get .evacuation ⟨"", n⟩ = some e' ∧
    statusOf e' = statusOf e ∧ (specOf e').pvName = (specOf e).pvName ∧
    (evacuationFinalizer ∈ e.metadata.finalizers → evacuationFinalizer ∈ e'.metadata.finalizers)
  pv : ∀ pv', w'.get .pv ⟨"", n⟩ = some pv' → pv'.gone = false ∧
    ∃ pv, w.get .pv ⟨"", n⟩ = some pv ∧ pv'.metadata.uid = pv.metadata.uid ∧
      System.observed unpoliced pv' = System.observed unpoliced pv
  binds : ∀ pv, w.get .pv ⟨"", n⟩ = some pv → pv.metadata.uid ≠ source.pvUid →
    ∃ pv', w'.get .pv ⟨"", n⟩ = some pv' ∧ (Claimed w' pv' → pvPhase pv' = some "Bound")
  revision : w.revision ≤ w'.revision

/-- Reconcile is repeated while the claim exists, nothing blocks it, and the old PV has no
finalizers of others. -/
structure Rerun (cfg : Config) (n : String) (source : SourceInfo) (r : PvcRef)
    (ws : Nat → World) : Prop where
  claim : ∀ i, ∃ pvc, (ws i).get .pvc r.key = some pvc ∧ pvc.metadata.uid = r.uid
  unhindered : ∀ i e, (ws i).get .evacuation ⟨"", n⟩ = some e → Unhindered cfg (ws i) e source r
  finalizers : ∀ i, OnlyPvFinalizers n source (ws i)
  meanwhile : ∀ i e, ((ws i).reconciled cfg n).get .evacuation ⟨"", n⟩ = some e →
    (viewStatus e).phase = .swapping →
      Meanwhile n source ((ws i).reconciled cfg n) (ws (i + 1))

/-- The replacement is there and bound. -/
def BoundAt (n : String) (source : SourceInfo) (r : PvcRef) (w : World) : Prop :=
  ∃ pv, w.get .pv ⟨"", n⟩ = some pv ∧ pv.metadata.uid ≠ source.pvUid ∧ boundTo pv r.uid = true

section Reruns
variable {cfg : Config} {n : String} {st : ZFSEvacuationStatus} {source : SourceInfo}
  {r : PvcRef} {newPv : Obj .pv} {spec : PersistentVolumeSpec} {w w' w₁ : World}
  {ws : Nat → World} {i : Nat}

/-- The replacement names the recorded claim, so the PV controller binds it. -/
theorem boundTo_of_replacement {target : TargetInfo} {pv : Obj .pv}
    {policy : Option String} (hrepl : IsReplacement n r target newPv spec)
    (hspec : pvSpec pv = some { spec with persistentVolumeReclaimPolicy := policy })
    (hclaim : ∃ pvc, w.get .pvc r.key = some pvc ∧ pvc.metadata.uid = r.uid)
    (hbinds : Claimed w pv → pvPhase pv = some "Bound") : boundTo pv r.uid = true := by
  obtain ⟨ref, href, hns, hname, huid⟩ := hrepl.claim
  obtain ⟨pvc, hpvc, hid⟩ := hclaim
  have hbound : pvPhase pv = some "Bound" := by
    refine hbinds ⟨ref, pvc, ?_, ?_, ?_⟩
    · rw [hspec]
      exact href
    · rw [hns, hname]
      exact hpvc
    · rw [huid, hid]
  have hphase : PersistentVolume.phase pv.data = some "Bound" := hbound
  simp [boundTo, hphase, hspec, href, huid]

/-- What a round has not touched is still a swap after whatever happens meanwhile. -/
theorem SwapPoint.meanwhile (hpt : SwapPoint n st source w) (hsame : SameBut .pv ⟨"", n⟩ w w₁)
    (hle : w.revision ≤ w₁.revision)
    (hpv : ∀ pv, w₁.get .pv ⟨"", n⟩ = some pv → System.OldOrNew unpoliced st pv)
    (hm : Meanwhile n source w₁ w') : SwapPoint n st source w' := by
  obtain ⟨e, he, hst, hpvName, hfin⟩ := hpt.stored
  have he₁ : w₁.get .evacuation ⟨"", n⟩ = some e := by
    rw [SameBut.other hsame (by decide)]
    exact he
  obtain ⟨e', he', hstatus, hname, hkeeps⟩ := hm.evac e he₁
  refine ⟨⟨e', he', ?_, hname.trans hpvName, hkeeps hfin⟩, fun pv' hpv' => ?_,
    fun pv' hpv' => (hm.pv pv' hpv').1, ?_⟩
  · rw [viewStatus, hstatus]
    exact hst
  · obtain ⟨-, pv, hget, huid, hobs⟩ := hm.pv pv' hpv'
    exact (hpv pv hget).of_pv huid hobs
  · exact Nat.lt_of_lt_of_le hpt.fresh (Nat.le_trans hle hm.revision)

/-- A replacement that has been created is bound by the next reconcile. -/
theorem bound_meanwhile (hp : SwapPlan n st source r newPv spec)
    (hpt : SwapPoint n st source w') {pv : Obj .pv} (hpv : w₁.get .pv ⟨"", n⟩ = some pv)
    (hnew : pv.metadata.uid ≠ source.pvUid) (hm : Meanwhile n source w₁ w')
    (hclaim : ∃ pvc, w'.get .pvc r.key = some pvc ∧ pvc.metadata.uid = r.uid) :
    BoundAt n source r w' := by
  obtain ⟨pv', hpv', hbinds⟩ := hm.binds pv hpv hnew
  obtain ⟨-, pv₁, hpv₁, huid, -⟩ := hm.pv pv' hpv'
  obtain rfl : pv = pv₁ := Option.some.inj (hpv.symm.trans hpv₁)
  have hnew' : pv'.metadata.uid ≠ source.pvUid := by rwa [huid]
  obtain ⟨policy, hspec⟩ := hp.new_spec hpt hpv' hnew'
  obtain ⟨target, -, hrepl⟩ := hp.replacement
  exact ⟨pv', hpv', hnew', boundTo_of_replacement hrepl hspec hclaim hbinds⟩

theorem Rerun.next (hrerun : Rerun cfg n source r ws) (hp : SwapPlan n st source r newPv spec)
    (hpt : SwapPoint n st source (ws i))
    (hsame : SameBut .pv ⟨"", n⟩ (ws i) ((ws i).reconciled cfg n)) :
    Meanwhile n source ((ws i).reconciled cfg n) (ws (i + 1)) := by
  obtain ⟨e, he, hst, -, -⟩ := hpt.stored
  refine hrerun.meanwhile i e ?_ (by rw [hst, hp.phase])
  rw [SameBut.other hsame (by decide)]
  exact he

/-- One round either ends the swap, or leads to a bound replacement, or removes the old PV. -/
theorem swap_next (hp : SwapPlan n st source r newPv spec) (hrerun : Rerun cfg n source r ws)
    (hpt : SwapPoint n st source (ws i)) :
    SwapDone n st source r spec ((ws i).reconciled cfg n) ∨
      SwapPoint n st source (ws (i + 1)) ∧ (BoundAt n source r (ws (i + 1)) ∨
        (ws i).get .pv ⟨"", n⟩ ≠ none ∧ (ws (i + 1)).get .pv ⟨"", n⟩ = none) := by
  have hround := swap_round hp hpt (hrerun.unhindered i) (hrerun.finalizers i)
  cases hround with
  | finished pv _ _ _ done => exact .inl done
  | removed pv stored old gone same revision =>
    have hm := hrerun.next hp hpt same
    refine .inr ⟨hpt.meanwhile same revision (fun pv' hpv' => ?_) hm, .inr ⟨by simp [stored], ?_⟩⟩
    · rw [gone] at hpv'
      cases hpv'
    · by_contra hsome
      obtain ⟨pv', hpv'⟩ := Option.ne_none_iff_exists'.mp hsome
      obtain ⟨-, pv₁, hpv₁, -⟩ := hm.pv pv' hpv'
      rw [gone] at hpv₁
      cases hpv₁
  | created absent stored same revision =>
    have hm := hrerun.next hp hpt same
    have hnew : ((newPv.born (ws i).revision).stamped (ws i).revision).metadata.uid ≠
        source.pvUid := Nat.ne_of_gt hpt.fresh
    have hpt' : SwapPoint n st source (ws (i + 1)) := by
      refine hpt.meanwhile same revision (fun pv' hpv' => ?_) hm
      rw [stored] at hpv'
      obtain rfl := Option.some.inj hpv'
      exact .inr ⟨_, hp.manifest, rfl⟩
    exact .inr ⟨hpt', .inl (bound_meanwhile hp hpt' stored hnew hm (hrerun.claim _))⟩
  | waited pv stored new unbound same =>
    have hsame : SameBut .pv ⟨"", n⟩ (ws i) ((ws i).reconciled cfg n) := by
      rw [same]
      exact .refl _ _ _
    have hm := hrerun.next hp hpt hsame
    rw [same] at hm
    have hpt' := hpt.meanwhile (.refl _ _ _) (Nat.le_refl _) hpt.pv hm
    exact .inr ⟨hpt', .inl (bound_meanwhile hp hpt' stored new hm (hrerun.claim _))⟩

theorem done_of_bound (hp : SwapPlan n st source r newPv spec)
    (hrerun : Rerun cfg n source r ws) (hpt : SwapPoint n st source (ws i))
    (hb : BoundAt n source r (ws i)) :
    SwapDone n st source r spec ((ws i).reconciled cfg n) := by
  obtain ⟨pv, hpv, hnew, hbound⟩ := hb
  have hround := swap_round hp hpt (hrerun.unhindered i) (hrerun.finalizers i)
  cases hround with
  | finished _ _ _ _ done => exact done
  | removed pv' stored old _ _ _ =>
    obtain rfl : pv = pv' := Option.some.inj (hpv.symm.trans stored)
    exact absurd old hnew
  | created absent _ _ _ =>
    rw [absent] at hpv
    cases hpv
  | waited pv' stored _ unbound _ =>
    obtain rfl : pv = pv' := Option.some.inj (hpv.symm.trans stored)
    rw [unbound] at hbound
    cases hbound

/-- Wherever a swap was left, the third reconcile at the latest ends it. -/
theorem swap_converges (hp : SwapPlan n st source r newPv spec)
    (hrerun : Rerun cfg n source r ws) (hpt : SwapPoint n st source (ws 0)) :
    ∃ i ≤ 2, SwapDone n st source r spec ((ws i).reconciled cfg n) ∧
      ∀ j ≤ i, SwapPoint n st source (ws j) := by
  rcases swap_next hp hrerun hpt with hdone | ⟨hpt₁, hbound | ⟨-, hnone⟩⟩
  · exact ⟨0, by omega, hdone, fun j hj => by
      obtain rfl := Nat.le_zero.mp hj
      exact hpt⟩
  · refine ⟨1, by omega, done_of_bound hp hrerun hpt₁ hbound, fun j hj => ?_⟩
    obtain rfl | rfl : j = 0 ∨ j = 1 := by omega
    · exact hpt
    · exact hpt₁
  · have hfirst : ∀ j ≤ 1, SwapPoint n st source (ws j) := by
      intro j hj
      obtain rfl | rfl : j = 0 ∨ j = 1 := by omega
      · exact hpt
      · exact hpt₁
    rcases swap_next hp hrerun hpt₁ with hdone | ⟨hpt₂, hbound | ⟨hsome, -⟩⟩
    · exact ⟨1, by omega, hdone, hfirst⟩
    · refine ⟨2, by omega, done_of_bound hp hrerun hpt₂ hbound, fun j hj => ?_⟩
      obtain hle | rfl : j ≤ 1 ∨ j = 2 := by omega
      · exact hfirst j hle
      · exact hpt₂
    · exact absurd hnone hsome

end Reruns

/-! ## From the commit on -/

/-- The request behind the evacuation still stands. -/
def Requested (cfg : Config) (w : World) (evac : Obj .evacuation) (source : SourceInfo)
    (pv : Obj .pv) : Prop :=
  match (specOf evac).trigger with
  | EvacuationTrigger.annotation => pv.metadata.annotations.get evacuateAnnotation = some "true"
  | .nodeTaint => ∀ node, w.get .node ⟨"", source.node⟩ = some node →
      nodeHasEvacuateTaint node cfg.taintKey = true

/-- The last checks before the commit are passed. -/
structure CommitReady (cfg : Config) (n : String) (evac : Obj .evacuation) (source : SourceInfo)
    (target : TargetInfo) (r : PvcRef) (oldPv newPv : Obj .pv) (w : World) : Prop where
  stored : w.get .evacuation ⟨"", n⟩ = some evac
  pvName : (specOf evac).pvName = n
  signed : evacuationFinalizer ∈ evac.metadata.finalizers
  live : evac.deleting = false
  phase : (viewStatus evac).phase = .committing
  committed : (viewStatus evac).committed = false
  source_eq : (viewStatus evac).source = some source
  target_eq : (viewStatus evac).target = some target
  claim_eq : (viewStatus evac).pvcRef = some r
  claim : ∃ pvc, w.get .pvc r.key = some pvc ∧ pvc.metadata.uid = r.uid
  unhindered : Unhindered cfg w evac source r
  pv : w.get .pv ⟨"", n⟩ = some oldPv
  uid : oldPv.metadata.uid = source.pvUid
  rendered : renderNewPv oldPv r target = .ok newPv
  requested : Requested cfg w evac source oldPv

section Commit
variable {cfg : Config} {n : String} {evac : Obj .evacuation} {source : SourceInfo}
  {target : TargetInfo} {r : PvcRef} {oldPv newPv : Obj .pv} {w : World}
  {err : Error → World → Prop}

theorem ends_triggerWithdrawn {st : ZFSEvacuationStatus} {ok : Option String → World → Prop}
    (hs : st.source = some source) (h : Requested cfg w evac source oldPv) (hok : ok none w) :
    Ends cluster ok err (triggerWithdrawn cfg evac st oldPv) w := by
  unfold Requested at h
  unfold triggerWithdrawn
  cases htrigger : (specOf evac).trigger with
  | annotation =>
    simp only [htrigger] at h ⊢
    rw [if_neg (by simp [h])]
    exact hok
  | nodeTaint =>
    simp only [htrigger, hs] at h ⊢
    simp only [bind_eq, ends_bind, ends_getOpt]
    cases hnode : w.get .node ⟨"", source.node⟩ with
    | none => exact hok
    | some node =>
      simp only [h node hnode, Bool.not_true, Bool.false_eq_true, if_false]
      exact hok

theorem CommitReady.ends_cancelReason (h : CommitReady cfg n evac source target r oldPv newPv w)
    {ok : Option String → World → Prop} (hok : ok none w) :
    Ends cluster ok err (cancelReason cfg evac (viewStatus evac)) w := by
  obtain ⟨pvc, hpvc, huid⟩ := h.claim
  have hphase : (viewStatus evac).phase ≠ .pending := by
    rw [h.phase]
    decide
  simp only [cancelReason, if_neg hphase, bind_eq, ends_bind, ends_getOpt, h.pvName, h.pv]
  refine ends_triggerWithdrawn h.source_eq h.requested ?_
  simp only [h.claim_eq, ends_bind, ends_getOpt, hpvc]
  rw [if_neg (by simp [huid])]
  exact hok

theorem CommitReady.ends_committing (h : CommitReady cfg n evac source target r oldPv newPv w)
    {ok : Action → World → Prop}
    (hok : ∀ a, ok a (w.effect (.patch .evacuation ⟨"", n⟩ (.status { viewStatus evac with
      oldPvManifest := some (oldPv.metadata, oldPv.data)
      newPvManifest := some (newPv.metadata, newPv.data)
      committed := true
      phase := .swapping
      message := none })))) :
    Ends cluster ok err (committing cfg evac (viewStatus evac)) w := by
  obtain ⟨pvc, hpvc, huid⟩ := h.claim
  have hname : evac.name = n := congrArg Key.name (World.get_key h.stored)
  have hidle : unexpectedPods (specOf evac).mode (podsOf w r) = [] := by
    have hfree := h.unhindered
    unfold Unhindered at hfree
    unfold unexpectedPods
    cases hmode : (specOf evac).mode with
    | whenIdle => simpa only [hmode] using hfree
    | whenClaimed =>
      simp only [hmode] at hfree
      exact hfree.1
  simp only [committing, h.claim_eq, h.source_eq, h.target_eq, orErr, pure_eq, bind_eq, ret_bind,
    ends_bind, ends_getOpt, hpvc, ends_ret]
  rw [if_neg (by simp [huid])]
  simp only [ends_bind, ends_podsReferencingPvc, hidle, List.isEmpty_nil, Bool.not_true,
    Bool.false_eq_true, if_false]
  refine ends_blockingReason h.source_eq h.unhindered ?_
  simp only [ends_bind, ends_getOpt, h.pvName, h.pv, ends_ret]
  rw [if_neg (by simp [h.uid])]
  simp only [h.rendered, advance, bind_eq, pure_eq, ends_bind, hname]
  refine (ends_writeStatus h.stored).mpr ?_
  have hdone := hok (.requeue 500)
  simpa only [ends_ret, h.claim_eq, h.source_eq, h.target_eq] using hdone

/-- The record that the commit makes. -/
def commitRecord (st : ZFSEvacuationStatus) (oldPv newPv : Obj .pv) : ZFSEvacuationStatus :=
  { st with
    oldPvManifest := some (oldPv.metadata, oldPv.data)
    newPvManifest := some (newPv.metadata, newPv.data)
    committed := true
    phase := .swapping
    message := none }

/-- When the last checks are passed, all that a reconcile does is to record the commit. -/
theorem CommitReady.reconciled_eq (h : CommitReady cfg n evac source target r oldPv newPv w) :
    w.reconciled cfg n = w.effect (.patch .evacuation ⟨"", n⟩
      (.status (commitRecord (viewStatus evac) oldPv newPv))) := by
  rw [ZfsEvacuation.reconciled_eq h.stored]
  let recorded : World → Prop := fun w' => w' = w.effect (.patch .evacuation ⟨"", n⟩
    (.status (commitRecord (viewStatus evac) oldPv newPv)))
  suffices hends : Ends cluster (fun _ => recorded) (fun _ => recorded) (reconcile cfg evac) w from
    Ends.exec hends
  have hsigned : evac.metadata.finalizers.any (· == evacuationFinalizer) = true := by
    simpa using h.signed
  have hensure : ensureEvacFinalizer evac = pure () := by
    rw [ensureEvacFinalizer, if_pos hsigned]
  simp only [reconcile, h.live, hensure, h.phase, h.committed]
  simp only [reduceCtorEq, or_self, if_false, Bool.false_and, Bool.false_eq_true, Bool.not_false,
    if_true, pure_eq, bind_eq, ret_bind, ends_bind]
  refine h.ends_cancelReason ?_
  simp only [handlePhase, h.phase]
  exact h.ends_committing fun _ => rfl

/-- The first round after the commit starts from a swap with the old PV still there. -/
theorem CommitReady.swapPoint (h : CommitReady cfg n evac source target r oldPv newPv w)
    (hkept : ∀ pv, w.get .pv ⟨"", n⟩ = some pv → pv.gone = false)
    (hfresh : source.pvUid < w.revision) : ∃ st spec,
      st.core = (commitRecord (viewStatus evac) oldPv newPv).core ∧
      SwapPlan n st source r newPv spec ∧ SwapPoint n st source (w.reconciled cfg n) := by
  have hself := World.get_patch_self h.stored
    (.status (commitRecord (viewStatus evac) oldPv newPv))
  have hstays : ((Patch.status (commitRecord (viewStatus evac) oldPv newPv)).apply
      evac).gone = false := by
    rw [Obj.gone, Patch.deleting_apply, h.live, Bool.false_and]
  rw [hstays, if_neg Bool.false_ne_true, ← h.reconciled_eq] at hself
  have hother : ∀ key, (w.reconciled cfg n).get .pv key = w.get .pv key := by
    intro key
    rw [h.reconciled_eq]
    exact World.get_patch_other w fun heq => by cases heq
  have hpvName : oldPv.name = n := congrArg Key.name (World.get_key h.pv)
  obtain ⟨spec, hrepl⟩ := renderNewPv_isReplacement h.rendered
  rw [hpvName] at hrepl
  have hcore := core_mergeStatus (statusOf evac) (commitRecord (viewStatus evac) oldPv newPv)
  have hphase := congrArg ZFSEvacuationStatus.phase hcore
  have hcommitted := congrArg ZFSEvacuationStatus.committed hcore
  have hsource := congrArg ZFSEvacuationStatus.source hcore
  have hclaim := congrArg ZFSEvacuationStatus.pvcRef hcore
  have htarget := congrArg ZFSEvacuationStatus.target hcore
  have hmanifest := congrArg ZFSEvacuationStatus.newPvManifest hcore
  refine ⟨_, spec, hcore, ⟨hphase, hcommitted, hsource.trans h.source_eq, hclaim.trans h.claim_eq,
    hmanifest, target, htarget.trans h.target_eq, hrepl⟩,
    ⟨⟨_, hself, rfl, h.pvName, h.signed⟩, fun pv hpv => ?_, fun pv hpv => ?_, ?_⟩⟩
  · rw [hother, h.pv] at hpv
    obtain rfl := Option.some.inj hpv
    exact .inl ⟨source, hsource.trans h.source_eq, h.uid⟩
  · rw [hother] at hpv
    exact hkept pv hpv
  · rw [h.reconciled_eq]
    exact Nat.lt_of_lt_of_le hfresh (World.revision_le_effect w _)

theorem Rerun.later {ws : Nat → World} (h : Rerun cfg n source r ws) :
    Rerun cfg n source r fun i => ws (i + 1) where
  claim i := h.claim (i + 1)
  unhindered i := h.unhindered (i + 1)
  finalizers i := h.finalizers (i + 1)
  meanwhile i := h.meanwhile (i + 1)

/-- One more round, if the commit has still to be made. -/
theorem commit_converges {ws : Nat → World}
    (h : CommitReady cfg n evac source target r oldPv newPv (ws 0))
    (hkept : ∀ pv, (ws 0).get .pv ⟨"", n⟩ = some pv → pv.gone = false)
    (hfresh : source.pvUid < (ws 0).revision) (hrerun : Rerun cfg n source r ws) : ∃ st spec,
      st.core = (commitRecord (viewStatus evac) oldPv newPv).core ∧
      SwapPlan n st source r newPv spec ∧
      ∃ i ≤ 3, SwapDone n st source r spec ((ws i).reconciled cfg n) ∧
        ∀ j < i, SwapPoint n st source (ws (j + 1)) := by
  obtain ⟨st, spec, hcore, hp, hpt⟩ := h.swapPoint hkept hfresh
  have hm : Meanwhile n source ((ws 0).reconciled cfg n) (ws 1) := by
    obtain ⟨e, he, hst, -, -⟩ := hpt.stored
    exact hrerun.meanwhile 0 e he (by rw [hst, hp.phase])
  have hpt₁ := hpt.meanwhile (.refl _ _ _) (Nat.le_refl _) hpt.pv hm
  obtain ⟨i, hi, hdone, hbefore⟩ := swap_converges hp hrerun.later hpt₁
  exact ⟨st, spec, hcore, hp, i + 1, Nat.succ_le_succ hi, hdone, fun j hj =>
    hbefore j (Nat.le_of_lt_succ hj)⟩

end Commit

end ZfsEvacuation
