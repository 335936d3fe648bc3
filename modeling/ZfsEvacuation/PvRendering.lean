import ZfsEvacuation.PvSwap

/-!
# The replacement PV

What the rendering keeps of the old PV, and that it depends on nothing an earlier rendering has
set, so that a volume can be moved any number of times.
-/
namespace ZfsEvacuation

/-! ## Maps -/

namespace StrMap
variable (m : StrMap) (k k' v v' : String)

@[simp] theorem get_nil : StrMap.get [] k = none := rfl

@[simp] theorem get_cons : StrMap.get ((k', v) :: m) k = if k = k' then some v else m.get k := by
  unfold get
  rw [List.lookup_cons]
  by_cases h : k = k'
  · simp [h]
  · rw [if_neg h, beq_eq_false_iff_ne.mpr h]

@[simp] theorem get_erase : (m.erase k).get k' = if k' = k then none else m.get k' := by
  induction m with
  | nil => simp [erase]
  | cons kv m ih =>
    obtain ⟨j, w⟩ := kv
    simp only [erase, List.filter_cons, decide_not, Bool.not_eq_eq_eq_not, Bool.not_true,
      decide_eq_false_iff_not] at ih ⊢
    by_cases hj : j = k
    · simp only [hj, not_true_eq_false, if_false, ih, get_cons]
      split_ifs <;> rfl
    · simp only [hj, not_false_eq_true, if_true, get_cons, ih]
      split_ifs with hkj hk hk
      · exact absurd (hkj.symm.trans hk) hj
      · rfl
      · rfl
      · rfl

@[simp] theorem get_insert : (m.insert k v).get k' = if k' = k then some v else m.get k' := by
  induction m with
  | nil => simp [insert]
  | cons kv m ih =>
    obtain ⟨j, w⟩ := kv
    unfold insert
    by_cases hj : j = k
    · simp only [hj, if_true, get_cons]
      split_ifs <;> rfl
    · simp only [hj, if_false, get_cons, ih]
      split_ifs with hkj hk hk
      · exact absurd (hkj.symm.trans hk) hj
      · rfl
      · rfl
      · rfl

theorem contains_insert : (m.insert k v).contains k = true := by
  simp [contains]

theorem insert_insert : (m.insert k v).insert k v' = m.insert k v' := by
  induction m with
  | nil => simp [insert]
  | cons kv m ih =>
    obtain ⟨j, w⟩ := kv
    by_cases hj : j = k
    · simp [insert, hj]
    · simp [insert, hj, ih]

theorem erase_erase : (m.erase k).erase k = m.erase k := by
  simp [erase]

end StrMap

/-! ## The frame of the rendering -/

/-- The attributes with the pool of the target, if they name a pool at all. -/
def renderedAttributes (target : TargetInfo) (attrs : StrMap) : StrMap :=
  if attrs.contains poolnameAttribute then attrs.insert poolnameAttribute target.pool else attrs

theorem get_renderedAttributes (target : TargetInfo) (attrs : StrMap) (k : String) :
    (renderedAttributes target attrs).get k =
      if k = poolnameAttribute ∧ attrs.contains poolnameAttribute = true then some target.pool
      else attrs.get k := by
  unfold renderedAttributes
  by_cases hk : k = poolnameAttribute <;> by_cases hpool : attrs.contains poolnameAttribute <;>
    simp [hk, hpool]

/-- An earlier pool leaves no trace. -/
theorem renderedAttributes_idem (target target' : TargetInfo) (attrs : StrMap) :
    renderedAttributes target' (renderedAttributes target attrs) =
      renderedAttributes target' attrs := by
  unfold renderedAttributes
  split_ifs with hpool hinsert
  · exact StrMap.insert_insert ..
  · exact absurd (StrMap.contains_insert ..) hinsert
  · rfl

/-- Of the CSI source, only the volume handle and the pool change. -/
structure RendersCsi (target : TargetInfo) (csi csi' : CsiSource) : Prop where
  kept : csi' = { csi with
    volumeHandle := csi'.volumeHandle, volumeAttributes := csi'.volumeAttributes }
  handle : csi'.volumeHandle = target.newVolumeHandle
  present : csi'.volumeAttributes.isSome = csi.volumeAttributes.isSome
  attributes : ∀ attrs attrs', csi.volumeAttributes = some attrs →
    csi'.volumeAttributes = some attrs' → ∀ k, attrs'.get k =
      if k = poolnameAttribute ∧ attrs.contains poolnameAttribute = true then some target.pool
      else attrs.get k

/-- Of the spec, only the claim, the reclaim policy, the affinity and the CSI source change. -/
structure RendersSpec (pvcRef : PvcRef) (target : TargetInfo)
    (spec spec' : PersistentVolumeSpec) : Prop where
  kept : spec' = { spec with
    claimRef := spec'.claimRef, persistentVolumeReclaimPolicy := spec'.persistentVolumeReclaimPolicy
    nodeAffinity := spec'.nodeAffinity, csi := spec'.csi }
  claimRef : spec'.claimRef = some
    { apiVersion := some "v1", kind := some "PersistentVolumeClaim", ns := some pvcRef.ns
      name := some pvcRef.name, uid := some pvcRef.uid }
  policy : spec'.persistentVolumeReclaimPolicy = some "Retain"
  affinity : spec'.nodeAffinity = some
    [{ matchExpressions := some [⟨nodeIdTopologyKey, "In", some [target.nodeId]⟩] }]
  csi : ∃ csi csi', spec.csi = some csi ∧ spec'.csi = some csi' ∧ RendersCsi target csi csi'

/-- What the replacement of a PV is. -/
structure RendersPv (pvcRef : PvcRef) (target : TargetInfo) (old new : Obj .pv) : Prop where
  name : new.name = old.name
  labels : new.metadata.labels = old.metadata.labels
  annotations : ∀ k, new.metadata.annotations.get k =
    if k = evacuateAnnotation then none else old.metadata.annotations.get k
  bare : new.metadata = { name := new.name, labels := new.metadata.labels
                          annotations := new.metadata.annotations }
  status : ∃ spec', new.data = ({ spec := some spec', phase := none } : PersistentVolume)
  spec : ∃ spec spec', pvSpec old = some spec ∧ pvSpec new = some spec' ∧
    RendersSpec pvcRef target spec spec'

variable {old mid new : Obj .pv} {pvcRef pvcRef' : PvcRef} {target target' : TargetInfo}

/-- The replacement of a PV that has a spec and a CSI source. -/
def renderedPv (old : Obj .pv) (spec : PersistentVolumeSpec) (csi : CsiSource) (pvcRef : PvcRef)
    (target : TargetInfo) : Obj .pv :=
  { metadata :=
      { name := old.name, labels := old.metadata.labels
        annotations := old.metadata.annotations.erase evacuateAnnotation }
    data := ({ spec := some { spec with
                 claimRef := some
                   { apiVersion := some "v1", kind := some "PersistentVolumeClaim"
                     ns := some pvcRef.ns, name := some pvcRef.name, uid := some pvcRef.uid }
                 persistentVolumeReclaimPolicy := some "Retain"
                 nodeAffinity := some
                   [{ matchExpressions := some
                        [⟨nodeIdTopologyKey, "In", some [target.nodeId]⟩] }]
                 csi := some { csi with
                   volumeHandle := target.newVolumeHandle
                   volumeAttributes := csi.volumeAttributes.map (renderedAttributes target) } }
               phase := none } : PersistentVolume) }

theorem renderNewPv_eq {spec : PersistentVolumeSpec} {csi : CsiSource} (hs : pvSpec old = some spec)
    (hc : spec.csi = some csi) :
    renderNewPv old pvcRef target = .ok (renderedPv old spec csi pvcRef target) := by
  unfold renderNewPv
  rw [hs]
  simp only [hc]
  rfl

theorem renderNewPv_ok (h : renderNewPv old pvcRef target = .ok new) :
    ∃ spec csi, pvSpec old = some spec ∧ spec.csi = some csi ∧
      new = renderedPv old spec csi pvcRef target := by
  cases hs : pvSpec old with
  | none =>
    simp only [renderNewPv, hs] at h
    cases h
  | some spec =>
    cases hc : spec.csi with
    | none =>
      simp only [renderNewPv, hs, hc] at h
      cases h
    | some csi =>
      rw [renderNewPv_eq hs hc] at h
      exact ⟨spec, csi, rfl, hc, (Except.ok.inj h).symm⟩

theorem renderNewPv_error :
    (∃ text, renderNewPv old pvcRef target = .error text) ↔ (pvSpec old).bind (·.csi) = none := by
  cases hs : pvSpec old with
  | none => simp [renderNewPv, hs]
  | some spec =>
    cases hc : spec.csi with
    | none => simp [renderNewPv, hs, hc]
    | some csi => simp [renderNewPv_eq hs hc, hc]

/-- Whether and why the rendering fails is up to the old PV. -/
theorem renderNewPv_error_eq {text : String} (h : renderNewPv old pvcRef target = .error text) :
    renderNewPv old pvcRef' target' = .error text := by
  have hnone := renderNewPv_error.mp ⟨text, h⟩
  cases hs : pvSpec old with
  | none =>
    simp only [renderNewPv, hs] at h ⊢
    exact h
  | some spec =>
    rw [hs, Option.bind_some] at hnone
    simp only [renderNewPv, hs, hnone] at h ⊢
    exact h

theorem renderNewPv_frame (h : renderNewPv old pvcRef target = .ok new) :
    RendersPv pvcRef target old new := by
  obtain ⟨spec, csi, hs, hc, rfl⟩ := renderNewPv_ok h
  have hcsi : RendersCsi target csi { csi with
      volumeHandle := target.newVolumeHandle
      volumeAttributes := csi.volumeAttributes.map (renderedAttributes target) } := by
    refine ⟨rfl, rfl, by simp, fun attrs attrs' hattrs hattrs' k => ?_⟩
    rw [hattrs] at hattrs'
    obtain rfl := Option.some.inj hattrs'
    exact get_renderedAttributes target attrs k
  constructor
  · rfl
  · rfl
  · exact fun k => StrMap.get_erase ..
  · rfl
  · exact ⟨_, rfl⟩
  · exact ⟨spec, _, hs, rfl, rfl, rfl, rfl, rfl, csi, _, hc, rfl, hcsi⟩

/-- Rendering a replacement is rendering what it replaces. -/
theorem renderNewPv_again (h : renderNewPv old pvcRef target = .ok mid) :
    renderNewPv mid pvcRef' target' = renderNewPv old pvcRef' target' := by
  obtain ⟨spec, csi, hs, hc, rfl⟩ := renderNewPv_ok h
  have hmid : renderNewPv (renderedPv old spec csi pvcRef target) pvcRef' target' =
      .ok (renderedPv (renderedPv old spec csi pvcRef target) _ _ pvcRef' target') :=
    renderNewPv_eq (show pvSpec (renderedPv old spec csi pvcRef target) = some _ from rfl) rfl
  rw [hmid, renderNewPv_eq hs hc]
  simp only [renderedPv, Option.map_map, StrMap.erase_erase]
  have hattrs : (renderedAttributes target' ∘ renderedAttributes target) =
      renderedAttributes target' :=
    funext fun attrs => renderedAttributes_idem target target' attrs
  rw [hattrs]
  rfl

/-- The PV after a number of moves. -/
def renderAll (old : Obj .pv) (moves : List (PvcRef × TargetInfo)) : Except String (Obj .pv) :=
  moves.foldlM (fun pv move => renderNewPv pv move.1 move.2) old

theorem renderAll_last (moves : List (PvcRef × TargetInfo)) :
    renderAll old (moves ++ [(pvcRef, target)]) = renderNewPv old pvcRef target := by
  induction moves generalizing old with
  | nil => simp [renderAll]
  | cons move moves ih =>
    have hcons : renderAll old ((move :: moves) ++ [(pvcRef, target)]) =
        renderNewPv old move.1 move.2 >>= fun pv => renderAll pv (moves ++ [(pvcRef, target)]) := by
      simp [renderAll]
    rw [hcons]
    cases h : renderNewPv old move.1 move.2 with
    | ok mid =>
      calc renderAll mid (moves ++ [(pvcRef, target)]) = renderNewPv mid pvcRef target := ih
        _ = renderNewPv old pvcRef target := renderNewPv_again h
    | error text => exact (renderNewPv_error_eq h).symm

/-- Rendering fails exactly without a spec or a CSI source, changes what it must and keeps the
rest, and after any number of renderings only the last one has left its values. -/
theorem rendering_frames_and_composes (old : Obj .pv) (pvcRef : PvcRef) (target : TargetInfo) :
    ((∃ text, renderNewPv old pvcRef target = .error text) ↔
      pvSpec old = none ∨ ∃ spec, pvSpec old = some spec ∧ spec.csi = none) ∧
    (∀ new, renderNewPv old pvcRef target = .ok new → RendersPv pvcRef target old new ∧
      ∀ pvcRef' target', renderNewPv new pvcRef' target' = renderNewPv old pvcRef' target') ∧
    ∀ moves, renderAll old (moves ++ [(pvcRef, target)]) = renderNewPv old pvcRef target := by
  refine ⟨?_, fun new h => ⟨renderNewPv_frame h, fun _ _ => renderNewPv_again h⟩,
    fun moves => renderAll_last moves⟩
  rw [renderNewPv_error]
  cases pvSpec old <;> simp

end ZfsEvacuation
