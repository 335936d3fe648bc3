import ZfsEvacuation.AbortRounds
import ZfsEvacuation.SwapRounds
import ZfsEvacuation.AttachLockHolding
import ZfsEvacuation.LockUpdates

/-!
# Rounds of the cleanup

What one reconcile of an evacuation in CleaningUp makes of the transfer resources, the copy of
the transfer snapshot, the source and the attach lock when every call succeeds.
-/
namespace ZfsEvacuation.Cleanup
open ClientProgram Program Abort

variable {cfg : Config} {n : String} {st₀ st : ZFSEvacuationStatus} {issued issued' : Bool}
  {w w' w₁ : World} {err : Error → World → Prop}

/-! ## The status during the cleanup -/

/-- The status of a cleanup that started with `st₀`, with or without the deletion of the
ZFSSnapshot on record. -/
structure SameCleanup (st₀ : ZFSEvacuationStatus) (issued : Bool) (st : ZFSEvacuationStatus) :
    Prop where
  phase : st.phase = .cleaningUp
  committed : st.committed = true
  source : st.source = st₀.source
  target : st.target = st₀.target
  pvcRef : st.pvcRef = st₀.pvcRef
  transfer : st.transfer = st₀.transfer.map fun t => { t with targetSnapDeleteIssued := issued }

/-- The evacuation is stored in its cleanup, and the finalizer of the controller holds it. -/
def Kept (n : String) (st₀ : ZFSEvacuationStatus) (issued : Bool) (w : World) : Prop :=
  ∃ e, w.get .evacuation ⟨"", n⟩ = some e ∧ SameCleanup st₀ issued (viewStatus e) ∧
    (specOf e).pvName = n ∧ evacuationFinalizer ∈ e.metadata.finalizers

theorem SameCleanup.shown (h : SameCleanup st₀ issued st) (msg : Option String) :
    SameCleanup st₀ issued { st with message := msg } :=
  ⟨h.phase, h.committed, h.source, h.target, h.pvcRef, h.transfer⟩

theorem SameCleanup.marked (h : SameCleanup st₀ issued st) :
    SameCleanup st₀ true { st with
      transfer := st.transfer.map fun t => { t with targetSnapDeleteIssued := true } } := by
  refine ⟨h.phase, h.committed, h.source, h.target, h.pvcRef, ?_⟩
  rw [h.transfer, Option.map_map]
  rfl

theorem SameCleanup.congr {st' : ZFSEvacuationStatus} (h : SameCleanup st₀ issued st)
    (hcore : st'.core = st.core) : SameCleanup st₀ issued st' := by
  have hphase := congrArg ZFSEvacuationStatus.phase hcore
  have hcommitted := congrArg ZFSEvacuationStatus.committed hcore
  have hsource := congrArg ZFSEvacuationStatus.source hcore
  have htarget := congrArg ZFSEvacuationStatus.target hcore
  have hclaim := congrArg ZFSEvacuationStatus.pvcRef hcore
  have htransfer := congrArg ZFSEvacuationStatus.transfer hcore
  exact ⟨Eq.trans hphase h.phase, Eq.trans hcommitted h.committed, Eq.trans hsource h.source,
    Eq.trans htarget h.target, Eq.trans hclaim h.pvcRef, Eq.trans htransfer h.transfer⟩

theorem Kept.same (h : Kept n st₀ issued w)
    (hsame : ∀ key, w'.get .evacuation key = w.get .evacuation key) : Kept n st₀ issued w' := by
  obtain ⟨e, he, hrest⟩ := h
  exact ⟨e, (hsame _).trans he, hrest⟩

theorem not_gone_of_signed {e : Obj .evacuation}
    (h : evacuationFinalizer ∈ e.metadata.finalizers) : e.gone = false := by
  have hne : e.metadata.finalizers.isEmpty = false := by
    cases hnil : e.metadata.finalizers with
    | nil =>
      rw [hnil] at h
      cases h
    | cons _ _ => rfl
  rw [Obj.gone, hne, Bool.and_false]

/-- A status write leaves the evacuation where it was. -/
theorem get_status {e : Obj .evacuation} (he : w.get .evacuation ⟨"", n⟩ = some e)
    (hfin : evacuationFinalizer ∈ e.metadata.finalizers) (st : ZFSEvacuationStatus) :
    (w.effect (.patch .evacuation ⟨"", n⟩ (.status st))).get .evacuation ⟨"", n⟩ =
      some (((Patch.status st).apply e).stamped w.revision) := by
  have hself := World.get_patch_self he (.status st)
  have hthere : ((Patch.status st).apply e).gone = false := not_gone_of_signed (e := e) hfin
  rwa [hthere, if_neg Bool.false_ne_true] at hself

theorem Kept.status (h : Kept n st₀ issued w) (hst : SameCleanup st₀ issued' st) :
    Kept n st₀ issued' (w.effect (.patch .evacuation ⟨"", n⟩ (.status st))) := by
  obtain ⟨e, he, -, hname, hfin⟩ := h
  exact ⟨_, get_status he hfin st, hst.congr (core_mergeStatus _ _), hname, hfin⟩

theorem Kept.shown (h : Kept n st₀ issued w) (hst : SameCleanup st₀ issued st)
    (hs : Shown n st w w') : Kept n st₀ issued w' := by
  rcases hs with rfl | ⟨msg, rfl⟩
  · exact h
  · exact h.status (hst.shown _)

theorem ends_wait {msg : String} {secs : Nat} {ok : Action → World → Prop}
    (h : Kept n st₀ issued w) (hok : ∀ a w', Shown n st w w' → ok a w') :
    Ends cluster ok err (wait n st msg secs) w := by
  obtain ⟨e, he, -⟩ := h
  unfold wait
  split_ifs
  · simp only [bind_eq, pure_eq, ends_bind, ends_ret]
    exact (ends_writeStatus he).mpr (hok _ _ (.inr ⟨msg, rfl⟩))
  · exact hok _ _ (.inl rfl)

/-! ## The copy of the transfer snapshot -/

/-- How a reconcile goes on with the ZFSSnapshot on the target. -/
inductive SnapStep (cfg : Config) (n : String) (st : ZFSEvacuationStatus) (w : World) :
    ZFSEvacuationStatus → Option String → World → Prop
  | settled (gone : ∀ t target, st.transfer = some t → st.target = some target →
        w.get .zfsSnapshot (t.snapKey cfg) = none) :
      SnapStep cfg n st w st none w
  | destroying (t : TransferStatus) (cr : Obj .zfsSnapshot) (msg : String) (w' : World)
      (ht : st.transfer = some t) (issued : t.targetSnapDeleteIssued = true)
      (stored : w.get .zfsSnapshot (t.snapKey cfg) = some cr)
      (same : SameBut .zfsSnapshot (t.snapKey cfg) w w')
      (going : cr.deleting = true → ∀ cr', w'.get .zfsSnapshot (t.snapKey cfg) = some cr' →
        cr'.deleting = true)
      (live : cr.deleting = false → ∃ cr', w'.get .zfsSnapshot (t.snapKey cfg) = some cr' ∧
        cr'.deleting = false) :
      SnapStep cfg n st w st (some msg) w'
  | registering (t : TransferStatus) (target : TargetInfo) (info : VolumeInfo) (msg : String)
      (ht : st.transfer = some t) (issued : t.targetSnapDeleteIssued = false)
      (absent : w.get .zfsSnapshot (t.snapKey cfg) = none) :
      SnapStep cfg n st w st (some msg)
        (w.effect (.create .zfsSnapshot (targetSnapshotCr cfg target t.snapName info)))
  | marking (t : TransferStatus) (msg : String) (w₁ : World) (ht : st.transfer = some t)
      (issued : t.targetSnapDeleteIssued = false)
      (leaving : Leaving .zfsSnapshot (t.snapKey cfg) w w₁) :
      SnapStep cfg n st w
        { st with transfer := st.transfer.map fun t => { t with targetSnapDeleteIssued := true } }
        (some msg) (w₁.effect (.patch .evacuation ⟨"", n⟩ (.status { st with
          transfer := st.transfer.map fun t => { t with targetSnapDeleteIssued := true } })))
  | unprocessed (t : TransferStatus) (cr : Obj .zfsSnapshot) (msg : String)
      (ht : st.transfer = some t) (issued : t.targetSnapDeleteIssued = false)
      (stored : w.get .zfsSnapshot (t.snapKey cfg) = some cr) (live : cr.deleting = false)
      (unsigned : zfsFinalizer ∉ cr.metadata.finalizers) :
      SnapStep cfg n st w st (some msg) w

/-- What taking off the agent's finalizer makes of an object. -/
theorem patch_unsigned {k : Kind} {key : Key} {o : Obj k} (h : w.get k key = some o)
    (fs : List String) :
    (o.deleting = true → ∀ o', (w.effect (.patch k key (.finalizers fs))).get k key = some o' →
      o'.deleting = true) ∧
    (o.deleting = false → ∃ o', (w.effect (.patch k key (.finalizers fs))).get k key = some o' ∧
      o'.deleting = false) := by
  have hself := World.get_patch_self h (.finalizers fs)
  constructor
  · intro hdel o' ho'
    rw [hself] at ho'
    split_ifs at ho'
    rw [← Option.some.inj ho']
    exact hdel
  · intro hlive
    have hthere : ((Patch.finalizers fs).apply o).gone = false := by
      rw [Obj.gone, Patch.deleting_apply, hlive, Bool.false_and]
    rw [hthere, if_neg Bool.false_ne_true] at hself
    exact ⟨_, hself, hlive⟩

theorem ends_destroying {t : TransferStatus} {target : TargetInfo} {cr : Obj .zfsSnapshot}
    {msg : String} {ok : ZFSEvacuationStatus × Option String → World → Prop}
    (ht : st.transfer = some t) (hissued : t.targetSnapDeleteIssued = true)
    (hcr : w.get .zfsSnapshot (t.snapKey cfg) = some cr)
    (hok : ∀ st' msg w', SnapStep cfg n st w st' msg w' → ok (st', msg) w') :
    Ends cluster (fun _ w' => ok (st, some msg) w') err
      (stripZfsFinalizerIfNodeGone .zfsSnapshot (t.snapKey cfg) target.nodeId) w := by
  refine ends_strip (hok _ _ _ ?_) fun o ho => hok _ _ _ ?_
  · refine .destroying t cr msg w ht hissued hcr (.refl _ _ _) (fun hdel cr' hcr' => ?_)
      fun hlive => ⟨cr, hcr, hlive⟩
    rw [hcr] at hcr'
    rwa [← Option.some.inj hcr']
  · obtain rfl : cr = o := Option.some.inj (hcr.symm.trans ho)
    obtain ⟨hgoing, hlive⟩ :=
      patch_unsigned hcr (cr.metadata.finalizers.filter (· ≠ zfsFinalizer))
    exact .destroying t cr msg _ ht hissued hcr (.patch w _) hgoing hlive

theorem ends_marking {t : TransferStatus} {msg : String}
    {ok : ZFSEvacuationStatus × Option String → World → Prop} (he : Kept n st₀ issued w)
    (ht : st.transfer = some t) (hissued : t.targetSnapDeleteIssued = false)
    (hl : Leaving .zfsSnapshot (t.snapKey cfg) w w₁)
    (hok : ∀ st' msg w', SnapStep cfg n st w st' msg w' → ok (st', msg) w') :
    Ends cluster (fun st' w' => ok (st', some msg) w') err
      (markTargetSnapDeleteIssued n st) w₁ := by
  have hthere : Kept n st₀ issued w₁ := he.same (SameBut.other hl.same (by decide))
  obtain ⟨e, he, -⟩ := hthere
  simp only [markTargetSnapDeleteIssued, bind_eq, pure_eq, ends_bind, ends_ret]
  exact (ends_writeStatus he).mpr (hok _ _ _ (.marking t msg w₁ ht hissued hl))

theorem ends_destroyTargetSnapshot {ok : ZFSEvacuationStatus × Option String → World → Prop}
    (he : Kept n st₀ issued w)
    (hok : ∀ st' msg w', SnapStep cfg n st w st' msg w' → ok (st', msg) w') :
    Ends cluster ok err (destroyTargetSnapshot cfg n st) w := by
  unfold destroyTargetSnapshot
  cases ht : st.transfer with
  | none => exact hok _ _ _ (.settled fun t target h => by rw [ht] at h; cases h)
  | some t =>
    cases htarget : st.target with
    | none => exact hok _ _ _ (.settled fun t target _ h => by rw [htarget] at h; cases h)
    | some target =>
      simp only [bind_eq, ends_bind, ends_getOpt]
      have hgone : w.get .zfsSnapshot (t.snapKey cfg) = none → ok (st, none) w := by
        refine fun hnone => hok _ _ _ (.settled fun t' _ ht' _ => ?_)
        obtain rfl : t = t' := Option.some.inj (ht.symm.trans ht')
        exact hnone
      cases hissued : t.targetSnapDeleteIssued with
      | true =>
        simp only [if_true]
        cases hcr : w.get .zfsSnapshot (t.snapKey cfg) with
        | none =>
          rw [show w.get .zfsSnapshot ⟨cfg.openebsNs, t.snapName⟩ = none from hcr]
          exact hgone hcr
        | some cr =>
          rw [show w.get .zfsSnapshot ⟨cfg.openebsNs, t.snapName⟩ = some cr from hcr]
          simp only [ends_bind]
          exact ends_destroying ht hissued hcr hok
      | false =>
        simp only [Bool.false_eq_true, if_false]
        cases hcr : w.get .zfsSnapshot (t.snapKey cfg) with
        | none =>
          rw [show w.get .zfsSnapshot ⟨cfg.openebsNs, t.snapName⟩ = none from hcr]
          simp only [ends_bind, ends_getOpt]
          cases w.get .zfsVolume ⟨cfg.openebsNs, target.newVolumeHandle⟩ with
          | none => exact hgone hcr
          | some zv =>
            simp only [ends_bind]
            exact ends_createIfAbsent.mpr
              (hok _ _ _ (.registering t target _ _ ht hissued hcr))
        | some cr =>
          rw [show w.get .zfsSnapshot ⟨cfg.openebsNs, t.snapName⟩ = some cr from hcr]
          simp only []
          cases hdel : cr.deleting with
          | true =>
            simp only [if_true, ends_bind]
            exact ends_marking he ht hissued (leaving_deleting hcr hdel) hok
          | false =>
            simp only [Bool.false_eq_true, if_false]
            have hdelete := leaving_delete hcr hdel
            by_cases hfin : cr.metadata.finalizers.any (· == zfsFinalizer) = true
            · rw [if_pos hfin]
              simp only [ends_bind]
              exact (ends_deleteObj hcr).mpr (ends_marking he ht hissued hdelete hok)
            · rw [if_neg hfin]
              simp only [ends_bind]
              refine ends_nodeById fun o => ?_
              cases o with
              | some _ =>
                exact hok _ _ _ (.unprocessed t cr _ ht hissued hcr hdel (by simpa using hfin))
              | none =>
                simp only [ends_bind]
                exact (ends_deleteObj hcr).mpr (ends_marking he ht hissued hdelete hok)

/-! ## The source -/

/-- The volume is being deleted and its guard is off. -/
structure Freed (key : Key) (w w' : World) : Prop where
  same : SameBut .zfsVolume key w w'
  going : ∀ zv', w'.get .zfsVolume key = some zv' → zv'.deleting = true ∧
    guardFinalizer ∉ zv'.metadata.finalizers
  fewer : ∀ zv', w'.get .zfsVolume key = some zv' → ∃ zv, w.get .zfsVolume key = some zv ∧
    zv'.metadata.finalizers ⊆ zv.metadata.finalizers

theorem Freed.strip {key : Key} {zv : Obj .zfsVolume} (h : Freed key w w')
    (hzv : w'.get .zfsVolume key = some zv) :
    Freed key w (w'.effect (.patch .zfsVolume key
      (.finalizers (zv.metadata.finalizers.filter (· ≠ zfsFinalizer))))) := by
  have hself := World.get_patch_self hzv
    (.finalizers (zv.metadata.finalizers.filter (· ≠ zfsFinalizer)))
  obtain ⟨hdel, hguard⟩ := h.going zv hzv
  obtain ⟨zv₀, hzv₀, hsub⟩ := h.fewer zv hzv
  refine ⟨h.same.trans (.patch w' _), fun zv' hzv' => ?_, fun zv' hzv' => ⟨zv₀, hzv₀, ?_⟩⟩
  · rw [hself] at hzv'
    split_ifs at hzv'
    rw [← Option.some.inj hzv']
    exact ⟨hdel, fun hmem => hguard (List.mem_of_mem_filter hmem)⟩
  · rw [hself] at hzv'
    split_ifs at hzv'
    rw [← Option.some.inj hzv']
    exact fun f hf => hsub (List.mem_of_mem_filter hf)

/-- Taking the guard off a volume that is being deleted. -/
theorem ends_unguard {key : Key} {ok : Unit → World → Prop}
    (hsame : SameBut .zfsVolume key w w₁)
    (hgoing : ∀ zv, w₁.get .zfsVolume key = some zv → zv.deleting = true ∧
      ∃ zv₀, w.get .zfsVolume key = some zv₀ ∧ zv.metadata.finalizers = zv₀.metadata.finalizers)
    (hok : ∀ w', Freed key w w' → ok () w') :
    Ends cluster ok err (setFinalizers .zfsVolume key unguard) w₁ := by
  simp only [setFinalizers, bind_eq, ends_bind, ends_getOpt]
  cases hzv : w₁.get .zfsVolume key with
  | none =>
    refine hok _ ⟨hsame, fun zv hzv' => ?_, fun zv hzv' => ?_⟩ <;>
    · rw [hzv] at hzv'
      cases hzv'
  | some zv =>
    obtain ⟨hdel, zv₀, hzv₀, hfins⟩ := hgoing zv hzv
    simp only []
    split_ifs with hguarded
    · refine (ends_patchObj hzv).mpr (hok _ ?_)
      have hself := World.get_patch_self hzv (.finalizers (unguard zv.metadata.finalizers))
      refine ⟨hsame.trans (.patch w₁ _), fun zv' hzv' => ?_, fun zv' hzv' => ⟨zv₀, hzv₀, ?_⟩⟩
      · rw [hself] at hzv'
        split_ifs at hzv'
        rw [← Option.some.inj hzv']
        exact ⟨hdel, by simp [Patch.apply, unguard]⟩
      · rw [hself] at hzv'
        split_ifs at hzv'
        rw [← Option.some.inj hzv', ← hfins]
        exact fun f hf => List.mem_of_mem_filter hf
    · have hunguarded : unguard zv.metadata.finalizers = zv.metadata.finalizers := by
        simpa using hguarded
      refine hok _ ⟨hsame, fun zv' hzv' => ?_, fun zv' hzv' => ?_⟩
      · obtain rfl := Option.some.inj (hzv.symm.trans hzv')
        refine ⟨hdel, ?_⟩
        rw [← hunguarded]
        simp [unguard]
      · obtain rfl := Option.some.inj (hzv.symm.trans hzv')
        exact ⟨zv₀, hzv₀, by rw [hfins]; exact fun f hf => hf⟩

theorem ends_destroySource {source : SourceInfo} {ok : Bool → World → Prop}
    (hgone : w.get .zfsVolume (source.volKey cfg) = none → ok false w)
    (hleft : ∀ w', w.get .zfsVolume (source.volKey cfg) ≠ none →
      Freed (source.volKey cfg) w w' → ok true w') :
    Ends cluster ok err (destroySource cfg source) w := by
  simp only [destroySource, bind_eq, ends_bind, ends_getOpt]
  cases hzv : w.get .zfsVolume (source.volKey cfg) with
  | none =>
    rw [show w.get .zfsVolume ⟨cfg.openebsNs, source.volumeHandle⟩ = none from hzv]
    exact hgone hzv
  | some zv =>
    rw [show w.get .zfsVolume ⟨cfg.openebsNs, source.volumeHandle⟩ = some zv from hzv]
    have hthere : w.get .zfsVolume (source.volKey cfg) ≠ none := by simp [hzv]
    have hlast : ∀ w', Freed (source.volKey cfg) w w' → Ends cluster (fun _ w' => ok true w') err
        (stripZfsFinalizerIfNodeGone .zfsVolume (source.volKey cfg) source.nodeId) w' :=
      fun w' hfreed => ends_strip (hleft _ hthere hfreed) fun o ho =>
        hleft _ hthere (hfreed.strip ho)
    have hrest : ∀ w₁, SameBut .zfsVolume (source.volKey cfg) w w₁ →
        (∀ zv', w₁.get .zfsVolume (source.volKey cfg) = some zv' → zv'.deleting = true ∧
          ∃ zv₀, w.get .zfsVolume (source.volKey cfg) = some zv₀ ∧
            zv'.metadata.finalizers = zv₀.metadata.finalizers) →
        Ends cluster (fun _ w' => Ends cluster (fun _ w' => ok true w') err
          (stripZfsFinalizerIfNodeGone .zfsVolume (source.volKey cfg) source.nodeId) w') err
          (setFinalizers .zfsVolume (source.volKey cfg) unguard) w₁ :=
      fun w₁ hsame hgoing => ends_unguard hsame hgoing hlast
    simp only [pure_eq]
    cases hdel : zv.deleting with
    | true =>
      simp only [Bool.not_true, Bool.false_eq_true, if_false, ends_bind, ends_ret]
      refine hrest w (.refl _ _ _) fun zv' hzv' => ?_
      obtain rfl := Option.some.inj (hzv.symm.trans hzv')
      exact ⟨hdel, zv, hzv, rfl⟩
    | false =>
      simp only [Bool.not_false, if_true, ends_bind, ends_ret]
      refine (ends_deleteObj hzv).mpr (hrest _ (.delete w) fun zv' hzv' => ?_)
      have hself := World.get_delete_self hzv hdel
      rw [hself] at hzv'
      split_ifs at hzv'
      rw [← Option.some.inj hzv']
      exact ⟨rfl, zv, hzv, rfl⟩

/-! ## The end -/

theorem ends_unlockKey {key : String} {ok : Unit → World → Prop}
    (h : ∀ w', (∀ k key', k ≠ .params → w'.get k key' = w.get k key') →
      ¬ w'.params.Locked key → ok () w') : Ends cluster ok err (unlockKey key) w := by
  have hfree : ∀ p : EvacuationParamsSpec, ¬ (p.unlock key).1.Locked key := fun p hlocked =>
    (EvacuationParamsSpec.locked_unlock.mp hlocked).1 rfl
  have hsame : ∀ p : EvacuationParamsSpec, w.params = p → (p.unlock key).2 = false → ok () w := by
    intro p hp hunchanged
    refine h w (fun _ _ _ => rfl) ?_
    rw [hp, ← EvacuationParamsSpec.unlock_unchanged hunchanged]
    exact hfree p
  simp only [unlockKey, updateParams, bind_eq, ends_bind, ends_getOpt]
  cases hget : w.get .params paramsKey with
  | none =>
    rw [show w.get .params ⟨"", paramsName⟩ = none from hget]
    simp only []
    cases hchanged : (EvacuationParamsSpec.unlock {} key).2 with
    | false => exact hsame {} (by rw [World.params, hget]) hchanged
    | true => simp [EvacuationParamsSpec.unlock] at hchanged
  | some o =>
    obtain ⟨m, data⟩ := o
    let p : EvacuationParamsSpec := data
    rw [show w.get .params ⟨"", paramsName⟩ = some ⟨m, p⟩ from hget]
    simp only []
    have hkey : m.key = paramsKey := World.get_key hget
    let written : Obj .params := ⟨m, (p.unlock key).1⟩
    have hreplace : w.replace written = (.ok (), w.update written) := by
      rw [World.replace, show written.key = paramsKey from hkey, hget]
      simp [written]
    cases hchanged : (p.unlock key).2 with
    | false => exact hsame p (World.params_some hget) hchanged
    | true =>
      simp only [Bool.not_true, Bool.false_eq_true, if_false, ends_bind, send, cluster, ends_call,
        World.answer, Outcome.write]
      have heffect : w.effect (.replace .params written) = w.update written := by
        rw [World.effect, hreplace]
      rw [show (w.replace (⟨m, (p.unlock key).1⟩ : Obj .params)).1 = .ok () from
          congrArg Prod.fst hreplace,
        show w.effect (.replace .params ⟨m, (p.unlock key).1⟩) = w.update written from heffect]
      refine h _ (fun k key' hk => World.get_update_other w written fun heq => absurd heq hk) ?_
      have hself := World.get_update_self w written
      rw [show written.key = paramsKey from hkey] at hself
      cases hgone : written.gone with
      | true =>
        rw [hgone, if_pos rfl] at hself
        rw [World.params, hself]
        simp [EvacuationParamsSpec.Locked]
      | false =>
        rw [hgone, if_neg Bool.false_ne_true] at hself
        rw [World.params_some hself]
        exact hfree p

/-- The evacuation is recorded as completed, with its key unlocked and its trigger off the PV.
After that it is no longer held by the finalizer of the controller. -/
structure Completes (n : String) (st₀ : ZFSEvacuationStatus) (w w' : World) : Prop where
  completed : ∃ (w₁ : World) (e : Obj .evacuation), w₁.get .evacuation ⟨"", n⟩ = some e ∧
    (viewStatus e).phase = .completed ∧
    w' = w₁.effect (.patch .evacuation ⟨"", n⟩
      (.finalizers (e.metadata.finalizers.filter (· ≠ evacuationFinalizer))))
  unlocked : ∀ r, st₀.pvcRef = some r → ¬ w'.params.Locked r.lockKey
  untriggered : ∀ pv, w'.get .pv ⟨"", n⟩ = some pv →
    pv.metadata.annotations.contains evacuateAnnotation = false
  others : ∀ k key, k ≠ .evacuation → k ≠ .params → k ≠ .pv → k ≠ .pvc →
    w'.get k key = w.get k key

/-- What the last steps keep once the key is unlocked. -/
structure Released (n : String) (st₀ : ZFSEvacuationStatus) (w w₁ : World) : Prop where
  evac : ∀ key, w₁.get .evacuation key = w.get .evacuation key
  unlocked : ∀ r, st₀.pvcRef = some r → ¬ w₁.params.Locked r.lockKey
  others : ∀ k key, k ≠ .evacuation → k ≠ .params → k ≠ .pv → k ≠ .pvc →
    w₁.get k key = w.get k key

theorem Released.aside {k : Kind} {key : Key} (h : Released n st₀ w w₁)
    (hk : k = .pv ∨ k = .pvc) (hs : SameBut k key w₁ w') : Released n st₀ w w' := by
  have hne : ∀ k', k' ≠ .pv → k' ≠ .pvc → ∀ key', w'.get k' key' = w₁.get k' key' := by
    intro k' hpv hpvc key'
    refine hs.other ?_ key'
    rintro rfl
    rcases hk with rfl | rfl
    · exact hpv rfl
    · exact hpvc rfl
  refine ⟨fun key => (hne _ (by decide) (by decide) key).trans (h.evac key), fun r hr => ?_,
    fun k' key' he hp hpv hpvc => (hne k' hpv hpvc key').trans (h.others k' key' he hp hpv hpvc)⟩
  rw [World.params_congr (hne _ (by decide) (by decide) _)]
  exact h.unlocked r hr

theorem erase_contains (m : StrMap) (k : String) : (m.erase k).contains k = false := by
  induction m with
  | nil => rfl
  | cons kv rest ih =>
    obtain ⟨k', v⟩ := kv
    by_cases h : k' = k
    · simpa [StrMap.erase, h] using ih
    · have hne : (k == k') = false := by simpa using Ne.symm h
      simpa [StrMap.erase, StrMap.contains, StrMap.get, List.lookup_cons, h, hne] using ih

/-- The completion is on record before the finalizer goes. -/
theorem ends_complete {e : Obj .evacuation} {ok : Action → World → Prop}
    (he : w.get .evacuation ⟨"", n⟩ = some e)
    (hfin : evacuationFinalizer ∈ e.metadata.finalizers) (hr : Released n st₀ w w₁)
    (hpv : ∀ pv, w₁.get .pv ⟨"", n⟩ = some pv →
      pv.metadata.annotations.contains evacuateAnnotation = false)
    (hok : ∀ a w', Completes n st₀ w w' → ok a w') :
    Ends cluster (fun a w' => Ends cluster (fun _ w' => ok a w') err (removeEvacFinalizer n) w')
      err (advance n st .completed) w₁ := by
  have he₁ : w₁.get .evacuation ⟨"", n⟩ = some e := (hr.evac _).trans he
  simp only [advance, bind_eq, pure_eq, ends_bind]
  refine (ends_writeStatus he₁).mpr ?_
  have hself := get_status he₁ hfin { st with phase := .completed, message := none }
  simp only [removeEvacFinalizer, bind_eq, ends_bind, ends_getOpt, ends_ret, hself]
  have hsame (fs : List String) := (aside_patch w₁ ⟨"", n⟩ (.status
    { st with phase := .completed, message := none })).trans
      (aside_patch _ ⟨"", n⟩ (.finalizers fs))
  refine (ends_patchObj hself).mpr (hok _ _ ⟨⟨_, _, hself, phase_mergeStatus _ _, rfl⟩,
    fun r hclaim => ?_, fun pv hpv' => hpv pv ?_, fun k key hk hp hpv' hpvc => ?_⟩)
  · rw [World.params_congr (hsame _ _ _ (by decide))]
    exact hr.unlocked r hclaim
  · rwa [hsame _ _ _ (by decide)] at hpv'
  · rw [hsame _ k key hk]
    exact hr.others k key hk hp hpv' hpvc

/-- The trigger is taken off the PV, if it is still on it. -/
theorem ends_untrigger {e : Obj .evacuation} {ok : Action → World → Prop}
    (he : w.get .evacuation ⟨"", n⟩ = some e)
    (hfin : evacuationFinalizer ∈ e.metadata.finalizers) (hr : Released n st₀ w w₁)
    (hok : ∀ a w', Completes n st₀ w w' → ok a w') :
    Ends cluster ok err (do
      match ← getOpt .pv ⟨"", n⟩ with
      | some pv =>
        if pv.metadata.annotations.contains evacuateAnnotation then
          patchObj .pv ⟨"", n⟩ (.annotate evacuateAnnotation none)
      | none => pure ()
      let action ← advance n st .completed
      removeEvacFinalizer n
      pure action) w₁ := by
  simp only [bind_eq, ends_bind, ends_getOpt]
  cases hpv : w₁.get .pv ⟨"", n⟩ with
  | none =>
    simp only [pure_eq, ends_bind, ends_ret]
    refine ends_complete he hfin hr (fun pv hpv' => ?_) hok
    rw [hpv] at hpv'
    cases hpv'
  | some pv =>
    simp only []
    by_cases hon : pv.metadata.annotations.contains evacuateAnnotation = true
    · rw [if_pos hon]
      simp only [pure_eq, ends_bind, ends_ret]
      refine (ends_patchObj hpv).mpr ?_
      refine ends_complete he hfin (hr.aside (.inl rfl) (.patch w₁ _)) (fun pv' hpv' => ?_) hok
      rw [World.get_patch_self hpv] at hpv'
      split_ifs at hpv'
      rw [← Option.some.inj hpv']
      exact erase_contains pv.metadata.annotations evacuateAnnotation
    · rw [if_neg hon]
      simp only [pure_eq, ends_bind, ends_ret]
      refine ends_complete he hfin hr (fun pv' hpv' => ?_) hok
      rw [hpv] at hpv'
      rw [← Option.some.inj hpv']
      simpa using hon

theorem ends_finishCleanup {e : Obj .evacuation} {ok : Action → World → Prop}
    (he : w.get .evacuation ⟨"", n⟩ = some e) (hname : (specOf e).pvName = n)
    (hfin : evacuationFinalizer ∈ e.metadata.finalizers) (hst : st.pvcRef = st₀.pvcRef)
    (hok : ∀ a w', Completes n st₀ w w' → ok a w') :
    Ends cluster ok err (finishCleanup e st) w := by
  have hevac : e.name = n := congrArg Key.name (World.get_key he)
  simp only [finishCleanup, hname, hevac]
  cases hclaim : st.pvcRef with
  | none =>
    refine ends_untrigger he hfin ⟨fun _ => rfl, fun r hr => ?_, fun _ _ _ _ _ _ => rfl⟩ hok
    rw [← hst, hclaim] at hr
    cases hr
  | some r =>
    simp only [bind_eq, ends_bind]
    refine ends_unlockKey fun w₁ hsame hfree => ?_
    have hr : Released n st₀ w w₁ := by
      refine ⟨fun key => hsame _ key (by decide), fun r' hr' => ?_, fun k key _ hp _ _ =>
        hsame k key hp⟩
      rw [← hst, hclaim] at hr'
      rwa [← Option.some.inj hr']
    exact ends_untrigger he hfin
      (hr.aside (.inr rfl) (.patch w₁ (.label evacuatingLabel none))) hok

/-! ## One round -/

/-- What a cleanup has on record. -/
structure Plan (st₀ : ZFSEvacuationStatus) (source : SourceInfo) (target : TargetInfo)
    (t : TransferStatus) : Prop where
  source_eq : st₀.source = some source
  target_eq : st₀.target = some target
  transfer_eq : st₀.transfer = some t

def CrsGone (cfg : Config) (n : String) (t : TransferStatus) (w : World) : Prop :=
  w.get .zfsBackup (bkpKey cfg n t.attempt) = none ∧
    w.get .zfsRestore (rstKey cfg n t.attempt) = none

/-- What is left of it, if anything is, is being deleted. -/
def Going (k : Kind) (key : Key) (w : World) : Prop :=
  ∀ o, w.get k key = some o → o.deleting = true

/-- All that one reconcile of a cleanup can do. -/
inductive CleanupRound (cfg : Config) (n : String) (st₀ : ZFSEvacuationStatus)
    (source : SourceInfo) (t : TransferStatus) (issued : Bool) (w w' : World) : Prop
  | transfer (left : ¬ CrsGone cfg n t w) (bkp : Going .zfsBackup (bkpKey cfg n t.attempt) w')
      (rst : Going .zfsRestore (rstKey cfg n t.attempt) w')
      (others : ∀ k key, k ≠ .evacuation → k ≠ .zfsBackup → k ≠ .zfsRestore →
        w'.get k key = w.get k key)
      (kept : Kept n st₀ issued w')
  | registered (crs : CrsGone cfg n t w) (pending : issued = false)
      (absent : w.get .zfsSnapshot (t.snapKey cfg) = none)
      (stored : w'.get .zfsSnapshot (t.snapKey cfg) ≠ none)
      (live : ∀ cr, w'.get .zfsSnapshot (t.snapKey cfg) = some cr → cr.deleting = false)
      (others : ∀ k key, k ≠ .evacuation → k ≠ .zfsSnapshot → w'.get k key = w.get k key)
      (kept : Kept n st₀ issued w')
  | unprocessed (crs : CrsGone cfg n t w) (pending : issued = false) (cr : Obj .zfsSnapshot)
      (stored : w.get .zfsSnapshot (t.snapKey cfg) = some cr) (live : cr.deleting = false)
      (unsigned : zfsFinalizer ∉ cr.metadata.finalizers) (aside : Aside w w')
      (kept : Kept n st₀ issued w')
  | issued (crs : CrsGone cfg n t w) (pending : issued = false)
      (there : w.get .zfsSnapshot (t.snapKey cfg) ≠ none)
      (going : Going .zfsSnapshot (t.snapKey cfg) w')
      (others : ∀ k key, k ≠ .evacuation → k ≠ .zfsSnapshot → w'.get k key = w.get k key)
      (kept : Kept n st₀ true w')
  | destroying (crs : CrsGone cfg n t w) (recorded : issued = true) (cr : Obj .zfsSnapshot)
      (stored : w.get .zfsSnapshot (t.snapKey cfg) = some cr)
      (going : cr.deleting = true → Going .zfsSnapshot (t.snapKey cfg) w')
      (live : cr.deleting = false → ∃ cr', w'.get .zfsSnapshot (t.snapKey cfg) = some cr' ∧
        cr'.deleting = false)
      (others : ∀ k key, k ≠ .evacuation → k ≠ .zfsSnapshot → w'.get k key = w.get k key)
      (kept : Kept n st₀ issued w')
  | source (crs : CrsGone cfg n t w) (gone : w.get .zfsSnapshot (t.snapKey cfg) = none)
      (there : w.get .zfsVolume (source.volKey cfg) ≠ none) (w₁ : World)
      (freed : Freed (source.volKey cfg) w w₁) (aside : Aside w₁ w') (kept : Kept n st₀ issued w')
  | finished (crs : CrsGone cfg n t w) (gone : w.get .zfsSnapshot (t.snapKey cfg) = none)
      (destroyed : w.get .zfsVolume (source.volKey cfg) = none) (done : Completes n st₀ w w')

section Round
variable {source : SourceInfo} {target : TargetInfo} {t : TransferStatus} {e : Obj .evacuation}

theorem Kept.viewed (h : Kept n st₀ issued w) (he : w.get .evacuation ⟨"", n⟩ = some e) :
    SameCleanup st₀ issued (viewStatus e) ∧ (specOf e).pvName = n ∧
      evacuationFinalizer ∈ e.metadata.finalizers := by
  obtain ⟨e', he', hrest⟩ := h
  obtain rfl := Option.some.inj (he.symm.trans he')
  exact hrest

/-- The last two steps. -/
theorem ends_afterSnapshot {ok : Action → World → Prop}
    (hkept : Kept n st₀ issued w) (he : w.get .evacuation ⟨"", n⟩ = some e)
    (hst : SameCleanup st₀ issued st) (hcrs : CrsGone cfg n t w)
    (hgone : w.get .zfsSnapshot (t.snapKey cfg) = none)
    (hok : ∀ a w', CleanupRound cfg n st₀ source t issued w w' → ok a w') :
    Ends cluster ok err (do
      if ← destroySource cfg source then
        wait n st "waiting for source dataset destruction" 10
      else finishCleanup e st) w := by
  obtain ⟨-, hname, hfin⟩ := hkept.viewed he
  simp only [bind_eq, ends_bind]
  refine ends_destroySource (fun hnone => ?_) fun w₁ hthere hfreed => ?_
  · exact ends_finishCleanup he hname hfin hst.pvcRef fun a w' hdone =>
      hok a w' (.finished hcrs hgone hnone hdone)
  · have hkept₁ : Kept n st₀ issued w₁ := hkept.same (SameBut.other hfreed.same (by decide))
    exact ends_wait hkept₁ fun a w' hs => hok a w'
      (.source hcrs hgone hthere w₁ hfreed hs.aside (hkept₁.shown hst hs))

theorem snapKey_of_transfer {t₀ : TransferStatus} (cfg : Config) (hp : Plan st₀ source target t)
    (hst : SameCleanup st₀ issued st) (ht : st.transfer = some t₀) :
    t₀.snapKey cfg = t.snapKey cfg ∧ t₀.targetSnapDeleteIssued = issued := by
  rw [hst.transfer, hp.transfer_eq] at ht
  obtain rfl := Option.some.inj ht
  exact ⟨rfl, rfl⟩

theorem SnapStep.kept {st' : ZFSEvacuationStatus} {msg : Option String}
    (h : SnapStep cfg n st w st' msg w₁) (hkept : Kept n st₀ issued w)
    (hst : SameCleanup st₀ issued st) :
    ∃ issued', SameCleanup st₀ issued' st' ∧ Kept n st₀ issued' w₁ := by
  cases h with
  | settled _ | unprocessed _ _ _ _ _ _ _ _ => exact ⟨issued, hst, hkept⟩
  | destroying _ _ _ _ _ _ _ hsame _ _ =>
    exact ⟨issued, hst, hkept.same (SameBut.other hsame (by decide))⟩
  | registering t₀ target₀ info _ _ _ _ =>
    exact ⟨issued, hst, hkept.same fun key => World.get_create_other w
      (targetSnapshotCr cfg target₀ t₀.snapName info) fun heq => absurd heq (by decide)⟩
  | marking _ _ w₂ _ _ hl =>
    have hkept₂ : Kept n st₀ issued w₂ := hkept.same (SameBut.other hl.same (by decide))
    exact ⟨true, hst.marked, hkept₂.status hst.marked⟩

/-- A reconcile that has to come back for the ZFSSnapshot. -/
theorem SnapStep.round {st' : ZFSEvacuationStatus} {msg : String} (hp : Plan st₀ source target t)
    (hkept : Kept n st₀ issued w) (hst : SameCleanup st₀ issued st) (hcrs : CrsGone cfg n t w)
    (h : SnapStep cfg n st w st' (some msg) w₁) (hs : Shown n st' w₁ w') :
    CleanupRound cfg n st₀ source t issued w w' := by
  have haside := hs.aside
  cases h with
  | destroying t₀ cr _ _ ht hissued hcr hsame hgoing hlive =>
    obtain ⟨hkey, hflag⟩ := snapKey_of_transfer cfg hp hst ht
    rw [hkey] at hcr hsame hgoing hlive
    have hkept₁ : Kept n st₀ issued w₁ := hkept.same (SameBut.other hsame (by decide))
    refine .destroying hcrs (hflag.symm.trans hissued) cr hcr (fun hdel cr' hcr' => ?_)
      (fun hl => ?_) (fun k key hk hsnap => ?_) (hkept₁.shown hst hs)
    · rw [haside _ _ (by decide)] at hcr'
      exact hgoing hdel cr' hcr'
    · obtain ⟨cr', hcr', hl'⟩ := hlive hl
      exact ⟨cr', (haside _ _ (by decide)).trans hcr', hl'⟩
    · rw [haside k key hk, SameBut.other hsame hsnap]
  | registering t₀ target₀ info _ ht hissued habsent =>
    obtain ⟨hkey, hflag⟩ := snapKey_of_transfer cfg hp hst ht
    rw [hkey] at habsent
    have hcr : (targetSnapshotCr cfg target₀ t₀.snapName info).key = t.snapKey cfg := hkey
    have hself := World.get_create_self w (o := targetSnapshotCr cfg target₀ t₀.snapName info)
      (by rw [hcr, habsent])
    rw [hcr] at hself
    have hkept₁ := hkept.same fun key => World.get_create_other w
      (targetSnapshotCr cfg target₀ t₀.snapName info) fun heq => absurd heq (by decide)
    have hnew := haside .zfsSnapshot (t.snapKey cfg) (by decide)
    refine .registered hcrs (hflag.symm.trans hissued) habsent (by simp [hnew, hself])
      (fun cr hcr' => ?_) (fun k key hk hsnap => ?_) (hkept₁.shown hst hs)
    · rw [hnew, hself] at hcr'
      rw [← Option.some.inj hcr']
      rfl
    · rw [haside k key hk, World.get_create_other _ _ fun heq => absurd heq hsnap]
  | marking t₀ _ w₂ ht hissued hl =>
    obtain ⟨hkey, hflag⟩ := snapKey_of_transfer cfg hp hst ht
    rw [hkey] at hl
    have hthere : Kept n st₀ issued w₂ := hkept.same (SameBut.other hl.same (by decide))
    have hkept₂ := hthere.status hst.marked
    have haside₂ := (aside_patch w₂ ⟨"", n⟩ (.status { st with
      transfer := st.transfer.map fun t =>
        { t with targetSnapDeleteIssued := true } })).trans haside
    refine .issued hcrs (hflag.symm.trans hissued) hl.there (fun cr' hcr' => ?_)
      (fun k key hk hsnap => ?_) (hkept₂.shown hst.marked hs)
    · rw [haside₂ _ _ (by decide)] at hcr'
      exact hl.going cr' hcr'
    · rw [haside₂ k key hk, SameBut.other hl.same hsnap]
  | unprocessed t₀ cr _ ht hissued hcr hlive hunsigned =>
    obtain ⟨hkey, hflag⟩ := snapKey_of_transfer cfg hp hst ht
    rw [hkey] at hcr
    exact .unprocessed hcrs (hflag.symm.trans hissued) cr hcr hlive hunsigned haside
      (hkept.shown hst hs)

theorem ends_cleaningUp {ok : Action → World → Prop} (hp : Plan st₀ source target t)
    (hkept : Kept n st₀ issued w) (he : w.get .evacuation ⟨"", n⟩ = some e)
    (hok : ∀ a w', CleanupRound cfg n st₀ source t issued w w' → ok a w') :
    Ends cluster ok err (cleaningUp cfg e (viewStatus e)) w := by
  have hname : e.name = n := congrArg Key.name (World.get_key he)
  obtain ⟨hst, -⟩ := hkept.viewed he
  have hs : (viewStatus e).source = some source := hst.source.trans hp.source_eq
  have htr : (viewStatus e).transfer = some { t with targetSnapDeleteIssued := issued } := by
    rw [hst.transfer, hp.transfer_eq, Option.map_some]
  have htarget : (viewStatus e).target = some target := hst.target.trans hp.target_eq
  simp only [cleaningUp, hname, hs, htr, orErr, pure_eq, bind_eq, ret_bind, ends_bind]
  refine ends_cleanupTransferCrs (fun hbkp hrst => ?_) fun w₁ w₂ hleft hb hr => ?_
  · simp only [Bool.not_true, Bool.false_eq_true, if_false, ends_bind]
    refine ends_destroyTargetSnapshot hkept fun st' msg w₁ hstep => ?_
    cases msg with
    | some msg =>
      obtain ⟨_, -, hkept₁⟩ := hstep.kept hkept hst
      exact ends_wait hkept₁ fun a w' hshown =>
        hok a w' (hstep.round hp hkept hst ⟨hbkp, hrst⟩ hshown)
    | none =>
      cases hstep with
      | settled hgone =>
        have hsnap : w.get .zfsSnapshot (t.snapKey cfg) = none :=
          hgone { t with targetSnapDeleteIssued := issued } target htr htarget
        exact ends_afterSnapshot hkept he hst ⟨hbkp, hrst⟩ hsnap hok
  · simp only [Bool.not_false, if_true]
    have hkept₂ : Kept n st₀ issued w₂ := hkept.same fun key =>
      (SameBut.other hr.same (by decide) key).trans (SameBut.other hb.same (by decide) key)
    refine ends_wait hkept₂ fun a w' hshown => hok a w' ?_
    have haside := hshown.aside
    refine .transfer (fun hcrs => ?_) (fun o ho => ?_) (fun o ho => ?_) (fun k key hk hbk hrk => ?_)
      (hkept₂.shown hst hshown)
    · rcases hleft with hne | hne
      · exact hne hcrs.1
      · exact hne hcrs.2
    · rw [haside _ _ (by decide), SameBut.other hr.same (by decide)] at ho
      exact hb.going o ho
    · rw [haside _ _ (by decide)] at ho
      exact hr.going o ho
    · rw [haside k key hk, SameBut.other hr.same hrk, SameBut.other hb.same hbk]

/-- A reconcile in this phase is nothing but the cleanup. -/
theorem reconcile_cleaningUp (hphase : (viewStatus e).phase = .cleaningUp)
    (hcommitted : (viewStatus e).committed = true)
    (hfin : evacuationFinalizer ∈ e.metadata.finalizers) :
    reconcile cfg e = cleaningUp cfg e (viewStatus e) := by
  have hsigned : e.metadata.finalizers.any (· == evacuationFinalizer) = true := by
    simpa using hfin
  have hensure : ensureEvacFinalizer e = pure () := by
    rw [ensureEvacFinalizer, if_pos hsigned]
  simp only [reconcile, hphase, hcommitted, hensure, handlePhase]
  cases e.deleting <;> rfl

theorem cleanup_round (cfg : Config) (hp : Plan st₀ source target t) (hkept : Kept n st₀ issued w) :
    CleanupRound cfg n st₀ source t issued w (w.reconciled cfg n) := by
  obtain ⟨e, he, hst, hname, hfin⟩ := hkept
  rw [reconciled_eq he, reconcile_cleaningUp hst.phase hst.committed hfin]
  have hends : Ends cluster (fun _ => CleanupRound cfg n st₀ source t issued w)
      (fun _ => CleanupRound cfg n st₀ source t issued w) (cleaningUp cfg e (viewStatus e)) w :=
    ends_cleaningUp hp ⟨e, he, hst, hname, hfin⟩ he fun _ _ hround => hround
  exact Ends.exec hends

end Round

end ZfsEvacuation.Cleanup
