import ZfsEvacuation.CooperativeCluster
import ZfsEvacuation.ReconcileContract

/-!
# Rounds of the abort path

One round of a cooperative cluster is a reconcile of an aborting evacuation and the work
of the agents after it. All it can do to the objects that the abort looks at.
-/
namespace ZfsEvacuation.Abort
open ClientProgram Program

variable {cfg : Config} {name : String} {st₀ st : ZFSEvacuationStatus} {del : Bool}
  {w w' w₁ : World} {target : TargetInfo} {t : TransferStatus}

/-! ## What the abort path keeps -/

/-- The status is that of an abort, with the source, target and transfer of `st₀`. -/
structure SameMove (st₀ st : ZFSEvacuationStatus) : Prop where
  target : st.target = st₀.target
  transfer : st.transfer = st₀.transfer
  source : st.source = st₀.source
  committed : st.committed = false
  phase : st.phase = .aborting

/-- The evacuation is on the abort path, or about to enter it. -/
structure Held (st₀ : ZFSEvacuationStatus) (del : Bool) (e : Obj .evacuation) : Prop where
  target : (viewStatus e).target = st₀.target
  transfer : (viewStatus e).transfer = st₀.transfer
  source : (viewStatus e).source = st₀.source
  committed : (viewStatus e).committed = false
  deleting : e.deleting = del
  enters : entersAbort e = true
  there : e.gone = false

/-- The evacuation is gone or over, or still held. -/
def Path (name : String) (st₀ : ZFSEvacuationStatus) (del : Bool) (w : World) : Prop :=
  ∀ e, w.get .evacuation ⟨"", name⟩ = some e → Held st₀ del e ∨ (viewStatus e).phase = .failed

def Heading (name : String) (st₀ : ZFSEvacuationStatus) (del : Bool) (w : World) : Prop :=
  ∃ e, w.get .evacuation ⟨"", name⟩ = some e ∧ Held st₀ del e

/-- A deletion waits for the controller's finalizer. -/
def Signed (name : String) (w : World) : Prop :=
  ∀ e, w.get .evacuation ⟨"", name⟩ = some e → e.deleting = true →
    evacuationFinalizer ∈ e.metadata.finalizers

/-- The abort is over: Failed, or nothing holds the deletion up any more. -/
def Finished (name : String) (w : World) : Prop :=
  ∀ e, w.get .evacuation ⟨"", name⟩ = some e → (viewStatus e).phase = .failed ∨
    (e.deleting = true ∧ evacuationFinalizer ∉ e.metadata.finalizers)

/-- Only evacuations differ. -/
def Aside (w w' : World) : Prop := ∀ k key, k ≠ .evacuation → w'.get k key = w.get k key

theorem Aside.trans (h : Aside w w₁) (h' : Aside w₁ w') : Aside w w' :=
  fun k key hk => (h' k key hk).trans (h k key hk)

theorem aside_patch (w : World) (key : Key) (p : Patch .evacuation) :
    Aside w (w.effect (.patch .evacuation key p)) :=
  fun _ _ hk => World.get_patch_other w fun heq => absurd heq hk

/-- The evacuation is held, and a deletion that waited for the finalizer still does. -/
def On (name : String) (st₀ : ZFSEvacuationStatus) (del : Bool) (w w' : World) : Prop :=
  Heading name st₀ del w' ∧ (Signed name w → Signed name w')

/-- A status of the abort leaves the evacuation held. -/
theorem held_status {e : Obj .evacuation} (h : Held st₀ del e) (hst : SameMove st₀ st) (r : Nat) :
    Held st₀ del (((Patch.status st).apply e).stamped r) := by
  have hcore : (viewStatus (((Patch.status st).apply e).stamped r)).core = st.core :=
    core_mergeStatus _ st
  have htarget := congrArg ZFSEvacuationStatus.target hcore
  have htransfer := congrArg ZFSEvacuationStatus.transfer hcore
  have hsource := congrArg ZFSEvacuationStatus.source hcore
  have hcommitted := congrArg ZFSEvacuationStatus.committed hcore
  have hphase := congrArg ZFSEvacuationStatus.phase hcore
  refine ⟨htarget.trans hst.target, htransfer.trans hst.transfer, hsource.trans hst.source,
    hcommitted.trans hst.committed, h.deleting, ?_, h.there⟩
  have haborting : (viewStatus (((Patch.status st).apply e).stamped r)).phase = .aborting :=
    hphase.trans hst.phase
  simp [entersAbort, haborting]

theorem on_status (h : Heading name st₀ del w) (hst : SameMove st₀ st) :
    On name st₀ del w (w.effect (.patch .evacuation ⟨"", name⟩ (.status st))) := by
  obtain ⟨e, he, hheld⟩ := h
  have hself := World.get_patch_self he (.status st)
  have hstay : ((Patch.status st).apply e).gone = false := hheld.there
  rw [hstay] at hself
  refine ⟨⟨_, hself, held_status hheld hst _⟩, fun hsigned e' he' hdel => ?_⟩
  rw [hself] at he'
  obtain rfl := Option.some.inj he'
  exact hsigned e he hdel

/-- Without a change to evacuations everything stays as it is. -/
theorem on_same (h : Heading name st₀ del w)
    (hsame : ∀ key, w'.get .evacuation key = w.get .evacuation key) : On name st₀ del w w' := by
  obtain ⟨e, he, hheld⟩ := h
  refine ⟨⟨e, (hsame _).trans he, hheld⟩, fun hsigned e' he' => ?_⟩
  rw [hsame] at he'
  exact hsigned e' he'

theorem On.trans (h : On name st₀ del w w₁) (h' : On name st₀ del w₁ w') : On name st₀ del w w' :=
  ⟨h'.1, fun hs => h'.2 (h.2 hs)⟩

/-! ## The target side -/

def RestoreDone (cfg : Config) (name : String) (t : TransferStatus) (w : World) : Prop :=
  ((w.get .zfsRestore (rstKey cfg name t.attempt)).bind fun o =>
    let rst : ZFSRestore := o.data; rst.status) = some bkpStatusDone

/-- A dataset has landed, and the source volume it would be registered after is there or
not even recorded. -/
def Blocked (cfg : Config) (name : String) (st : ZFSEvacuationStatus) (t : TransferStatus)
    (w : World) : Prop :=
  RestoreDone cfg name t w ∧
    ∀ source, st.source = some source → w.get .zfsVolume (source.volKey cfg) ≠ none

/-- The status may have been written with another message. -/
def Shown (name : String) (st : ZFSEvacuationStatus) (w w' : World) : Prop :=
  w' = w ∨ ∃ msg, w' = w.effect
    (.patch .evacuation ⟨"", name⟩ (.status { st with message := some msg }))

def Cleared (k : Kind) (key : Key) (w w' : World) : Prop :=
  (w.get k key = none ∧ w' = w) ∨ Leaving k key w w'

/-- How the target side leaves the world. -/
inductive Sided (cfg : Config) (name : String) (st : ZFSEvacuationStatus) (w : World) :
    Option Action → World → Prop
  | skipped (h : st.target = none ∨ st.transfer = none) : Sided cfg name st w none w
  | clear (target : TargetInfo) (t : TransferStatus) (ht : st.target = some target)
      (htr : st.transfer = some t) (hv : w.get .zfsVolume (target.volKey cfg) = none)
      (hfree : ¬ Blocked cfg name st t w)
      (hb : w.get .zfsBackup (bkpKey cfg name t.attempt) = none)
      (hr : w.get .zfsRestore (rstKey cfg name t.attempt) = none) : Sided cfg name st w none w
  | destroying (target : TargetInfo) (t : TransferStatus) (ht : st.target = some target)
      (htr : st.transfer = some t) (hv : w.get .zfsVolume (target.volKey cfg) ≠ none)
      (a : Action) (w₁ w' : World) (hl : Leaving .zfsVolume (target.volKey cfg) w w₁)
      (hs : Shown name st w₁ w') : Sided cfg name st w (some a) w'
  | adopting (target : TargetInfo) (t : TransferStatus) (info : VolumeInfo)
      (ht : st.target = some target) (htr : st.transfer = some t)
      (hv : w.get .zfsVolume (target.volKey cfg) = none) (hblocked : Blocked cfg name st t w)
      (hsource : st.source ≠ none) (a : Action) (w' : World)
      (hs : Shown name st (w.effect (.create .zfsVolume (targetZfsvolume cfg info target))) w') :
      Sided cfg name st w (some a) w'
  | cleaning (target : TargetInfo) (t : TransferStatus) (ht : st.target = some target)
      (htr : st.transfer = some t) (hv : w.get .zfsVolume (target.volKey cfg) = none)
      (hfree : ¬ Blocked cfg name st t w) (a : Action) (w₁ w₂ w' : World)
      (hleft : w.get .zfsBackup (bkpKey cfg name t.attempt) ≠ none ∨
        w.get .zfsRestore (rstKey cfg name t.attempt) ≠ none)
      (hb : Cleared .zfsBackup (bkpKey cfg name t.attempt) w w₁)
      (hr : Cleared .zfsRestore (rstKey cfg name t.attempt) w₁ w₂) (hs : Shown name st w₂ w') :
      Sided cfg name st w (some a) w'

/-- Without a recorded source a landed dataset cannot be registered. -/
def NoSource (cfg : Config) (name : String) (st : ZFSEvacuationStatus) (w w' : World) : Prop :=
  w' = w ∧ st.source = none ∧ ∃ target t, st.target = some target ∧ st.transfer = some t ∧
    w.get .zfsVolume (target.volKey cfg) = none ∧ Blocked cfg name st t w

theorem ends_requeueMsg {err : Error → World → Prop} {msg : String} {ok : Option Action → World → Prop}
    (he : w.get .evacuation ⟨"", name⟩ ≠ none)
    (h : ∀ a w', Shown name st w w' → ok (some a) w') :
    Ends cluster ok err (some <$> requeueMsg name st msg) w := by
  obtain ⟨e, he⟩ := Option.ne_none_iff_exists'.mp he
  simp only [map_eq, requeueMsg]
  split_ifs
  · simp only [bind_eq, pure_eq, ends_bind, ends_ret]
    exact (ends_writeStatus he).mpr (h _ _ (.inr ⟨msg, rfl⟩))
  · exact h _ _ (.inl rfl)

/-- The transfer resources are gone already or their deletion is asked for. -/
theorem ends_cleanupTransferCrs {err : Error → World → Prop} {ok : Bool → World → Prop}
    {attempt : Nat}
    (hgone : w.get .zfsBackup (bkpKey cfg name attempt) = none →
      w.get .zfsRestore (rstKey cfg name attempt) = none → ok true w)
    (hleft : ∀ w₁ w₂, (w.get .zfsBackup (bkpKey cfg name attempt) ≠ none ∨
        w.get .zfsRestore (rstKey cfg name attempt) ≠ none) →
      Cleared .zfsBackup (bkpKey cfg name attempt) w w₁ →
      Cleared .zfsRestore (rstKey cfg name attempt) w₁ w₂ → ok false w₂) :
    Ends cluster ok err (cleanupTransferCrs cfg name attempt st) w := by
  simp only [cleanupTransferCrs, bind_eq, pure_eq, ends_bind, ends_ret]
  refine ends_cleanupCr (fun hb => ?_) fun w₁ hb => ?_
  · refine ends_cleanupCr (fun hr => hgone hb hr) fun w₂ hr => ?_
    exact hleft w w₂ (.inr hr.there) (.inl ⟨hb, rfl⟩) (.inr hr)
  · refine ends_cleanupCr (fun hr => ?_) fun w₂ hr => ?_
    · exact hleft w₁ w₁ (.inl hb.there) (.inr hb) (.inl ⟨hr, rfl⟩)
    · exact hleft w₁ w₂ (.inl hb.there) (.inr hb) (.inr hr)

theorem Cleared.same {k : Kind} {key : Key} (h : Cleared k key w w') : SameBut k key w w' := by
  rcases h with ⟨-, rfl⟩ | h
  · exact .refl k key _
  · exact h.same

theorem ends_targetSide (he : w.get .evacuation ⟨"", name⟩ ≠ none) :
    Ends cluster (Sided cfg name st w) (fun _ => NoSource cfg name st w)
      (targetSide cfg name st) w := by
  unfold targetSide
  split
  case h_2 hnone =>
    refine .skipped ?_
    by_contra hcon
    rw [not_or] at hcon
    obtain ⟨target, ht⟩ := Option.ne_none_iff_exists'.mp hcon.1
    obtain ⟨t, htr⟩ := Option.ne_none_iff_exists'.mp hcon.2
    exact hnone target t ht htr
  case h_1 target t ht htr =>
    have hdestroy : w.get .zfsVolume (target.volKey cfg) ≠ none →
        ∀ w₁, Leaving .zfsVolume (target.volKey cfg) w w₁ →
        Ends cluster (Sided cfg name st w) (fun _ => NoSource cfg name st w)
          (do stripZfsFinalizerIfNodeGone .zfsVolume (target.volKey cfg) target.nodeId
              some <$> requeueMsg name st "abort: destroying target dataset") w₁ := by
      intro hv w₁ hl
      simp only [bind_eq, ends_bind]
      have hdone : ∀ w₂, Leaving .zfsVolume (target.volKey cfg) w w₂ →
          Ends cluster (Sided cfg name st w) (fun _ => NoSource cfg name st w)
            (some <$> requeueMsg name st "abort: destroying target dataset") w₂ := by
        intro w₂ hl₂
        refine ends_requeueMsg ?_ fun a w' hs => .destroying target t ht htr hv a w₂ w' hl₂ hs
        rw [SameBut.other hl₂.same (by decide)]
        exact he
      exact ends_strip (hdone w₁ hl) fun o ho => hdone _ (hl.strip ho)
    have hcleanup : w.get .zfsVolume (target.volKey cfg) = none → ¬ Blocked cfg name st t w →
        Ends cluster (Sided cfg name st w) (fun _ => NoSource cfg name st w)
          (do if ← cleanupTransferCrs cfg name t.attempt st then pure none
              else some <$> requeueMsg name st "abort: cleaning up transfer CRs") w := by
      intro hv hfree
      simp only [bind_eq, ends_bind]
      refine ends_cleanupTransferCrs (fun hb hr => ?_) fun w₁ w₂ hleft hb hr => ?_
      · exact .clear target t ht htr hv hfree hb hr
      · refine ends_requeueMsg ?_ fun a w' hs =>
          .cleaning target t ht htr hv hfree a w₁ w₂ w' hleft hb hr hs
        rw [SameBut.other hr.same (by decide), SameBut.other hb.same (by decide)]
        exact he
    have hany : (((w.get .zfsRestore (rstKey cfg name t.attempt)).bind fun o =>
        let r : ZFSRestore := o.data; r.status).any (· == bkpStatusDone)) = true ↔
        RestoreDone cfg name t w := by
      unfold RestoreDone
      simp only [Option.any_eq_true, beq_iff_eq, exists_eq_right]
    simp only [bind_eq, ends_bind, ends_getOpt]
    cases hv : w.get .zfsVolume (target.volKey cfg) with
    | some zv =>
      rw [show w.get .zfsVolume ⟨cfg.openebsNs, target.newVolumeHandle⟩ = some zv from hv]
      have hne : w.get .zfsVolume (target.volKey cfg) ≠ none := by simp [hv]
      by_cases hdel : zv.deleting
      · simp only [hdel, Bool.not_true, Bool.false_eq_true, if_false]
        exact hdestroy hne w (leaving_deleting hv hdel)
      · have hmarked := leaving_delete hv (by simpa using hdel)
        simp only [hdel, Bool.not_false, if_true, ends_bind]
        exact (ends_deleteObj hv).mpr ((ends_bind _ _).mp (hdestroy hne _ hmarked))
    | none =>
      rw [show w.get .zfsVolume ⟨cfg.openebsNs, target.newVolumeHandle⟩ = none from hv]
      simp only []
      by_cases hrestored : RestoreDone cfg name t w
      · rw [if_pos (by exact hany.mpr hrestored)]
        cases hsrc : st.source with
        | none =>
          have hblocked : Blocked cfg name st t w :=
            ⟨hrestored, fun source hsource => by rw [hsrc] at hsource; cases hsource⟩
          exact ⟨rfl, hsrc, target, t, ht, htr, hv, hblocked⟩
        | some src =>
          simp only [orErr, pure_eq, ret_bind, ends_bind, ends_getOpt]
          cases hs : w.get .zfsVolume (src.volKey cfg) with
          | none =>
            rw [show w.get .zfsVolume ⟨cfg.openebsNs, src.volumeHandle⟩ = none from hs]
            refine hcleanup hv fun hblocked => hblocked.2 src hsrc hs
          | some srcZv =>
            rw [show w.get .zfsVolume ⟨cfg.openebsNs, src.volumeHandle⟩ = some srcZv from hs]
            have hblocked : Blocked cfg name st t w := by
              refine ⟨hrestored, fun source hsource => ?_⟩
              rw [hsrc] at hsource
              rw [← Option.some.inj hsource, hs]
              simp
            refine (ends_bind _ _).mpr (ends_createIfAbsent.mpr ?_)
            refine ends_requeueMsg ?_ fun a w' hshown =>
              .adopting target t _ ht htr hv hblocked (by simp [hsrc]) a w' hshown
            rw [World.get_create_other w _ fun heq => absurd heq (by decide)]
            exact he
      · rw [if_neg (by exact fun hcon => hrestored (hany.mp hcon))]
        exact hcleanup hv fun hblocked => hrestored hblocked.1

/-! ## The other steps -/

/-- Neither an evacuation nor a transfer resource was touched, and no volume created. -/
structure Trimmed (w w' : World) : Prop where
  evac : ∀ key, w'.get .evacuation key = w.get .evacuation key
  bkp : ∀ key, w'.get .zfsBackup key = w.get .zfsBackup key
  rst : ∀ key, w'.get .zfsRestore key = w.get .zfsRestore key
  vol : ∀ key, w.get .zfsVolume key = none → w'.get .zfsVolume key = none

namespace Trimmed

theorem refl (w : World) : Trimmed w w := ⟨fun _ => rfl, fun _ => rfl, fun _ => rfl, fun _ h => h⟩

theorem trans (h : Trimmed w w₁) (h' : Trimmed w₁ w') : Trimmed w w' :=
  ⟨fun key => (h'.evac key).trans (h.evac key), fun key => (h'.bkp key).trans (h.bkp key),
    fun key => (h'.rst key).trans (h.rst key), fun key hk => h'.vol key (h.vol key hk)⟩

theorem patch {k : Kind} (w : World) (key : Key) (p : Patch k) (he : k ≠ .evacuation)
    (hb : k ≠ .zfsBackup) (hr : k ≠ .zfsRestore) : Trimmed w (w.effect (.patch k key p)) := by
  refine ⟨fun _ => World.get_patch_other w fun h => absurd h.symm he,
    fun _ => World.get_patch_other w fun h => absurd h.symm hb,
    fun _ => World.get_patch_other w fun h => absurd h.symm hr, fun key' hnone => ?_⟩
  refine (World.get_effect_other fun x hw hkey => ?_).trans hnone
  cases hw with
  | patch key p o ho =>
    rw [Patch.key_apply, World.get_key ho] at hkey
    rw [hkey, hnone] at ho
    cases ho

theorem delete_volume (w : World) (key : Key) : Trimmed w (w.effect (.delete .zfsVolume key)) := by
  refine ⟨fun _ => World.get_delete_other w fun h => (by cases h),
    fun _ => World.get_delete_other w fun h => (by cases h),
    fun _ => World.get_delete_other w fun h => (by cases h), fun key' hnone => ?_⟩
  refine (World.get_effect_other fun x hw hkey => ?_).trans hnone
  cases hw with
  | delete key o ho hdel =>
    have hmarked : o.key = key' := hkey
    rw [← World.get_key ho, hmarked, hnone] at ho
    cases ho

end Trimmed

section Steps
variable {err : Error → World → Prop} {ok : Unit → World → Prop}

theorem ends_restorePolicy {evac : Obj .evacuation} (h : ∀ w', Trimmed w w' → ok () w') :
    Ends cluster ok err (restorePolicy evac st) w := by
  unfold restorePolicy
  split
  · simp only [bind_eq, ends_bind, ends_getOpt]
    split
    · rename_i pv hpv
      split_ifs
      · exact (ends_patchObj hpv).mpr (h _ (.patch w _ _ (by decide) (by decide) (by decide)))
      · exact h w (.refl w)
    · exact h w (.refl w)
  · exact h w (.refl w)

theorem ends_unlock (h : ∀ w', Trimmed w w' → ok () w') : Ends cluster ok err (unlock st) w := by
  unfold unlock
  split
  · exact h w (.refl w)
  · rename_i r hr
    simp only [unlockKey, bind_eq, ends_bind]
    refine ends_updateParams fun w₁ hparams => ?_
    have htrim : Trimmed w w₁ :=
      ⟨fun _ => hparams _ _ (by decide), fun _ => hparams _ _ (by decide),
        fun _ => hparams _ _ (by decide), fun _ hnone => by rwa [hparams _ _ (by decide)]⟩
    exact h _ (htrim.trans (.patch w₁ r.key _ (by decide) (by decide) (by decide)))

theorem ends_unguardSource (source : SourceInfo) (h : ∀ w', Trimmed w w' → ok () w') :
    Ends cluster ok err
      (do setFinalizers .zfsVolume (source.volKey cfg) unguard
          stripZfsFinalizerIfNodeGone .zfsVolume (source.volKey cfg) source.nodeId) w := by
  have hvol : ∀ key fs, ∀ w₁, Trimmed w w₁ →
      Trimmed w (w₁.effect (.patch .zfsVolume key (.finalizers fs))) := fun key fs w₁ h₁ =>
    h₁.trans (.patch w₁ key _ (by decide) (by decide) (by decide))
  have hstrip : ∀ w₂, Trimmed w w₂ → Ends cluster ok err
      (stripZfsFinalizerIfNodeGone .zfsVolume (source.volKey cfg) source.nodeId) w₂ :=
    fun w₂ h₂ => ends_strip (h _ h₂) fun o _ => h _ (hvol _ _ w₂ h₂)
  simp only [bind_eq, ends_bind]
  exact ends_setFinalizers (hstrip w (.refl w)) fun o _ => hstrip _ (hvol _ _ w (.refl w))

/-- Whether the orphaned volume is deleted first. -/
theorem ends_deleteOrphan {evac : Obj .evacuation} (source : SourceInfo) (gone : Bool)
    (h : ∀ w', Trimmed w w' → ok () w') :
    Ends cluster ok err
      (do let pv ← getOpt .pv (pvKey evac)
          if gone ∧ pv.isNone ∧ st.originalReclaimPolicy = some "Delete" then
            match ← getOpt .zfsVolume (source.volKey cfg) with
            | some zv => if !zv.deleting then deleteObj .zfsVolume (source.volKey cfg) else pure ()
            | none => pure ()
          setFinalizers .zfsVolume (source.volKey cfg) unguard
          stripZfsFinalizerIfNodeGone .zfsVolume (source.volKey cfg) source.nodeId) w := by
  have hrest : ∀ w₁, Trimmed w w₁ → Ends cluster ok err
      (do setFinalizers .zfsVolume (source.volKey cfg) unguard
          stripZfsFinalizerIfNodeGone .zfsVolume (source.volKey cfg) source.nodeId) w₁ :=
    fun w₁ h₁ => ends_unguardSource source fun w' h' => h w' (h₁.trans h')
  simp only [bind_eq, ends_bind, ends_getOpt] at hrest ⊢
  split
  · simp only [ends_bind, ends_getOpt]
    cases hzv : w.get .zfsVolume (source.volKey cfg) with
    | none => simpa only [ends_bind] using hrest w (.refl w)
    | some zv =>
      simp only []
      split
      · simp only [ends_bind]
        exact (ends_deleteObj hzv).mpr (hrest _ (.delete_volume w _))
      · simpa only [ends_bind] using hrest w (.refl w)
  · simpa only [ends_bind] using hrest w (.refl w)

theorem ends_releaseSource {evac : Obj .evacuation} (h : ∀ w', Trimmed w w' → ok () w') :
    Ends cluster ok err (releaseSource cfg evac st) w := by
  unfold releaseSource
  split
  · exact h w (.refl w)
  · rename_i source _
    have hdelete := fun gone => @ends_deleteOrphan cfg st w err ok evac source gone h
    simp only [bind_eq, ends_bind] at hdelete ⊢
    split
    · simp only [ends_bind, ends_getOpt, pure_eq, ends_ret]
      exact hdelete _
    · exact hdelete false

end Steps

/-! ## One round -/

theorem tended_volume {key : Key} (h : ∀ o, w.get .zfsVolume key = some o → o.deleting = true)
    (hg : ¬ GuardedAt .zfsVolume key w) : w.tended.get .zfsVolume key = none := by
  rw [World.get_tended]
  cases hget : w.get .zfsVolume key with
  | none => rfl
  | some o =>
    have hdel := h o hget
    have hno : guardFinalizer ∉ o.metadata.finalizers := fun hmem => hg ⟨o, hget, hmem⟩
    simp [tend, hdel, hno]

theorem tended_guarded {key : Key} (h : GuardedAt .zfsVolume key w) :
    GuardedAt .zfsVolume key w.tended := by
  obtain ⟨o, hget, hmem⟩ := h
  unfold GuardedAt
  rw [World.get_tended, hget]
  by_cases hdel : o.deleting
  · exact ⟨o, by simp [tend, hdel, hmem], hmem⟩
  · by_cases hzfs : zfsFinalizer ∈ o.metadata.finalizers
    · exact ⟨o, by simp [tend, hdel, hzfs], hmem⟩
    · exact ⟨{ o with metadata := { o.metadata with
          finalizers := o.metadata.finalizers ++ [zfsFinalizer] } },
        by simp [tend, hdel, hzfs], by simp [hmem]⟩

theorem tended_restore {key : Key} (h : ∀ o, w.get .zfsRestore key = some o → o.deleting = true) :
    w.tended.get .zfsRestore key = none := by
  rw [World.get_tended]
  cases hget : w.get .zfsRestore key with
  | none => rfl
  | some o =>
    have hdel := h o hget
    simp [tend, hdel]

theorem tended_backup {key : Key} (h : ∀ o, w.get .zfsBackup key = some o → o.deleting = true) :
    w.tended.get .zfsBackup key = none := by
  rw [World.get_tended]
  cases hget : w.get .zfsBackup key with
  | none => rfl
  | some o =>
    have hdel := h o hget
    simp [tend, hdel]

theorem tended_evac (key : Key) : w.tended.get .evacuation key = w.get .evacuation key := by
  rw [World.get_tended]
  cases w.get .evacuation key <;> rfl

theorem tended_none {k : Kind} {key : Key} (h : w.get k key = none) : w.tended.get k key = none := by
  rw [World.get_tended, h]
  rfl

/-- What one round does to an aborting evacuation and its objects. -/
inductive Rounded (cfg : Config) (name : String) (st₀ : ZFSEvacuationStatus) (del : Bool)
    (w w' : World) : Prop
  | finished (done : Finished name w')
      (vol : ∀ key, w.get .zfsVolume key = none → w'.get .zfsVolume key = none)
      (clear : ∀ target t, st₀.target = some target → st₀.transfer = some t →
        w.get .zfsVolume (target.volKey cfg) = none ∧ ¬ Blocked cfg name st₀ t w ∧
          w'.get .zfsVolume (target.volKey cfg) = none ∧
          w'.get .zfsRestore (rstKey cfg name t.attempt) = none)
  | destroying (target : TargetInfo) (t : TransferStatus) (ht : st₀.target = some target)
      (htr : st₀.transfer = some t) (hv : w.get .zfsVolume (target.volKey cfg) ≠ none)
      (gone : ¬ GuardedAt .zfsVolume (target.volKey cfg) w →
        w'.get .zfsVolume (target.volKey cfg) = none)
      (guarded : GuardedAt .zfsVolume (target.volKey cfg) w →
        GuardedAt .zfsVolume (target.volKey cfg) w')
      (rst : ∀ key, w'.get .zfsRestore key = (w.get .zfsRestore key).bind (tend .zfsRestore))
      (vol : ∀ key, key ≠ target.volKey cfg →
        w'.get .zfsVolume key = (w.get .zfsVolume key).bind (tend .zfsVolume))
      (on : On name st₀ del w w')
  | adopting (target : TargetInfo) (t : TransferStatus) (ht : st₀.target = some target)
      (htr : st₀.transfer = some t) (hv : w.get .zfsVolume (target.volKey cfg) = none)
      (hblocked : Blocked cfg name st₀ t w) (hsource : st₀.source ≠ none)
      (there : w'.get .zfsVolume (target.volKey cfg) ≠ none)
      (free : ¬ GuardedAt .zfsVolume (target.volKey cfg) w')
      (rst : ∀ key, w'.get .zfsRestore key = (w.get .zfsRestore key).bind (tend .zfsRestore))
      (vol : ∀ key, key ≠ target.volKey cfg →
        w'.get .zfsVolume key = (w.get .zfsVolume key).bind (tend .zfsVolume))
      (on : On name st₀ del w w')
  | unsourced (target : TargetInfo) (t : TransferStatus) (ht : st₀.target = some target)
      (htr : st₀.transfer = some t) (hv : w.get .zfsVolume (target.volKey cfg) = none)
      (hblocked : Blocked cfg name st₀ t w) (hsource : st₀.source = none)
      (gone : w'.get .zfsVolume (target.volKey cfg) = none)
      (rst : ∀ key, w'.get .zfsRestore key = (w.get .zfsRestore key).bind (tend .zfsRestore))
      (on : On name st₀ del w w')
  | cleaning (target : TargetInfo) (t : TransferStatus) (ht : st₀.target = some target)
      (htr : st₀.transfer = some t) (hv : w.get .zfsVolume (target.volKey cfg) = none)
      (hfree : ¬ Blocked cfg name st₀ t w)
      (hleft : w.get .zfsBackup (bkpKey cfg name t.attempt) ≠ none ∨
        w.get .zfsRestore (rstKey cfg name t.attempt) ≠ none)
      (gone : w'.get .zfsVolume (target.volKey cfg) = none)
      (bkp : w'.get .zfsBackup (bkpKey cfg name t.attempt) = none)
      (rst : w'.get .zfsRestore (rstKey cfg name t.attempt) = none)
      (on : On name st₀ del w w')

theorem blocked_congr (hsource : st.source = st₀.source)
    (hr : ∀ key, w'.get .zfsRestore key = w.get .zfsRestore key)
    (hv : ∀ key, w'.get .zfsVolume key = w.get .zfsVolume key) :
    Blocked cfg name st t w' ↔ Blocked cfg name st₀ t w := by
  unfold Blocked RestoreDone
  rw [hr, hsource]
  simp only [hv]

theorem Shown.aside (h : Shown name st w w') : Aside w w' := by
  rcases h with rfl | ⟨msg, rfl⟩
  · exact fun _ _ _ => rfl
  · exact aside_patch w _ _

theorem Shown.on (h : Shown name st w w') (hst : SameMove st₀ st) (hon : Heading name st₀ del w) :
    On name st₀ del w w' := by
  rcases h with rfl | ⟨msg, rfl⟩
  · exact ⟨hon, id⟩
  · exact on_status hon
      ⟨hst.target, hst.transfer, hst.source, hst.committed, hst.phase⟩

theorem On.tended (h : On name st₀ del w w') : On name st₀ del w w'.tended :=
  h.trans (on_same h.1 tended_evac)

theorem Cleared.going {k : Kind} {key : Key} (h : Cleared k key w w') :
    ∀ o, w'.get k key = some o → o.deleting = true := by
  rcases h with ⟨hnone, rfl⟩ | h
  · intro o ho
    rw [hnone] at ho
    cases ho
  · exact h.going

theorem Sided.on {a : Option Action} (h : Sided cfg name st w a w') (hon : Heading name st₀ del w)
    (hst : SameMove st₀ st) : On name st₀ del w w' := by
  cases h with
  | skipped _ => exact ⟨hon, id⟩
  | clear _ _ _ _ _ _ _ _ => exact ⟨hon, id⟩
  | destroying target t _ _ _ _ w₂ _ hl hs =>
    have hon₂ := on_same hon (SameBut.other hl.same (by decide))
    exact hon₂.trans (hs.on hst hon₂.1)
  | adopting target t info _ _ _ _ _ _ _ hs =>
    have hon₂ : On name st₀ del w (w.effect (.create .zfsVolume (targetZfsvolume cfg info target))) :=
      on_same hon fun key => World.get_create_other _ _ fun heq => absurd heq (by decide)
    exact hon₂.trans (hs.on hst hon₂.1)
  | cleaning target t _ _ _ _ _ w₂ w₃ _ _ hb hr hs =>
    have hon₂ := on_same hon (SameBut.other hb.same (by decide))
    have hon₃ := hon₂.trans (on_same hon₂.1 (SameBut.other hr.same (by decide)))
    exact hon₃.trans (hs.on hst hon₃.1)

/-- A round that the target side ends. -/
theorem Sided.rounded {a : Action} (h : Sided cfg name st w₁ (some a) w') (haside : Aside w w₁)
    (hon : On name st₀ del w w₁) (hst : SameMove st₀ st) :
    Rounded cfg name st₀ del w w'.tended := by
  have hvol : ∀ key, w₁.get .zfsVolume key = w.get .zfsVolume key := fun key =>
    haside _ key (by decide)
  have hrst : ∀ key, w₁.get .zfsRestore key = w.get .zfsRestore key := fun key =>
    haside _ key (by decide)
  have hon' := h.on hon.1 hst
  cases h with
  | destroying target t ht htr hv _ w₂ _ hl hs =>
    have hshown := hs.aside
    have hguard : GuardedAt .zfsVolume (target.volKey cfg) w' ↔
        GuardedAt .zfsVolume (target.volKey cfg) w := by
      unfold GuardedAt
      rw [hshown _ _ (by decide), ← hvol]
      exact hl.guard
    refine .destroying target t (hst.target.symm.trans ht) (hst.transfer.symm.trans htr) ?_ ?_ ?_ ?_
      ?_ ?_
    · rwa [← hvol]
    · intro hfree
      refine tended_volume (fun o ho => hl.going o ?_) fun hcon => hfree (hguard.mp hcon)
      rwa [hshown _ _ (by decide)] at ho
    · exact fun hg => tended_guarded (hguard.mpr hg)
    · intro key
      rw [World.get_tended, hshown _ _ (by decide), SameBut.other hl.same (by decide), hrst]
    · intro key hne
      rw [World.get_tended, hshown _ _ (by decide), hl.same _ _ fun _ => hne, hvol]
    · exact (hon.trans hon').tended
  | adopting target t info ht htr hv hblocked hsource _ _ hs =>
    have hshown := hs.aside
    have hself := World.get_create_self w₁ (o := targetZfsvolume cfg info target) hv
    have hnew := hshown .zfsVolume (target.volKey cfg) (by decide)
    have htend : w'.tended.get .zfsVolume (target.volKey cfg) = _ :=
      (World.get_tended w' _ _).trans (congrArg (·.bind (tend .zfsVolume)) (hnew.trans hself))
    refine .adopting target t (hst.target.symm.trans ht) (hst.transfer.symm.trans htr) ?_ ?_ ?_ ?_
      ?_ ?_ ?_ ?_
    · rwa [← hvol]
    · exact (blocked_congr hst.source hrst hvol).mp hblocked
    · rwa [← hst.source]
    · rw [htend]
      simp [tend, Obj.born, Obj.stamped, Obj.deleting, targetZfsvolume]
    · rintro ⟨o, ho, hmem⟩
      rw [htend] at ho
      have hguard : guardFinalizer ≠ zfsFinalizer := by decide
      simp [tend, Obj.born, Obj.stamped, Obj.deleting, targetZfsvolume] at ho
      simp [← ho, hguard] at hmem
    · intro key
      rw [World.get_tended, hshown _ _ (by decide),
        World.get_create_other _ _ fun heq => absurd heq (by decide), hrst]
    · intro key hne
      rw [World.get_tended, hshown _ _ (by decide), World.get_create_other _ _ fun _ => hne, hvol]
    · exact (hon.trans hon').tended
  | cleaning target t ht htr hv hfree _ w₂ w₃ _ hleft hb hr hs =>
    have hshown := hs.aside
    have hbkp : w₁.get .zfsBackup (bkpKey cfg name t.attempt) = _ := haside _ _ (by decide)
    refine .cleaning target t (hst.target.symm.trans ht) (hst.transfer.symm.trans htr) ?_ ?_ ?_ ?_
      ?_ ?_ ?_
    · rwa [← hvol]
    · rwa [← blocked_congr hst.source hrst hvol]
    · rwa [← hbkp, ← hrst]
    · refine tended_none ?_
      rw [hshown _ _ (by decide), SameBut.other hr.same (by decide), SameBut.other hb.same (by decide), hv]
    · refine tended_backup fun o ho => hb.going o ?_
      rw [hshown _ _ (by decide), SameBut.other hr.same (by decide)] at ho
      exact ho
    · refine tended_restore fun o ho => hr.going o ?_
      rwa [hshown _ _ (by decide)] at ho
    · exact (hon.trans hon').tended

/-- A round that ends in an error for want of a recorded source. -/
theorem NoSource.rounded (h : NoSource cfg name st w₁ w') (haside : Aside w w₁)
    (hon : On name st₀ del w w₁) (hst : SameMove st₀ st) :
    Rounded cfg name st₀ del w w'.tended := by
  obtain ⟨rfl, hsource, target, t, ht, htr, hv, hblocked⟩ := h
  have hvol : ∀ key, w'.get .zfsVolume key = w.get .zfsVolume key := fun key =>
    haside _ key (by decide)
  have hrst : ∀ key, w'.get .zfsRestore key = w.get .zfsRestore key := fun key =>
    haside _ key (by decide)
  refine .unsourced target t (hst.target.symm.trans ht) (hst.transfer.symm.trans htr) ?_ ?_ ?_ ?_ ?_
    hon.tended
  · rwa [← hvol]
  · exact (blocked_congr hst.source hrst hvol).mp hblocked
  · rwa [← hst.source]
  · exact tended_none hv
  · intro key
    rw [World.get_tended, hrst]

theorem Heading.path (h : Heading name st₀ del w) : Path name st₀ del w := by
  obtain ⟨e, he, hheld⟩ := h
  intro e' he'
  rw [he] at he'
  exact .inl (Option.some.inj he' ▸ hheld)

theorem tended_path (h : Path name st₀ del w) : Path name st₀ del w.tended :=
  fun e he => h e ((tended_evac _).symm.trans he)

/-- What holds once the agents have followed up on a reconcile that ended in `w'`. -/
def AfterRound (cfg : Config) (name : String) (st₀ : ZFSEvacuationStatus) (del : Bool)
    (w w' : World) : Prop :=
  Rounded cfg name st₀ del w w'.tended ∧ Path name st₀ del w'.tended

/-- The last step of an evacuation that is being deleted. -/
theorem unsigned_end (h : Heading name st₀ del w) (hdel : del = true) :
    Ends cluster (fun _ w' => Aside w w' ∧ Finished name w' ∧ Path name st₀ del w')
      (fun _ _ => False) (removeEvacFinalizer name) w := by
  obtain ⟨e, he, hheld⟩ := h
  simp only [removeEvacFinalizer, bind_eq, ends_bind, ends_getOpt, he]
  refine (ends_patchObj he).mpr ?_
  have hself := World.get_patch_self he
    (.finalizers (e.metadata.finalizers.filter (· ≠ evacuationFinalizer)))
  refine ⟨aside_patch w _ _, fun e' he' => ?_, fun e' he' => ?_⟩
  · rw [hself] at he'
    split_ifs at he' with hgone
    rw [← Option.some.inj he']
    refine .inr ⟨?_, by simp [Patch.apply, Obj.stamped]⟩
    rw [← hdel, ← hheld.deleting]
    rfl
  · rw [hself] at he'
    split_ifs at he' with hgone
    rw [← Option.some.inj he']
    have hthere : ((Patch.finalizers (e.metadata.finalizers.filter (· ≠ evacuationFinalizer))).apply
        e).gone = false := by simpa using hgone
    exact .inl ⟨hheld.target, hheld.transfer, hheld.source, hheld.committed, hheld.deleting,
      hheld.enters, hthere⟩

/-- The last step of one that is not. -/
theorem failed_end (h : Heading name st₀ del w) {msg : Option String} :
    Ends cluster (fun _ w' => Aside w w' ∧ Finished name w' ∧ Path name st₀ del w')
      (fun _ _ => False) (writeStatus name { st with phase := .failed, message := msg }) w := by
  obtain ⟨e, he, hheld⟩ := h
  refine (ends_writeStatus he).mpr ?_
  have hself := World.get_patch_self he (.status { st with phase := .failed, message := msg })
  have hfailed : ∀ e', (w.effect (.patch .evacuation ⟨"", name⟩
      (.status { st with phase := .failed, message := msg }))).get .evacuation ⟨"", name⟩ = some e' →
      (viewStatus e').phase = .failed := by
    intro e' he'
    rw [hself] at he'
    split_ifs at he'
    rw [← Option.some.inj he']
    exact phase_mergeStatus _ _
  exact ⟨aside_patch w _ _, fun e' he' => .inl (hfailed e' he'), fun e' he' => .inr (hfailed e' he')⟩

/-- One run of the abort path, from a world in which it has at most written the status. -/
theorem ends_body (cfg : Config) {evac : Obj .evacuation} (hdel : evac.deleting = del)
    (haside : Aside w w₁) (hon : On name st₀ del w w₁) (hst : SameMove st₀ st) :
    Ends cluster (fun _ => AfterRound cfg name st₀ del w)
      (fun _ => AfterRound cfg name st₀ del w)
      (do match ← targetSide cfg name st with
          | some action => pure action
          | none => do
            restorePolicy evac st
            unlock st
            releaseSource cfg evac st
            if evac.deleting then do
              removeEvacFinalizer name
              pure Action.awaitChange
            else do
              writeStatus name { st with
                phase := .failed
                message := some (st.message.getD "evacuation aborted") }
              pure Action.awaitChange) w₁ := by
  have hthere : w₁.get .evacuation ⟨"", name⟩ ≠ none := by
    obtain ⟨e, he, -⟩ := hon.1
    simp [he]
  simp only [bind_eq, pure_eq, ends_bind]
  refine ends_mono (ends_targetSide hthere) (fun a w₂ hsided => ?_) fun _ w₂ herr => ?_
  · have hon₂ := hon.trans (hsided.on hon.1 hst)
    cases a with
    | some action => exact ⟨hsided.rounded haside hon hst, tended_path hon₂.1.path⟩
    | none =>
      simp only [ends_bind]
      refine ends_restorePolicy fun w₃ h₃ => ends_unlock fun w₄ h₄ => ends_releaseSource fun w₅ h₅ => ?_
      have htrim := h₃.trans (h₄.trans h₅)
      have hon₅ := hon₂.trans (on_same hon₂.1 htrim.evac)
      have hend : ∀ w', Aside w₅ w' ∧ Finished name w' ∧ Path name st₀ del w' →
          AfterRound cfg name st₀ del w w' := by
        rintro w' ⟨haside', hfinished, hpath⟩
        have hsame : ∀ key, w₂.get .zfsVolume key = w₁.get .zfsVolume key := by
          cases hsided with
          | skipped _ => exact fun _ => rfl
          | clear _ _ _ _ _ _ _ _ => exact fun _ => rfl
        refine ⟨.finished (fun e he => hfinished e ((tended_evac _).symm.trans he)) ?_ ?_,
          tended_path hpath⟩
        · intro key hnone
          refine tended_none ?_
          rw [haside' _ _ (by decide)]
          refine htrim.vol _ ?_
          rw [hsame, haside _ _ (by decide), hnone]
        intro target t ht htr
        cases hsided with
        | skipped h =>
          rcases h with h | h
          · rw [hst.target, ht] at h
            cases h
          · rw [hst.transfer, htr] at h
            cases h
        | clear target' t' ht' htr' hv hfree hb hr =>
          obtain rfl : target' = target := Option.some.inj (ht'.symm.trans (hst.target.trans ht))
          obtain rfl : t' = t := Option.some.inj (htr'.symm.trans (hst.transfer.trans htr))
          have hvol : ∀ key, w₁.get .zfsVolume key = w.get .zfsVolume key := fun key =>
            haside _ key (by decide)
          have hrst : ∀ key, w₁.get .zfsRestore key = w.get .zfsRestore key := fun key =>
            haside _ key (by decide)
          refine ⟨(hvol _).symm.trans hv, ?_, tended_none ?_, tended_none ?_⟩
          · rwa [← blocked_congr hst.source hrst hvol]
          · rw [haside' _ _ (by decide)]
            exact htrim.vol _ hv
          · rw [haside' _ _ (by decide), htrim.rst]
            exact hr
      rw [hdel]
      by_cases hd : del = true
      · rw [if_pos hd]
        simp only [ends_bind, ends_ret]
        exact ends_mono (unsigned_end hon₅.1 hd) (fun _ w' h => hend w' h) fun _ _ h => h.elim
      · rw [if_neg hd]
        simp only [ends_bind, ends_ret]
        exact ends_mono (failed_end hon₅.1) (fun _ w' h => hend w' h) fun _ _ h => h.elim
  · have hrounded := herr.rounded haside hon hst
    obtain ⟨rfl, -⟩ := herr
    exact ⟨hrounded, tended_path hon.1.path⟩

theorem aside_transferRemove (w : World) (evac : String) :
    Aside w (w.effect (.transferRemove evac)) := fun _ _ _ => rfl

theorem ends_run {evac : Obj .evacuation} (hname : evac.name = name) (hdel : evac.deleting = del)
    (haside : Aside w w₁) (hon : On name st₀ del w w₁)
    (hst : SameMove st₀ { st with phase := .aborting }) :
    Ends cluster (fun _ => AfterRound cfg name st₀ del w)
      (fun _ => AfterRound cfg name st₀ del w)
      (run cfg evac st) w₁ := by
  subst hname
  have hrest : ∀ w₂, Aside w w₂ → On evac.name st₀ del w w₂ →
      Ends cluster (fun _ => AfterRound cfg evac.name st₀ del w)
        (fun _ => AfterRound cfg evac.name st₀ del w)
        (do send (.transferRemove evac.name)
            match ← targetSide cfg evac.name { st with phase := .aborting } with
            | some action => pure action
            | none => do
              restorePolicy evac { st with phase := .aborting }
              unlock { st with phase := .aborting }
              releaseSource cfg evac { st with phase := .aborting }
              if evac.deleting then do
                removeEvacFinalizer evac.name
                pure Action.awaitChange
              else do
                writeStatus evac.name { st with
                  phase := .failed
                  message := some (st.message.getD "evacuation aborted") }
                pure Action.awaitChange) w₂ := by
    intro w₂ ha ho
    have hbody := ends_body cfg hdel (ha.trans (aside_transferRemove w₂ evac.name))
      (ho.trans (on_same ho.1 fun _ => rfl)) hst
    exact hbody
  simp only [run]
  by_cases hp : st.phase = .aborting
  · rw [if_neg (by simpa using hp)]
    exact hrest w₁ haside hon
  · rw [if_pos hp]
    simp only [bind_eq, ends_bind] at hrest ⊢
    obtain ⟨e, he, hheld⟩ := hon.1
    refine (ends_writeStatus he).mpr ?_
    exact hrest _ (haside.trans (aside_patch w₁ _ _)) (hon.trans (on_status hon.1 hst))

/-- Finalizers set on an evacuation that is not being deleted. -/
theorem on_finalizers {e : Obj .evacuation} (he : w.get .evacuation ⟨"", name⟩ = some e)
    (h : Held st₀ del e) (hlive : e.deleting = false) (fs : List String) :
    On name st₀ del w (w.effect (.patch .evacuation ⟨"", name⟩ (.finalizers fs))) := by
  have hself := World.get_patch_self he (.finalizers fs)
  have hthere : ((Patch.finalizers fs).apply e).gone = false := by
    have hdeleting : ((Patch.finalizers fs).apply e).deleting = false := hlive
    simp [Obj.gone, hdeleting]
  rw [hthere] at hself
  refine ⟨⟨_, hself, ?_⟩, fun _ e' he' hdel => ?_⟩
  · exact ⟨h.target, h.transfer, h.source, h.committed, h.deleting, h.enters, hthere⟩
  · rw [hself] at he'
    rw [← Option.some.inj he'] at hdel
    exact absurd (hdel.symm.trans hlive) (by decide)

/-- A round of an evacuation on the abort path. -/
theorem rounded_of_heading (cfg : Config) (h : Heading name st₀ del w) :
    Rounded cfg name st₀ del w (w.round cfg name) ∧ Path name st₀ del (w.round cfg name) := by
  have hheading := h
  obtain ⟨e, he, hheld⟩ := h
  have hname : e.name = name := congrArg Key.name (World.get_key he)
  have hroundeq : w.round cfg name = (exec cluster (reconcile cfg e) w).2.tended := by
    rw [World.round, he]
  rw [hroundeq]
  refine Ends.exec (show Ends cluster (fun _ => AfterRound cfg name st₀ del w)
    (fun _ => AfterRound cfg name st₀ del w) (reconcile cfg e) w from ?_)
  have henters := hheld.enters
  simp only [entersAbort, hheld.committed, Bool.not_false, Bool.and_true, Bool.and_eq_true,
    decide_eq_true_eq, Bool.or_eq_true] at henters
  obtain ⟨⟨hcompleted, hfailed⟩, hwhy⟩ := henters
  have hover : ¬ ((viewStatus e).phase = .completed ∨ (viewStatus e).phase = .failed) :=
    fun hcon => hcon.elim hcompleted hfailed
  simp only [reconcile, if_neg hover, hheld.committed, Bool.not_false, Bool.and_true]
  by_cases hlive : e.deleting = true
  · rw [if_pos hlive]
    exact ends_run hname hheld.deleting (fun _ _ _ => rfl) ⟨hheading, id⟩
      ⟨hheld.target, hheld.transfer, hheld.source, rfl, rfl⟩
  · rw [if_neg hlive]
    have hphase : (viewStatus e).phase = .aborting := hwhy.resolve_left hlive
    have hst : SameMove st₀ { viewStatus e with phase := .aborting } :=
      ⟨hheld.target, hheld.transfer, hheld.source, hheld.committed, rfl⟩
    have hrun : ∀ w₁, Aside w w₁ → On name st₀ del w w₁ →
        Ends cluster (fun _ => AfterRound cfg name st₀ del w)
          (fun _ => AfterRound cfg name st₀ del w)
          (run cfg e (viewStatus e)) w₁ := fun w₁ ha ho => ends_run hname hheld.deleting ha ho hst
    rw [if_pos (by simpa using hlive), bind_eq, ends_bind]
    unfold ensureEvacFinalizer
    by_cases hfin : (e.metadata.finalizers.any (· == evacuationFinalizer)) = true
    · rw [if_pos hfin]
      simp only [pure_eq, ends_ret, if_pos hphase]
      exact hrun w (fun _ _ _ => rfl) ⟨hheading, id⟩
    · rw [if_neg hfin, hname]
      refine (ends_patchObj he).mpr ?_
      simp only [if_pos hphase]
      refine hrun _ (aside_patch w _ _) (on_finalizers he hheld (by simpa using hlive) _)

end ZfsEvacuation.Abort
