import ZfsEvacuation.PrepareSound

/-!
# The phases from the copy on keep the contract

The transfer attempts, adoption, commit, swap and cleanup.
-/
namespace ZfsEvacuation
open ClientProgram Program

section Handlers
variable {cfg : Config} {view : Obj .evacuation} {tr : Trace} {st : ZFSEvacuationStatus}

/-! ## Transfer resources -/

variable (cfg view tr st) in
/-- The phases in which transfer resources are cleaned up. -/
def CleansCrs (t : TransferStatus) : Prop :=
  st.phase = .transferring ∨
    st.phase = .aborting ∧ MayDropRestore cfg view tr st t ∨ st.phase = .cleaningUp

theorem MayDropRestore.mono {tr' : Trace} {t : TransferStatus}
    (h : MayDropRestore cfg view tr st t) (hsub : tr ⊆ tr') : MayDropRestore cfg view tr' st t := by
  refine ⟨h.1, h.2.imp ?_ ?_⟩
  · exact fun ⟨rst, hseen, hopen⟩ => ⟨rst, hsub hseen, hopen⟩
  · exact fun ⟨source, hs, hseen⟩ => ⟨source, hs, hsub hseen⟩

theorem CleansCrs.mono {tr' : Trace} {t : TransferStatus} (h : CleansCrs cfg view tr st t)
    (hsub : tr ⊆ tr') : CleansCrs cfg view tr' st t :=
  h.imp id fun hlater => hlater.imp (fun hab => ⟨hab.1, hab.2.mono hsub⟩) id

theorem follows_cleanupTransferCrs {st' : ZFSEvacuationStatus} {t : TransferStatus}
    (hst : Knows view tr st) (hphase : CleansCrs cfg view tr st t) (ht : st.transfer = some t)
    (hq : Quiet tr) {post : Trace → Bool → Prop}
    (hpost : ∀ tr' b, Extends tr tr' → (b = true → CrsGone cfg view tr' st) → post tr' b) :
    Follows (Allowed cfg view) post tr
      (cleanupTransferCrs cfg view.name t.attempt st') := by
  have hcur : ∀ {tr'}, Extends tr tr' → Knows view tr' st :=
    fun hext => hext.knows hst
  simp only [cleanupTransferCrs, bind_eq, follows_bind]
  refine follows_cleanupCr reads_allowed ?_ ?_ fun tr₁ bkpGone hext₁ hbkp => ?_
  · exact fun tr' hext => ⟨st, hcur hext, t, hphase.imp id fun hlater => hlater.imp And.left id,
      ht, rfl⟩
  · exact fun tr' o hext => ⟨st, hcur (hext.saw ..), o, rfl, rfl⟩
  refine follows_cleanupCr reads_allowed ?_ ?_ fun tr₂ rstGone hext₂ hrst => ?_
  · exact fun tr' hext => ⟨st, hcur (hext₁.trans hext), t, hphase.mono (hext₁.trans hext).mono,
      ht, rfl⟩
  · exact fun tr' o hext => ⟨st, hcur ((hext₁.trans hext).saw ..), o, rfl, rfl⟩
  have hext := hext₁.trans hext₂
  refine hpost tr₂ _ hext fun hgone => ?_
  have hboth : bkpGone = true ∧ rstGone = true := by simpa using hgone
  have hsame : ∀ t', st.transfer = some t' → t' = t := fun t' h' => by
    rw [ht] at h'
    exact (Option.some.inj h').symm
  refine ⟨fun t' ht' => ?_, fun t' ht' => ?_, hext.quiet hq⟩
  · rw [hsame t' ht']
    exact hext₂.mono (hbkp hboth.1)
  · rw [hsame t' ht']
    exact hrst hboth.2

/-! ## Transferring -/

theorem follows_relayPeers {node : Obj .node} {post : Trace → List IpNet → Prop}
    (hpost : ∀ nets, post tr nets) : Follows (Allowed cfg view) post tr (relayPeers node) := by
  unfold relayPeers
  split_ifs
  · trivial
  · exact hpost _

theorem CrsGone.mono {tr' : Trace} (h : CrsGone cfg view tr st) (hext : Extends tr tr') :
    CrsGone cfg view tr' st :=
  ⟨fun t ht => hext.mono (h.bkp t ht), fun t ht => hext.mono (h.rst t ht), hext.quiet h.quiet⟩

theorem CrsGone.cons {e : Event kubeInterface} (h : CrsGone cfg view tr st)
    (he : createsCr e.1 = false) : CrsGone cfg view (e :: tr) st :=
  ⟨fun t ht => List.mem_cons_of_mem _ (h.bkp t ht), fun t ht => List.mem_cons_of_mem _ (h.rst t ht),
    h.quiet.cons he⟩

theorem startAttempt_follows {attempt : Nat} {st' : ZFSEvacuationStatus}
    (h : Extends [] tr) (hp : (viewStatus view).phase = .transferring)
    (hgone : CrsGone cfg view tr (viewStatus view))
    (hturn : NextAttempt view (viewStatus view) attempt)
    (hst' : ∃ x, st' = { viewStatus view with transfer := x }) :
    Follows (Allowed cfg view) (fun _ _ => True) tr (startAttempt cfg view st' attempt) := by
  obtain ⟨x, rfl⟩ := hst'
  simp only [startAttempt, bind_eq, follows_bind, follows_orErr]
  intro source hs target ht
  refine follows_transferGet_bind.mpr ⟨trivial, fun existing => ?_⟩
  have h₁ : Extends tr (sawTransferEvent view.name existing :: tr) :=
    (Extends.refl tr).step ⟨rfl, rfl, rfl, rfl⟩
  by_cases hrunning : (existing.any fun t => attempt ≤ t.attempt) = true
  · rw [if_pos hrunning]
    trivial
  rw [if_neg hrunning]
  simp only [follows_bind]
  refine follows_nodeById reads_allowed fun tr₂ srcNode h₂ => ?_
  refine follows_orErr.mpr fun srcNode _ => ?_
  refine follows_nodeById reads_allowed fun tr₃ dstNode h₃ => ?_
  refine follows_orErr.mpr fun dstNode _ => ?_
  refine follows_relayPeers fun backupPeers => ?_
  refine follows_relayPeers fun restorePeers => ?_
  refine follows_spawnRelay_bind.mpr ⟨trivial, fun relay => ?_⟩
  have h₄ : Extends tr (⟨.spawnRelay backupPeers restorePeers, relay⟩ :: tr₃) :=
    ((h₁.trans h₂).trans h₃).step ⟨rfl, rfl, rfl, rfl⟩
  cases relay with
  | error text => trivial
  | ok relay =>
    have hbehind : ∀ x, existing = some x → x.attempt < attempt := fun x hx => by
      simpa [hx] using hrunning
    refine follows_transferInsert_bind.mpr ⟨⟨rfl, hp, (h.trans h₄).unregistered unregistered_nil,
      hturn, ⟨existing, ?_, hbehind⟩, hgone.mono h₄⟩, ?_⟩
    · exact List.mem_cons_of_mem _ ((h₂.trans h₃).mono (List.mem_cons_self ..))
    refine follows_random_bind.mpr ⟨trivial, fun r => ?_⟩
    simp only [follows_bind]
    refine follows_nowRfc3339.mpr ⟨trivial, fun now => ?_⟩
    -- Registering the relay is no silent call, but no status write and no creation either.
    have hinsert : Knows view (⟨.transferInsert ⟨view.name, attempt, relay⟩, ()⟩ ::
        ⟨.spawnRelay backupPeers restorePeers, .ok relay⟩ :: tr₃) (viewStatus view) :=
      (h.trans h₄).knows_view.cons rfl
    have hknows : Knows view (⟨.now, now⟩ :: ⟨.random (2 ^ 16), r⟩ ::
        ⟨.transferInsert ⟨view.name, attempt, relay⟩, ()⟩ ::
        ⟨.spawnRelay backupPeers restorePeers, .ok relay⟩ :: tr₃) (viewStatus view) :=
      (hinsert.cons rfl).cons rfl
    have hgone₅ : CrsGone cfg view (⟨.now, now⟩ :: ⟨.random (2 ^ 16), r⟩ ::
        ⟨.transferInsert ⟨view.name, attempt, relay⟩, ()⟩ ::
        ⟨.spawnRelay backupPeers restorePeers, .ok relay⟩ :: tr₃) (viewStatus view) :=
      (((hgone.mono h₄).cons rfl).cons rfl).cons rfl
    refine follows_writeStatus.mpr ⟨allowed_write hknows ?_, ?_⟩
    · exact .attempted attempt _ _ _ _ hp (by simp [hs]) (by simp [ht]) hgone₅ hturn
        ⟨relay, by simp⟩
    · refine follows_createIfAbsent ?_ fun _ => trivial
      exact ⟨_, hknows.patched .., source, _, relay.backupPort, hp, hs, rfl, rfl,
        ⟨relay, by simp⟩⟩

theorem mayDrop {t : TransferStatus} (h : Extends [] tr)
    (hp : (viewStatus view).phase = .transferring) (ht : (viewStatus view).transfer = some t)
    (hdrop : DropReason cfg view tr t) : view.name = view.name ∧ MayDrop cfg view tr :=
  ⟨rfl, .inr ⟨hp, h.unregistered unregistered_nil, t, ht, hdrop⟩⟩

theorem retryOrFail_follows {t : TransferStatus} {reason : String}
    (h : Extends [] tr) (hp : (viewStatus view).phase = .transferring)
    (ht : (viewStatus view).transfer = some t) (hdrop : DropReason cfg view tr t) :
    Follows (Allowed cfg view) (fun _ _ => True) tr
      (retryOrFail cfg view (viewStatus view) t
        ((specOf view).maxAttempts.getD defaultMaxAttempts) reason) := by
  unfold retryOrFail
  refine follows_transferRemove_bind.mpr ⟨mayDrop h hp ht hdrop, ?_⟩
  simp only [bind_eq, follows_bind]
  have h₁ : Extends [] (⟨.transferRemove view.name, ()⟩ :: tr) := h.step ⟨rfl, rfl, rfl, rfl⟩
  refine follows_cleanupTransferCrs h₁.knows_view (.inl hp) ht h₁.quiet_nil ?_
  intro tr' gone hext hgone
  have h₂ := h₁.trans hext
  by_cases hleft : (!gone) = true
  · rw [if_pos hleft]
    exact follows_wait (allowed_write h₂.knows_view (.attemptFailing reason _ hp))
  rw [if_neg hleft]
  split_ifs with hmax
  · exact follows_beginAbort (allowed_write h₂.knows_view (.exhausted reason _ hp))
  · have hturn : NextAttempt view (viewStatus view) (t.attempt + 1) := by
      rw [NextAttempt, ht]
      exact ⟨rfl, Nat.lt_of_not_le hmax⟩
    exact startAttempt_follows h₂ hp (hgone (by simpa using hleft)) hturn ⟨_, rfl⟩

theorem createRestore_follows {t : TransferStatus} {port : Nat} (h : Extends [] tr)
    (hp : (viewStatus view).phase = .transferring) (ht : (viewStatus view).transfer = some t)
    (hconn : SourceConnected view tr t.attempt) :
    Follows (Allowed cfg view) (fun _ _ => True) tr
      (createRestore cfg (viewStatus view) view.name t.attempt port) := by
  simp only [createRestore, bind_eq, follows_bind, follows_orErr, follows_getOpt]
  refine fun source _ target htarget => ⟨trivial, fun zv => ?_⟩
  cases zv with
  | none => trivial
  | some zv =>
    obtain ⟨m, zv⟩ := zv
    refine follows_createIfAbsent ⟨_, (h.saw ..).knows_view, target, t,
      adaptToTarget zv.spec target, port, hp, htarget, ht, rfl, ?_, ?_,
      (h.saw ..).written_nil⟩ fun _ => trivial
    · obtain ⟨a, hseen, hattempt, hsource⟩ := hconn
      exact ⟨a, List.mem_cons_of_mem _ hseen, hattempt, hsource⟩
    · exact (h.saw ..).unregistered unregistered_nil

/-- Nothing but two Done resources completes an attempt. -/
theorem transferVerdict_complete {o : TransferObs} {bytes : Option Nat}
    (h : transferVerdict o = .complete bytes) :
    o.bkpStatus = bkpStatusDone ∧ o.rstStatus = bkpStatusDone := by
  unfold transferVerdict at h
  split at h
  · assumption
  · repeat' split at h
    all_goals cases h

theorem not_agentFailed_empty : agentFailed "" = false := by decide

/-- Without a judgement and without resources, a newer relay makes the status a stale one. -/
theorem transferVerdict_stale {o : TransferObs} {m : RelayObs} (hreason : o.failureReason = none)
    (hbkp : o.bkpStatus = "") (hrst : o.rstStatus = "") (hmem : o.mem = some m)
    (hnewer : o.attempt < m.attempt) : transferVerdict o = .staleStatus := by
  have hdone : ¬ ("" = bkpStatusDone ∧ "" = bkpStatusDone) := by decide
  simp only [transferVerdict, hreason, hbkp, hrst, hmem, if_neg hdone, not_agentFailed_empty,
    Bool.false_eq_true, if_false, if_pos hnewer]

/-- Any other verdict has a reason to drop the relay. -/
theorem dropReason_of_verdict {t : TransferStatus} {o : TransferObs} {bkp : Option (Obj .zfsBackup)}
    {rst : Option (Obj .zfsRestore)} {mem : Option ActiveTransfer}
    (hbkp : sawEvent .zfsBackup (bkpKey cfg view.name t.attempt) bkp ∈ tr)
    (hrst : sawEvent .zfsRestore (rstKey cfg view.name t.attempt) rst ∈ tr)
    (hmem : sawTransferEvent view.name mem ∈ tr) (hattempt : o.attempt = t.attempt)
    (hreason : o.failureReason = t.failureReason) (hbkpStatus : o.bkpStatus = backupStatus bkp)
    (hrstStatus : o.rstStatus = restoreStatus rst) (hobs : o.mem = mem.map observeRelay)
    (h : transferVerdict o ≠ .staleStatus) : DropReason cfg view tr t := by
  cases hr : t.failureReason with
  | some reason => exact .judged (by rw [hr]; rfl)
  | none =>
    cases bkp with
    | some b => exact .backup b hbkp
    | none =>
      cases rst with
      | some x => exact .restore x hrst
      | none =>
        refine .notNewer mem hmem fun x hx => ?_
        by_contra hnewer
        subst hx
        have hlt : o.attempt < (observeRelay x).attempt := by
          rw [hattempt]
          exact Nat.lt_of_not_le hnewer
        exact h (transferVerdict_stale (hreason.trans hr) hbkpStatus hrstStatus hobs hlt)

/-- The restore is only asked for once the relay of the attempt has its source. -/
theorem transferVerdict_createRestore {o : TransferObs} (h : transferVerdict o = .createRestore) :
    ∃ m, o.mem = some m ∧ m.attempt = o.attempt ∧ m.sourceConnected = true := by
  unfold transferVerdict at h
  split at h
  · cases h
  split at h
  · cases h
  split at h
  · cases h
  split at h
  · cases h
  split at h
  · cases h
  rename_i m hmem
  by_cases hnewer : o.attempt < m.attempt
  · rw [if_pos hnewer] at h
    cases h
  by_cases holder : m.attempt < o.attempt
  · rw [if_neg hnewer, if_pos holder] at h
    cases h
  rw [if_neg hnewer, if_neg holder] at h
  split_ifs at h with _ _ hconn
  have heq : m.attempt = o.attempt := by omega
  exact ⟨m, hmem, heq, hconn⟩

theorem transferring_follows (h : Extends [] tr) (hp : (viewStatus view).phase = .transferring) :
    Follows (Allowed cfg view) (fun _ _ => True) tr
      (transferring cfg view (viewStatus view)) := by
  unfold transferring
  cases ht : (viewStatus view).transfer with
  | none =>
    refine startAttempt_follows h hp ⟨?_, ?_, h.quiet_nil⟩ ?_ ⟨none, ?_⟩
    · simp [ht]
    · simp [ht]
    · rw [NextAttempt, ht]
    · rw [← ht]
  | some t =>
    simp only [bind_eq, follows_bind, follows_getOpt]
    refine ⟨trivial, fun bkp => ⟨trivial, fun rst => ?_⟩⟩
    have h₁ := (h.saw .zfsBackup (bkpKey cfg view.name t.attempt) bkp).saw .zfsRestore
      (rstKey cfg view.name t.attempt) rst
    refine follows_transferGet_bind.mpr ⟨trivial, fun mem => ?_⟩
    refine follows_now_bind.mpr ⟨trivial, fun now => ?_⟩
    have h₂ : Extends [] (⟨.now, now⟩ :: sawTransferEvent view.name mem :: _ :: _ :: tr) :=
      (h₁.step ⟨rfl, rfl, rfl, rfl⟩).step ⟨rfl, rfl, rfl, rfl⟩
    have hdrop : ∀ o : TransferObs, o.attempt = t.attempt → o.failureReason = t.failureReason →
        o.bkpStatus = backupStatus bkp → o.rstStatus = restoreStatus rst →
        o.mem = mem.map observeRelay → transferVerdict o ≠ .staleStatus →
        DropReason cfg view (⟨.now, now⟩ :: sawTransferEvent view.name mem ::
          sawEvent .zfsRestore (rstKey cfg view.name t.attempt) rst ::
          sawEvent .zfsBackup (bkpKey cfg view.name t.attempt) bkp :: tr) t :=
      fun o => dropReason_of_verdict (by simp) (by simp) (by simp)
    split
    · rename_i bytes hverdict
      obtain ⟨hbkp, hrst⟩ := transferVerdict_complete hverdict
      have hreason := hdrop _ rfl rfl rfl rfl rfl (by rw [hverdict]; simp)
      refine follows_transferRemove_bind.mpr ⟨mayDrop h₂ hp ht hreason, ?_⟩
      have h₃ : Extends [] (⟨.transferRemove view.name, ()⟩ :: _) := h₂.step ⟨rfl, rfl, rfl, rfl⟩
      have hcopied : ∀ b : Option Nat, Writes cfg view
          (⟨.transferRemove view.name, ()⟩ :: ⟨.now, now⟩ :: sawTransferEvent view.name mem ::
            sawEvent .zfsRestore (rstKey cfg view.name t.attempt) rst ::
            sawEvent .zfsBackup (bkpKey cfg view.name t.attempt) bkp :: tr) (viewStatus view)
          { viewStatus view with
            transfer := some { t with bytesRelayed := b.or t.bytesRelayed }
            phase := .adopting
            message := none } :=
        fun b => .copied t b bkp rst hp h₃.same ht (by simp) (by simp) hbkp hrst
      cases bytes with
      | none =>
        have hw := hcopied none
        simp only [Option.none_or, ← ht] at hw
        exact follows_advance (allowed_write h₃.knows_view hw)
      | some b => exact follows_advance (allowed_write h₃.knows_view (hcopied (some b)))
    · rename_i reason hverdict
      have hreason := hdrop _ rfl rfl rfl rfl rfl (by rw [hverdict]; simp)
      exact retryOrFail_follows h₂ hp ht hreason
    · trivial
    · rename_i hverdict
      have hreason := hdrop _ rfl rfl rfl rfl rfl (by rw [hverdict]; simp)
      exact follows_transferRemove_bind.mpr ⟨mayDrop h₂ hp ht hreason, trivial⟩
    · exact follows_wait (allowed_write h₂.knows_view (.shown _ (by simp [hp]) (by simp [hp])))
    · rename_i hverdict
      obtain ⟨m, hmem, hattempt, hsource⟩ := transferVerdict_createRestore hverdict
      obtain ⟨a, rfl, rfl⟩ := Option.map_eq_some_iff.mp hmem
      simp only [follows_bind]
      exact follows_mono (createRestore_follows h₂ hp ht ⟨a, by simp, hattempt, hsource⟩)
        fun _ _ _ => trivial
    · split_ifs
      · simp only [follows_bind]
        exact follows_writeStatus.mpr ⟨allowed_write h₂.knows_view (.progressed t _ hp ht), trivial⟩
      · trivial

/-! ## Adoption, commit and swap -/

theorem adopting_follows (h : Extends [] tr) (hp : (viewStatus view).phase = .adopting) :
    Follows (Allowed cfg view) (fun _ _ => True) tr (adopting cfg view (viewStatus view)) := by
  simp only [adopting, bind_eq, follows_bind, follows_orErr, follows_getOpt]
  refine fun source _ target ht => ⟨trivial, fun zv => ?_⟩
  have h₁ := h.saw .zfsVolume (target.volKey cfg) zv
  cases zv with
  | none =>
    simp only [follows_bind, follows_getOpt]
    refine ⟨trivial, fun src => ?_⟩
    cases src with
    | none => trivial
    | some src =>
      obtain ⟨m, src⟩ := src
      simp only [follows_bind]
      have h₂ := h₁.saw .zfsVolume (source.volKey cfg) (some ⟨m, src⟩)
      exact follows_createIfAbsent ⟨_, h₂.knows_view, target, src.spec, .inl hp, ht, rfl⟩
        fun _ => trivial
  | some zv =>
    simp only
    split_ifs
    · exact follows_advance (allowed_write h₁.knows_view (.adopted hp))
    · exact follows_beginAbort (allowed_write h₁.knows_view (.gaveUp _ (.inl hp)))
    · exact follows_wait (allowed_write h₁.knows_view (.shown _ (by simp [hp]) (by simp [hp])))

theorem committing_follows (h : Extends [] tr) (hp : (viewStatus view).phase = .committing) :
    Follows (Allowed cfg view) (fun _ _ => True) tr (committing cfg view (viewStatus view)) := by
  have hgiveUp : ∀ {tr' msg}, Extends [] tr' → Follows (Allowed cfg view) (fun _ _ => True) tr'
      (beginAbort view.name (viewStatus view) msg) :=
    fun h' => follows_beginAbort (allowed_write h'.knows_view (.gaveUp _ (.inr hp)))
  simp only [committing, bind_eq, follows_bind, follows_orErr, follows_getOpt]
  refine fun r hr source hs target ht => ⟨trivial, fun pvc pvcObj _ => ?_⟩
  have h₁ := h.saw .pvc r.key pvc
  by_cases huid : pvcObj.metadata.uid ≠ r.uid
  · rw [if_pos huid]
    exact hgiveUp h₁
  rw [if_neg huid]
  simp only [follows_bind]
  refine follows_podsReferencingPvc reads_allowed fun pods => ?_
  have h₂ := h₁.listed .pod { ns := some r.ns } pods
  split_ifs
  · exact hgiveUp h₂
  simp only [follows_bind]
  refine follows_blockingReason fun tr' reason hext hidle => ?_
  have h₃ := h₂.trans hext
  cases reason with
  | some msg =>
    exact follows_wait (allowed_write h₃.knows_view (.shown _ (by simp [hp]) (by simp [hp])))
  | none =>
    simp only [follows_bind, follows_getOpt, follows_orErr]
    refine ⟨trivial, fun oldPv' oldPv hold => ?_⟩
    subst hold
    have h₄ := h₃.saw .pv (pvKey view) (some oldPv)
    have hlisted := hext.mono (List.mem_cons_self (a := listedEvent .pod { ns := some r.ns } pods))
    split_ifs with hold
    · exact follows_fail (allowed_write h₄.knows_view
        (.pvReplaced _ source oldPv _ pods tr' hp hs rfl hlisted hold))
    · split
      · trivial
      · rename_i newPv hnew
        exact follows_advance (allowed_write h₄.knows_view (.committed source target r oldPv newPv
          hp h₄.written_nil hs ht hr (List.mem_cons_self ..) (by simpa using hold) hnew pods
          (List.mem_cons_of_mem _ hlisted) (hidle rfl).idle
          fun hmode => ((hidle rfl).repels hmode).mono (List.subset_cons_self ..)))

theorem stripPv_allowed {o : Obj .pv} (h : Extends [] tr)
    (hp : (viewStatus view).phase = .swapping) :
    Allowed cfg view (sawEvent .pv (pvKey view) (some o) :: tr)
      (.patch .pv (pvKey view) (.finalizers (stripPvFinalizers o.metadata.finalizers))) :=
  ⟨_, (h.saw ..).knows_view, hp, rfl, ⟨o, rfl, rfl⟩⟩

theorem swapping_follows (h : Extends [] tr) (hp : (viewStatus view).phase = .swapping) :
    Follows (Allowed cfg view) (fun _ _ => True) tr (swapping cfg view (viewStatus view)) := by
  simp only [swapping, bind_eq, follows_bind, follows_orErr, follows_getOpt]
  refine fun source hs r hr => ⟨trivial, fun pv => ?_⟩
  have h₁ := h.saw .pv (pvKey view) pv
  cases pv with
  | none =>
    simp only [follows_bind, follows_orErr]
    intro manifest hm
    exact follows_createIfAbsent ⟨_, h₁.knows_view, manifest, hp, hm, rfl⟩ fun _ => trivial
  | some pv =>
    simp only
    by_cases hold : pv.metadata.uid = source.pvUid
    · rw [if_pos hold]
      by_cases hdel : (!pv.deleting) = true
      · rw [if_pos hdel]
        simp only [follows_bind]
        refine follows_podsReferencingPvc reads_allowed fun pods => ?_
        have h₂ := h₁.listed .pod { ns := some r.ns } pods
        refine follows_blockingReason fun tr' reason hext _ => ?_
        have h₃ := h₂.trans hext
        cases reason with
        | some msg =>
          exact follows_wait
            (allowed_write h₃.knows_view (.shown _ (by simp [hp]) (by simp [hp])))
        | none =>
          simp only [follows_bind, follows_deleteObj]
          refine ⟨⟨_, h₃.knows_view, source, pv, hp, h₃.written_nil, rfl, hs, hext.mono (by simp),
            hold⟩, ?_⟩
          exact follows_setFinalizers reads_allowed
            (fun o => stripPv_allowed (h₃.step ⟨rfl, rfl, rfl, rfl⟩) hp) fun _ _ _ => trivial
      · rw [if_neg hdel]
        simp only [follows_bind]
        exact follows_setFinalizers reads_allowed (fun o => stripPv_allowed h₁ hp)
          fun _ _ _ => trivial
    · rw [if_neg hold]
      split_ifs with hbound
      · have hadvance : ∀ tr', Extends [] tr' → sawEvent .pv (pvKey view) (some pv) ∈ tr' →
            Follows (Allowed cfg view) (fun _ _ => True) tr'
              (advance view.name (viewStatus view) .cleaningUp) :=
          fun tr' h' hseen => follows_advance (allowed_write h'.knows_view
            (.swapped source r pv hp h'.written_nil hs hr hseen hold hbound))
        cases horig : (viewStatus view).originalReclaimPolicy with
        | none => exact hadvance _ h₁ (List.mem_cons_self ..)
        | some orig =>
          have hpatch : Allowed cfg view (sawEvent .pv (pvKey view) (some pv) :: tr)
              (.patch .pv (pvKey view) (.reclaimPolicy orig)) :=
            ⟨_, h₁.knows_view, rfl, .inr ⟨.inr hp, horig⟩⟩
          simp only [follows_bind]
          refine follows_patchObj.mpr ⟨hpatch, ?_⟩
          exact hadvance _ (h₁.step ⟨rfl, rfl, rfl, rfl⟩)
            (List.mem_cons_of_mem _ (List.mem_cons_self ..))
      · trivial

/-! ## Cleanup -/

theorem UnlockSeen.mono {key : String} {tr' : Trace} (h : UnlockSeen tr key) (hsub : tr ⊆ tr') :
    UnlockSeen tr' key := by
  rcases h with h | ⟨m, spec, hnot, hev⟩
  · exact .inl (hsub h)
  · exact .inr ⟨m, spec, hnot, Or.imp (hsub ·) (Or.imp (hsub ·) (hsub ·)) hev⟩

theorem unlocked_of_unchanged {p : EvacuationParamsSpec} {key : String}
    (h : (p.unlock key).2 = false) : ¬ p.Locked key := by
  have hle := fun keys : List String => List.length_filter_le (fun k => decide (k ≠ key)) keys
  have hlen : (p.pvcKeys.filter (· ≠ key)).length + (p.claimablePvcKeys.filter (· ≠ key)).length =
      p.pvcKeys.length + p.claimablePvcKeys.length := by simpa [EvacuationParamsSpec.unlock] using h
  have hall : ∀ keys : List String, (keys.filter (· ≠ key)).length = keys.length → key ∉ keys := by
    intro keys hkeys hmem
    have hne := List.length_filter_eq_length_iff.mp hkeys key hmem
    simp at hne
  have hidle := hle p.pvcKeys
  have hclaimable := hle p.claimablePvcKeys
  rintro (hmem | hmem)
  · exact hall p.pvcKeys (by omega) hmem
  · exact hall p.claimablePvcKeys (by omega) hmem

theorem unlockSeen_of_paramsSet {key : String} (h : ParamsSet (fun p => p.unlock key) tr) :
    UnlockSeen tr key := by
  have hnot : ∀ p : EvacuationParamsSpec, ¬ (p.unlock key).1.Locked key :=
    fun p hl => (EvacuationParamsSpec.locked_unlock.mp hl).1 rfl
  cases h with
  | absent seen _ => exact .inl seen
  | created done => exact .inr ⟨_, _, hnot {}, .inr (.inl done)⟩
  | kept m spec seen same => exact .inr ⟨m, spec, unlocked_of_unchanged same, .inl seen⟩
  | replaced m spec done => exact .inr ⟨m, _, hnot spec, .inr (.inr done)⟩

/-- The phases in which the claim is unlocked. -/
def Unlocks (st : ZFSEvacuationStatus) : Prop := st.phase = .aborting ∨ st.phase = .cleaningUp

theorem follows_unlockKey {r : PvcRef} (hst : Knows view tr st) (hphase : Unlocks st)
    (hr : st.pvcRef = some r) {post : Trace → Unit → Prop}
    (hpost : ∀ tr', Extends tr tr' → UnlockSeen tr' r.lockKey → post tr' ()) :
    Follows (Allowed cfg view) post tr (unlockKey r.lockKey) := by
  have hcur : ∀ {tr'}, Extends tr tr' → Knows view tr' st :=
    fun hext => hext.knows hst
  refine follows_updateParams reads_allowed ?_ ?_ fun tr' hext hset => ?_
  · exact fun tr' hext => ⟨st, hcur hext, r, hr, rfl, .unlock hphase⟩
  · exact fun tr' m spec hext hseen => ⟨st, hcur hext, r, spec, hr, hseen, .unlock hphase⟩
  · exact hpost tr' hext (unlockSeen_of_paramsSet hset)

theorem follows_unlabelPvc {r : PvcRef} (hst : Knows view tr st) (hr : st.pvcRef = some r)
    {post : Trace → Unit → Prop} (hpost : ∀ tr', Extends tr tr' → post tr' ()) :
    Follows (Allowed cfg view) post tr (unlabelPvc r) :=
  ⟨⟨st, hst, ⟨r, hr, rfl⟩, rfl⟩, fun _ => hpost _ ((Extends.refl tr).step ⟨rfl, rfl, rfl, rfl⟩)⟩

theorem follows_unlock {st' : ZFSEvacuationStatus} (hst : Knows view tr st)
    (hphase : Unlocks st) (hsame : st'.pvcRef = st.pvcRef) {post : Trace → Unit → Prop}
    (hpost : ∀ tr', Extends tr tr' → (∀ r, st.pvcRef = some r → UnlockSeen tr' r.lockKey) →
      post tr' ()) : Follows (Allowed cfg view) post tr (Abort.unlock st') := by
  unfold Abort.unlock
  rw [hsame]
  cases hr : st.pvcRef with
  | none => exact hpost tr (Extends.refl tr) (by simp [hr])
  | some r =>
    simp only [bind_eq, follows_bind]
    refine follows_unlockKey hst hphase hr fun tr₁ hext₁ hseen => ?_
    refine follows_unlabelPvc (hext₁.knows hst) hr fun tr₂ hext₂ =>
      hpost tr₂ (hext₁.trans hext₂) ?_
    intro r' hr'
    rw [hr] at hr'
    obtain rfl := Option.some.inj hr'
    exact hseen.mono hext₂.mono

theorem follows_removeEvacFinalizer (hst : Knows view tr st)
    (hleave : ∀ tr', Extends tr tr' → MayLeave cfg view tr' st) :
    Follows (Allowed cfg view) (fun _ _ => True) tr (removeEvacFinalizer view.name) := by
  simp only [removeEvacFinalizer, bind_eq, follows_bind, follows_getOpt]
  refine ⟨trivial, fun o => ?_⟩
  cases o with
  | none => trivial
  | some o =>
    have hext := (Extends.refl tr).saw .evacuation ⟨"", view.name⟩ (some o)
    exact follows_patchObj.mpr
      ⟨⟨st, hext.knows hst, rfl, .inr ⟨⟨o, rfl, rfl⟩, hleave _ hext⟩⟩, trivial⟩

theorem follows_markTargetSnapDeleteIssued (h : Extends [] tr)
    (hp : (viewStatus view).phase = .cleaningUp)
    (hseen : ∀ t, (viewStatus view).transfer = some t → SnapDeleteSeen cfg tr t)
    {post : Trace → ZFSEvacuationStatus → Prop}
    (hpost : ∀ tr' st', Knows view tr' st' → st'.phase = .cleaningUp → post tr' st') :
    Follows (Allowed cfg view) post tr
      (markTargetSnapDeleteIssued view.name (viewStatus view)) := by
  simp only [markTargetSnapDeleteIssued, bind_eq, follows_bind]
  exact follows_writeStatus.mpr
    ⟨allowed_write h.knows_view (.snapDeleteIssued hp h.written_nil hseen),
      hpost _ _ (h.knows_view.patched ..) hp⟩

theorem SnapSettled.mono {tr' : Trace} (h : SnapSettled cfg tr st) (hsub : tr ⊆ tr') :
    SnapSettled cfg tr' st := fun t target ht htarget =>
  ⟨hsub (h t target ht htarget).1, (h t target ht htarget).2.imp_right (hsub ·)⟩

theorem follows_destroyTargetSnapshot (h : Extends [] tr)
    (hp : (viewStatus view).phase = .cleaningUp)
    {post : Trace → ZFSEvacuationStatus × Option String → Prop}
    (hleft : ∀ tr' st' msg, Knows view tr' st' → st'.phase = .cleaningUp →
      post tr' (st', some msg))
    (hdone : ∀ tr', Extends tr tr' → SnapSettled cfg tr' (viewStatus view) →
      post tr' (viewStatus view, none)) :
    Follows (Allowed cfg view) post tr
      (destroyTargetSnapshot cfg view.name (viewStatus view)) := by
  unfold destroyTargetSnapshot
  simp only
  split
  · rename_i t target ht htarget
    simp only [bind_eq, follows_bind, follows_getOpt]
    refine ⟨trivial, fun snap => ?_⟩
    have h₁ := (Extends.refl tr).saw .zfsSnapshot (t.snapKey cfg) snap
    have hcur : ∀ {tr'}, Extends tr tr' → Knows view tr' (viewStatus view) :=
      fun hext => (h.trans hext).knows_view
    have hmark : ∀ {tr' msg}, Extends tr tr' → SnapDeleteSeen cfg tr' t →
        Follows (Allowed cfg view) post tr' (do
          let st ← markTargetSnapDeleteIssued view.name (viewStatus view)
          pure (st, some msg)) := fun hext hseen => by
      simp only [bind_eq, follows_bind]
      refine follows_markTargetSnapDeleteIssued (h.trans hext) hp ?_ fun tr' st' => hleft tr' st' _
      intro x hx
      rw [ht] at hx
      obtain rfl := Option.some.inj hx
      exact hseen
    have hdelete : ∀ {tr'}, Extends tr tr' → MayDeleteSnap cfg tr' t target →
        Allowed cfg view tr' (.delete .zfsSnapshot (t.snapKey cfg)) := fun hext hmay =>
      ⟨_, hcur hext, t, target, hp, ht, htarget, rfl, (h.trans hext).written_nil, hmay⟩
    have hsettled : ∀ {tr'}, sawEvent .zfsSnapshot (t.snapKey cfg) none ∈ tr' →
        (t.targetSnapDeleteIssued = true ∨ sawEvent .zfsVolume (target.volKey cfg) none ∈ tr') →
        SnapSettled cfg tr' (viewStatus view) := by
      intro tr' hsaw hwhy x y hx hy
      rw [ht] at hx
      rw [htarget] at hy
      obtain rfl := Option.some.inj hx
      obtain rfl := Option.some.inj hy
      exact ⟨hsaw, hwhy⟩
    by_cases hissued : t.targetSnapDeleteIssued = true
    · rw [if_pos hissued]
      cases snap with
      | none => exact hdone _ h₁ (hsettled (List.mem_cons_self ..) (.inl hissued))
      | some cr =>
        simp only [follows_bind]
        refine follows_strip_seen reads_allowed (fun tr' o hext hgone => ?_) fun tr' hext => ?_
        · have h₂ := (h₁.trans hext).saw .zfsSnapshot (t.snapKey cfg) (some o)
          obtain ⟨nodes, hlisted, hnone⟩ := hgone
          exact ⟨_, hcur h₂, ⟨o, rfl, rfl⟩, t, target, hp, ht, htarget, rfl,
            (h.trans h₂).written_nil, nodes, List.mem_cons_of_mem _ hlisted, hnone⟩
        · exact hleft tr' _ _ (hcur (h₁.trans hext)) hp
    · rw [if_neg hissued]
      cases snap with
      | none =>
        simp only [follows_bind, follows_getOpt]
        refine ⟨trivial, fun zv => ?_⟩
        have h₂ := h₁.saw .zfsVolume (target.volKey cfg) zv
        cases zv with
        | none =>
          exact hdone _ h₂ (hsettled (List.mem_cons_of_mem _ (List.mem_cons_self ..))
            (.inr (List.mem_cons_self ..)))
        | some zv =>
          obtain ⟨m, zv⟩ := zv
          simp only [follows_bind]
          refine follows_createIfAbsent
            ⟨_, hcur h₂, target, t, zv.spec, hp, htarget, ht, rfl, by simpa using hissued⟩
            fun r => ?_
          have h₃ : Extends tr
              (createdEvent .zfsSnapshot (targetSnapshotCr cfg target t.snapName zv.spec) r :: _) :=
            h₂.step ⟨rfl, rfl, rfl, rfl⟩
          exact hleft _ _ _ (hcur h₃) hp
      | some cr =>
        simp only
        split_ifs with hdel hfin
        · exact hmark h₁ (.inr ⟨cr, hdel, rfl⟩)
        · simp only [follows_bind]
          have hmember : zfsFinalizer ∈ cr.metadata.finalizers := by simpa using hfin
          refine follows_deleteObj.mpr ⟨hdelete h₁ (.inl ⟨cr, hmember, rfl⟩), ?_⟩
          exact (follows_bind _ _).mp (hmark (h₁.step ⟨rfl, rfl, rfl, rfl⟩) (.inl rfl))
        · simp only [follows_bind]
          refine follows_nodeById_seen reads_allowed fun tr' node hext hgone => ?_
          have h₂ := h₁.trans hext
          cases node with
          | some _ => exact hleft _ _ _ (hcur h₂) hp
          | none =>
            simp only [follows_bind]
            refine follows_deleteObj.mpr ⟨hdelete h₂ (.inr (hgone rfl)), ?_⟩
            exact (follows_bind _ _).mp (hmark (h₂.step ⟨rfl, rfl, rfl, rfl⟩) (.inl rfl))
  · rename_i hnone
    refine hdone tr (Extends.refl tr) fun t target ht htarget => ?_
    exact absurd htarget (hnone t target ht)

end Handlers

end ZfsEvacuation
