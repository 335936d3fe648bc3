import ZfsEvacuation.StatusShape

/-!
# No field is missed

A handler that needs a field which its phase has on record never ends in the error that the
field is not recorded.
-/
namespace ZfsEvacuation
open ClientProgram Program GuardedRun

/-- The texts with which a handler says that a field it needs is not on record. -/
def unrecordedTexts : List String :=
  ["no source recorded", "no target recorded", "no pvcRef recorded",
    "no newPVManifest recorded; cannot complete swap"]

/-- The error, or the one it gives the context of, says that a field is not on record. -/
def Error.unrecorded : Error → Bool
  | .api _ => false
  | .other text => unrecordedTexts.contains text
  | .context _ cause => cause.unrecorded

/-- The error repeats the text with which the relay could not be started. -/
def Told (tr : Trace) (e : Error) : Prop :=
  ∃ (backupPeers restorePeers : List IpNet) (text : String) (rest : Trace),
    tr = ⟨.spawnRelay backupPeers restorePeers, (.error text : Except String Relay)⟩ :: rest ∧
      e = .other text

/-- No error of the handlers about a field that is not on record. -/
def Excused (tr : Trace) (e : Error) : Prop := e.unrecorded = true → Told tr e

/-! ## Programs that miss no field -/

/-- The program never says that a field is not on record. -/
def Spares {α : Type} (p : M α) : Prop :=
  ∀ tr, Raises (fun _ e => e.unrecorded = false) tr p

/-- The program says so only in the words of the relay. -/
def MostlySpares {α : Type} (p : M α) : Prop := ∀ tr, Raises Excused tr p

section Rules
variable {α β : Type} {p : M α} {f : α → M β}

theorem spares_pure (a : α) : Spares (pure a : M α) := fun _ => trivial

theorem spares_throw {e : Error} (h : e.unrecorded = false) : Spares (throw e : M α) := fun _ => h

theorem Spares.bind (h : Spares p) (hf : ∀ a, Spares (f a)) : Spares (p >>= f) :=
  fun tr => raises_bind (h tr) fun tr' a => hf a tr'

theorem Spares.withContext (h : Spares p) (text : String) : Spares (withContext text p) :=
  fun tr => raises_mapError (h tr)

theorem Spares.mostly (h : Spares p) : MostlySpares p := fun tr =>
  raises_mono (h tr) fun _ e he hmissed => by
    rw [he] at hmissed
    cases hmissed

theorem MostlySpares.bind (h : MostlySpares p) (hf : ∀ a, MostlySpares (f a)) :
    MostlySpares (p >>= f) :=
  fun tr => raises_bind (h tr) fun tr' a => hf a tr'

theorem spares_send (c : Call) : Spares (send c) := fun _ _ => trivial

theorem spares_answer (r : Except ApiError α) : Spares (answer r) := by
  cases r with
  | ok a => exact spares_pure a
  | error e => exact spares_throw rfl

theorem spares_getOpt (k : Kind) (key : Key) : Spares (getOpt k key) :=
  (spares_send _).bind fun r => spares_answer r

theorem spares_listObjs (k : Kind) (sel : Selector) : Spares (listObjs k sel) :=
  (spares_send _).bind fun r => spares_answer r

theorem spares_deleteObj (k : Kind) (key : Key) : Spares (deleteObj k key) :=
  (spares_send _).bind fun r => spares_answer r

theorem spares_patchObj (k : Kind) (key : Key) (patch : Patch k) :
    Spares (patchObj k key patch) :=
  (spares_send _).bind fun r => spares_answer r

theorem spares_createIfAbsent {k : Kind} (o : Obj k) : Spares (createIfAbsent o) := by
  refine (spares_send _).bind fun r => ?_
  match r with
  | .ok () => exact spares_pure ()
  | .error .conflict => exact spares_pure ()
  | .error .notFound => exact spares_throw rfl
  | .error (.failed _) => exact spares_throw rfl

theorem spares_orErr {o : Option α} {text : String}
    (h : o.isSome = true ∨ unrecordedTexts.contains text = false) : Spares (orErr o text) := by
  cases o with
  | some a => exact spares_pure a
  | none => exact spares_throw (h.resolve_left (by simp))

theorem spares_nowRfc3339 : Spares nowRfc3339 := (spares_send .now).bind fun _ => spares_pure _

end Rules

/-- A text that starts otherwise is none of them. -/
theorem recorded_of_prefix {start : String} (rest : String)
    (h : ∀ text ∈ unrecordedTexts, ¬ start.toList <+: text.toList) :
    unrecordedTexts.contains (start ++ rest) = false := by
  by_contra hmem
  have hin : start ++ rest ∈ unrecordedTexts := by simpa using hmem
  refine h _ hin ?_
  rw [String.toList_append]
  exact List.prefix_append _ _

/-! ## The shared helpers -/

section Helpers

theorem spares_updateParams (mutate : EvacuationParamsSpec → EvacuationParamsSpec × Bool)
    (tries : Nat) : Spares (updateParams mutate tries) := by
  induction tries with
  | zero =>
    have htext : unrecordedTexts.contains ("persistent conflict updating " ++ paramsName) = false :=
      recorded_of_prefix _ (by decide)
    exact spares_throw htext
  | succ tries ih =>
    refine (spares_getOpt _ _).bind fun existing => ?_
    match existing with
    | none =>
      simp only
      split_ifs
      · exact spares_pure ()
      · refine (spares_send _).bind fun r => ?_
        match r with
        | .ok () => exact spares_pure ()
        | .error .conflict => exact ih
        | .error .notFound => exact spares_throw rfl
        | .error (.failed _) => exact spares_throw rfl
    | some ⟨m, (spec : EvacuationParamsSpec)⟩ =>
      simp only
      split_ifs
      · exact spares_pure ()
      · refine (spares_send _).bind fun r => ?_
        match r with
        | .ok () => exact spares_pure ()
        | .error .conflict => exact ih
        | .error .notFound => exact spares_throw rfl
        | .error (.failed _) => exact spares_throw rfl

theorem spares_setFinalizers (k : Kind) (key : Key) (f : List String → List String) :
    Spares (setFinalizers k key f) := by
  refine (spares_getOpt k key).bind fun o => ?_
  cases o with
  | none => exact spares_pure ()
  | some o =>
    simp only
    split_ifs
    · exact spares_patchObj _ _ _
    · exact spares_pure ()

theorem spares_nodeById (nodeId : String) : Spares (nodeById nodeId) := by
  refine (spares_getOpt _ _).bind fun named => ?_
  split
  · exact spares_pure _
  · exact (spares_listObjs _ _).bind fun _ => spares_pure _

theorem spares_stripZfsFinalizerIfNodeGone (k : Kind) (key : Key) (nodeId : String) :
    Spares (stripZfsFinalizerIfNodeGone k key nodeId) := by
  refine (spares_nodeById nodeId).bind fun node => ?_
  cases node with
  | none => exact spares_setFinalizers _ _ _
  | some _ => exact spares_pure ()

theorem spares_podsReferencingPvc (ns name : String) : Spares (podsReferencingPvc ns name) :=
  (spares_listObjs _ _).bind fun _ => spares_pure _

theorem spares_writeStatus (name : String) (st : ZFSEvacuationStatus) :
    Spares (writeStatus name st) := (spares_patchObj _ _ _).withContext _

theorem spares_advance (name : String) (st : ZFSEvacuationStatus) (phase : Phase) :
    Spares (advance name st phase) := (spares_writeStatus _ _).bind fun _ => spares_pure _

theorem spares_failed (name : String) (st : ZFSEvacuationStatus) (msg : String) :
    Spares (fail name st msg) := (spares_writeStatus _ _).bind fun _ => spares_pure _

theorem spares_beginAbort (name : String) (st : ZFSEvacuationStatus) (msg : String) :
    Spares (beginAbort name st msg) := (spares_writeStatus _ _).bind fun _ => spares_pure _

theorem spares_wait (name : String) (st : ZFSEvacuationStatus) (msg : String) (secs : Nat) :
    Spares (wait name st msg secs) := by
  unfold wait
  split_ifs
  · exact (spares_writeStatus _ _).bind fun _ => spares_pure _
  · exact spares_pure _

theorem spares_requeueMsg (name : String) (st : ZFSEvacuationStatus) (msg : String) :
    Spares (requeueMsg name st msg) := by
  unfold requeueMsg
  split_ifs
  · exact (spares_writeStatus _ _).bind fun _ => spares_pure _
  · exact spares_pure _

theorem spares_removeEvacFinalizer (name : String) : Spares (removeEvacFinalizer name) := by
  refine (spares_getOpt _ _).bind fun evac => ?_
  cases evac with
  | none => exact spares_pure ()
  | some _ => exact spares_patchObj _ _ _

theorem spares_unlabelPvc (r : PvcRef) : Spares (unlabelPvc r) :=
  (spares_send _).bind fun _ => spares_pure _

theorem spares_cleanupCr (k : Kind) (key : Key) (nodeId : Option String) :
    Spares (cleanupCr k key nodeId) := by
  refine (spares_getOpt k key).bind fun cr => ?_
  cases cr with
  | none => exact spares_pure _
  | some cr =>
    simp only
    split_ifs
    · exact (spares_deleteObj _ _).bind fun _ => spares_pure _
    · cases nodeId with
      | none => exact spares_pure _
      | some nid => exact (spares_stripZfsFinalizerIfNodeGone _ _ _).bind fun _ => spares_pure _

theorem spares_cleanupTransferCrs (cfg : Config) (evac : String) (attempt : Nat)
    (st : ZFSEvacuationStatus) : Spares (cleanupTransferCrs cfg evac attempt st) :=
  (spares_cleanupCr _ _ _).bind fun _ => (spares_cleanupCr _ _ _).bind fun _ => spares_pure _

theorem spares_sourceRepelsPods {cfg : Config} {st : ZFSEvacuationStatus}
    (hs : st.source.isSome = true) : Spares (sourceRepelsPods cfg st) := by
  refine (spares_orErr (.inl hs)).bind fun source => (spares_getOpt _ _).bind fun node => ?_
  cases node with
  | none => exact spares_pure _
  | some _ => exact spares_pure _

theorem spares_blockingReason {cfg : Config} {evac : Obj .evacuation} {st : ZFSEvacuationStatus}
    (hs : st.source.isSome = true) (pods : List (Obj .pod)) :
    Spares (blockingReason cfg evac st pods) := by
  unfold blockingReason
  split
  · exact spares_pure _
  · simp only
    split_ifs
    · exact spares_pure _
    · refine (spares_sourceRepelsPods hs).bind fun repels => ?_
      cases repels with
      | false => exact spares_pure _
      | true => exact spares_pure _

end Helpers

/-! ## The phases -/

section Phases
variable {cfg : Config} {evac : Obj .evacuation} {st : ZFSEvacuationStatus}

theorem spares_pending : Spares (pending cfg evac st) := by
  refine (spares_getOpt _ _).bind fun pv => ?_
  cases pv with
  | none => exact spares_failed _ _ _
  | some pv =>
    simp only
    split
    · exact spares_failed _ _ _
    split
    · exact spares_failed _ _ _
    refine (spares_getOpt _ _).bind fun pvc => ?_
    cases pvc with
    | none => exact spares_failed _ _ _
    | some pvc =>
      obtain ⟨m, pvc⟩ := pvc
      simp only
      split_ifs
      · exact spares_failed _ _ _
      · exact spares_failed _ _ _
      refine (spares_getOpt _ _).bind fun zv => ?_
      cases zv with
      | none => exact spares_failed _ _ _
      | some zv =>
        simp only
        split
        · exact spares_failed _ _ _
        refine (spares_listObjs _ _).bind fun snaps => ?_
        split
        · exact spares_failed _ _ _
        refine (spares_nodeById _).bind fun node => ?_
        cases node with
        | none => exact spares_failed _ _ _
        | some node =>
          simp only
          split_ifs
          · exact spares_failed _ _ _
          · exact spares_advance _ _ _

theorem spares_guarding (hs : st.source.isSome = true) : Spares (guarding cfg evac st) :=
  (spares_orErr (.inl hs)).bind fun _ =>
    ((spares_setFinalizers _ _ _).withContext _).bind fun _ => spares_advance _ _ _

theorem spares_retaining : Spares (retaining evac st) :=
  ((spares_patchObj _ _ _).withContext _).bind fun _ => spares_advance _ _ _

theorem spares_locking (hr : st.pvcRef.isSome = true) : Spares (locking evac st) :=
  (spares_orErr (.inl hr)).bind fun _ =>
    ((spares_updateParams _ _).withContext _).bind fun _ =>
      ((spares_patchObj _ _ _).withContext _).bind fun _ =>
        spares_nowRfc3339.bind fun _ => spares_advance _ _ _

theorem spares_quiescing (hr : st.pvcRef.isSome = true) (hs : st.source.isSome = true) :
    Spares (quiescing cfg evac st) := by
  refine (spares_orErr (.inl hr)).bind fun r => (spares_send _).bind fun lockNow => ?_
  split_ifs
  · exact spares_pure _
  refine (spares_podsReferencingPvc _ _).bind fun pods =>
    (spares_blockingReason hs pods).bind fun reason => ?_
  cases reason with
  | some msg => exact spares_wait _ _ _ _
  | none =>
    refine (spares_send _).bind fun now => ?_
    split
    · exact spares_nowRfc3339.bind fun _ => (spares_writeStatus _ _).bind fun _ => spares_pure _
    · split_ifs
      · exact spares_pure _
      · exact spares_advance _ _ _

theorem spares_classifyClaim (pvName ns sourceNodeId claim : String) :
    Spares (classifyClaim cfg pvName ns sourceNodeId claim) := by
  refine (spares_getOpt _ _).bind fun pvc => ?_
  match pvc with
  | none => exact spares_pure _
  | some ⟨_, (pvc : PersistentVolumeClaim)⟩ =>
    simp only
    split
    · exact spares_pure _
    refine (spares_getOpt _ _).bind fun pv => ?_
    cases pv with
    | none => exact spares_pure _
    | some pv =>
      simp only
      split
      · exact spares_pure _
      split
      · exact spares_pure _
      refine (spares_getOpt _ _).bind fun zv => ?_
      match zv with
      | none => exact spares_pure _
      | some ⟨_, (zv : ZFSVolume)⟩ =>
        simp only
        split_ifs
        · exact spares_pure _
        · exact (spares_getOpt _ _).bind fun _ => spares_pure _

theorem spares_classifyClaims (pvName ns sourceNodeId : String) (claims : List String) :
    Spares (classifyClaims cfg pvName ns sourceNodeId claims) := by
  induction claims with
  | nil => exact spares_pure _
  | cons claim claims ih =>
    exact (spares_classifyClaim _ _ _ _).bind fun _ => ih.bind fun _ => spares_pure _

theorem spares_resolve (pvName : String) (r : PvcRef) (sourceNodeId : String)
    (pods : List (Obj .pod)) : Spares (resolve cfg pvName r sourceNodeId pods) := by
  unfold resolve
  split
  · exact spares_pure _
  · exact (spares_classifyClaims _ _ _ _).bind fun _ => spares_pure _

/-- Whatever the group, the choice is made and recorded in the same way. -/
theorem spares_recordChoice (source : SourceInfo) (pv : Obj .pv) (group : Option Group) :
    Spares (do
      let input := selectionInput evac.name (specOf evac) source pv group
      let chosen : Except Error TargetInfo ← tryCatch
        (do pure (.ok (← selectTarget cfg input))) (fun e => pure (.error e))
      match chosen with
      | .ok t => do
        let rand : Nat ← send (.random (2 ^ 128))
        advance evac.name { st with
          colocation := group.map (colocationStatus (specOf evac))
          target := some { t with newVolumeHandle := newDestinationHandle rand } } .transferring
      | .error e => wait evac.name st ("no target yet: " ++ e.text) 60) := by
  have hcaught : Spares (tryCatch
      (do pure (.ok (← selectTarget cfg
        (selectionInput evac.name (specOf evac) source pv group))))
      (fun e => pure (.error e)) : M (Except Error TargetInfo)) :=
    fun tr => raises_tryCatch fun _ _ => trivial
  refine hcaught.bind fun chosen => ?_
  cases chosen with
  | ok t => exact (spares_send _).bind fun _ => spares_advance _ _ _
  | error e => exact spares_wait _ _ _ _

theorem spares_selectAndRecord (source : SourceInfo) (r : PvcRef) :
    Spares (selectAndRecord cfg evac st source r) := by
  refine (spares_listObjs _ _).bind fun evacs => ?_
  split_ifs
  · exact spares_wait _ _ _ _
  refine (spares_getOpt _ _).bind fun pv => ?_
  cases pv with
  | none => exact spares_failed _ _ _
  | some pv =>
    simp only
    split
    · exact (spares_podsReferencingPvc _ _).bind fun pods =>
        (spares_resolve _ _ _ _).bind fun group => spares_recordChoice source pv group
    · exact spares_recordChoice source pv none

theorem spares_targetSelecting (hs : st.source.isSome = true) (hr : st.pvcRef.isSome = true) :
    Spares (targetSelecting cfg evac st) :=
  (spares_orErr (.inl hs)).bind fun source => (spares_orErr (.inl hr)).bind fun r =>
    (spares_send _).bind fun _ tr =>
      raises_andFinally (spares_selectAndRecord source r tr) (spares_send _) fun _ _ h => h

theorem spares_relayPeers (node : Obj .node) : Spares (relayPeers node) := by
  unfold relayPeers
  split_ifs
  · have htext : unrecordedTexts.contains
        ("no relay peer addresses found for node " ++ node.name) = false :=
      recorded_of_prefix _ (by decide)
    exact spares_throw htext
  · exact spares_pure _

theorem spares_started (name : String) (attempt : Nat) (source : SourceInfo) (relay : Relay) :
    Spares (do
      send (.transferInsert ⟨name, attempt, relay⟩)
      let r : Nat ← send (.random (2 ^ 16))
      let startedAt ← nowRfc3339
      let snapName := "zevac-a" ++ toString attempt ++ "-" ++ hexPadded 4 r
      writeStatus name { st with
        transfer := some
          { attempt, snapName, ports := [relay.backupPort, relay.restorePort]
            startedAt := some startedAt }
        message := some ("transfer attempt " ++ toString attempt ++ " starting") }
      createIfAbsent (backupCr cfg name attempt source snapName relay.backupPort)
      pure (requeueSecs 2)) :=
  (spares_send _).bind fun _ => (spares_send _).bind fun _ => spares_nowRfc3339.bind fun _ =>
    (spares_writeStatus _ _).bind fun _ => (spares_createIfAbsent _).bind fun _ => spares_pure _

/-- The one error that is not the controller's own is the relay's. -/
theorem mostlySpares_startAttempt {attempt : Nat} (hs : st.source.isSome = true)
    (ht : st.target.isSome = true) : MostlySpares (startAttempt cfg evac st attempt) := by
  have hgone : ∀ start nodeId : String, (∀ text ∈ unrecordedTexts,
      ¬ start.toList <+: text.toList) →
      unrecordedTexts.contains (start ++ nodeId ++ " gone") = false := by
    intro start nodeId h
    rw [String.append_assoc]
    exact recorded_of_prefix _ h
  refine (spares_orErr (.inl hs)).mostly.bind fun source =>
    (spares_orErr (.inl ht)).mostly.bind fun target =>
      (spares_send _).mostly.bind fun existing => ?_
  split
  · exact (spares_pure _).mostly
  refine (spares_nodeById _).mostly.bind fun srcNode =>
    (spares_orErr (.inr (hgone _ _ (by decide)))).mostly.bind fun src =>
      (spares_nodeById _).mostly.bind fun dstNode =>
        (spares_orErr (.inr (hgone _ _ (by decide)))).mostly.bind fun dst =>
          (spares_relayPeers _).mostly.bind fun backupPeers =>
            (spares_relayPeers _).mostly.bind fun restorePeers tr => ?_
  intro answered
  match answered with
  | .error text => exact fun _ => ⟨backupPeers, restorePeers, text, tr, rfl, rfl⟩
  | .ok relay => exact (spares_started _ _ _ _).mostly _

theorem spares_createRestore {attempt port : Nat} (name : String) (hs : st.source.isSome = true)
    (ht : st.target.isSome = true) : Spares (createRestore cfg st name attempt port) := by
  refine (spares_orErr (.inl hs)).bind fun source => (spares_orErr (.inl ht)).bind fun target =>
    (spares_getOpt _ _).bind fun zv => ?_
  match zv with
  | none => exact spares_throw (by decide)
  | some ⟨_, (zv : ZFSVolume)⟩ => exact spares_createIfAbsent _

theorem mostlySpares_retryOrFail {t : TransferStatus} {maxAttempts : Nat} {reason : String}
    (hs : st.source.isSome = true) (ht : st.target.isSome = true) :
    MostlySpares (retryOrFail cfg evac st t maxAttempts reason) := by
  refine (spares_send _).mostly.bind fun _ =>
    (spares_cleanupTransferCrs _ _ _ _).mostly.bind fun gone => ?_
  split_ifs
  · exact (spares_wait _ _ _ _).mostly
  · exact (spares_beginAbort _ _ _).mostly
  · exact mostlySpares_startAttempt hs ht

theorem mostlySpares_transferring (hs : st.source.isSome = true) (ht : st.target.isSome = true) :
    MostlySpares (transferring cfg evac st) := by
  unfold transferring
  simp only
  split
  · exact mostlySpares_startAttempt hs ht
  refine (spares_getOpt _ _).mostly.bind fun bkp => (spares_getOpt _ _).mostly.bind fun rst =>
    (spares_send _).mostly.bind fun mem => (spares_send _).mostly.bind fun now => ?_
  split
  · exact (spares_send _).mostly.bind fun _ => (spares_advance _ _ _).mostly
  · exact mostlySpares_retryOrFail hs ht
  · exact (spares_pure _).mostly
  · exact ((spares_send _).bind fun _ => spares_pure _).mostly
  · exact (spares_wait _ _ _ _).mostly
  · exact ((spares_createRestore _ hs ht).bind fun _ => spares_pure _).mostly
  · split_ifs
    · exact ((spares_writeStatus _ _).bind fun _ => spares_pure _).mostly
    · exact (spares_pure _).mostly

theorem spares_adopting (hs : st.source.isSome = true) (ht : st.target.isSome = true) :
    Spares (adopting cfg evac st) := by
  refine (spares_orErr (.inl hs)).bind fun source => (spares_orErr (.inl ht)).bind fun target =>
    (spares_getOpt _ _).bind fun zv => ?_
  cases zv with
  | none =>
    refine (spares_getOpt _ _).bind fun src => ?_
    match src with
    | none => exact spares_throw (by decide)
    | some ⟨_, (src : ZFSVolume)⟩ =>
      exact (spares_createIfAbsent _).bind fun _ => spares_pure _
  | some zv =>
    simp only
    split_ifs
    · exact spares_advance _ _ _
    · exact spares_beginAbort _ _ _
    · exact spares_wait _ _ _ _

theorem recorded_renderNewPv {oldPv : Obj .pv} {r : PvcRef} {target : TargetInfo} {text : String}
    (h : renderNewPv oldPv r target = .error text) : unrecordedTexts.contains text = false := by
  unfold renderNewPv at h
  split at h
  · obtain rfl := Except.error.inj h
    decide
  · split at h
    · obtain rfl := Except.error.inj h
      decide
    · cases h

theorem spares_committing (hr : st.pvcRef.isSome = true) (hs : st.source.isSome = true)
    (ht : st.target.isSome = true) : Spares (committing cfg evac st) := by
  refine (spares_orErr (.inl hr)).bind fun r => (spares_orErr (.inl hs)).bind fun source =>
    (spares_orErr (.inl ht)).bind fun target => (spares_getOpt _ _).bind fun pvc =>
      (spares_orErr (.inr (by decide))).bind fun pvcObj => ?_
  split
  · exact spares_beginAbort _ _ _
  refine (spares_podsReferencingPvc _ _).bind fun pods => ?_
  simp only
  split
  · exact spares_beginAbort _ _ _
  refine (spares_blockingReason hs pods).bind fun reason => ?_
  cases reason with
  | some msg => exact spares_wait _ _ _ _
  | none =>
    refine (spares_getOpt _ _).bind fun oldPv =>
      (spares_orErr (.inr (by decide))).bind fun old => ?_
    split
    · exact spares_failed _ _ _
    · split
      · rename_i text herror
        exact spares_throw (recorded_renderNewPv herror)
      · exact spares_advance _ _ _

theorem spares_swapping (hs : st.source.isSome = true) (hr : st.pvcRef.isSome = true)
    (hm : st.newPvManifest.isSome = true) : Spares (swapping cfg evac st) := by
  refine (spares_orErr (.inl hs)).bind fun source => (spares_orErr (.inl hr)).bind fun r =>
    (spares_getOpt _ _).bind fun pv => ?_
  cases pv with
  | none =>
    exact (spares_orErr (.inl hm)).bind fun manifest =>
      (spares_createIfAbsent _).bind fun _ => spares_pure _
  | some pv =>
    simp only
    split
    · split
      · refine (spares_podsReferencingPvc _ _).bind fun pods =>
          (spares_blockingReason hs pods).bind fun reason => ?_
        cases reason with
        | some msg => exact spares_wait _ _ _ _
        | none =>
          exact (spares_deleteObj _ _).bind fun _ =>
            (spares_setFinalizers _ _ _).bind fun _ => spares_pure _
      · exact (spares_setFinalizers _ _ _).bind fun _ => spares_pure _
    · split
      · cases st.originalReclaimPolicy with
        | none => exact spares_advance _ _ _
        | some orig => exact (spares_patchObj _ _ _).bind fun _ => spares_advance _ _ _
      · exact spares_pure _

theorem spares_destroyTargetSnapshot (name : String) :
    Spares (destroyTargetSnapshot cfg name st) := by
  have hmark : ∀ msg : Option String, Spares (do
      let st ← markTargetSnapDeleteIssued name st
      pure (st, msg)) := fun msg =>
    ((spares_writeStatus _ _).bind fun _ => spares_pure _).bind fun _ => spares_pure _
  unfold destroyTargetSnapshot
  simp only
  split
  · rename_i t target _ _
    refine (spares_getOpt _ _).bind fun existing => ?_
    split
    · cases existing with
      | none => exact spares_pure _
      | some cr => exact (spares_stripZfsFinalizerIfNodeGone _ _ _).bind fun _ => spares_pure _
    · cases existing with
      | none =>
        refine (spares_getOpt _ _).bind fun zv => ?_
        match zv with
        | none => exact spares_pure _
        | some ⟨_, (zv : ZFSVolume)⟩ =>
          exact (spares_createIfAbsent _).bind fun _ => spares_pure _
      | some cr =>
        simp only
        split
        · exact hmark _
        split
        · exact (spares_deleteObj _ _).bind fun _ => hmark _
        · refine (spares_nodeById _).bind fun node => ?_
          cases node with
          | none => exact (spares_deleteObj _ _).bind fun _ => hmark _
          | some _ => exact spares_pure _
  · exact spares_pure _

theorem spares_destroySource (source : SourceInfo) : Spares (destroySource cfg source) := by
  refine (spares_getOpt _ _).bind fun zv => ?_
  cases zv with
  | none => exact spares_pure _
  | some zv =>
    have hrest : Spares (do
        setFinalizers .zfsVolume ⟨cfg.openebsNs, source.volumeHandle⟩ unguard
        stripZfsFinalizerIfNodeGone .zfsVolume ⟨cfg.openebsNs, source.volumeHandle⟩ source.nodeId
        pure true) :=
      (spares_setFinalizers _ _ _).bind fun _ =>
        (spares_stripZfsFinalizerIfNodeGone _ _ _).bind fun _ => spares_pure _
    simp only
    split
    · exact (spares_deleteObj _ _).bind fun _ => hrest
    · exact hrest

theorem spares_unlock : Spares (Abort.unlock st) := by
  unfold Abort.unlock
  split
  · exact spares_pure _
  · exact (spares_updateParams _ _).bind fun _ => spares_unlabelPvc _

theorem spares_complete : Spares (do
    let action ← advance evac.name { st with message := some "evacuation complete" } .completed
    removeEvacFinalizer evac.name
    pure action) :=
  (spares_advance _ _ _).bind fun _ => (spares_removeEvacFinalizer _).bind fun _ => spares_pure _

theorem spares_unannotate : Spares (do
    match ← getOpt .pv ⟨"", (specOf evac).pvName⟩ with
    | some pv =>
      if pv.metadata.annotations.contains evacuateAnnotation then
        patchObj .pv ⟨"", (specOf evac).pvName⟩ (.annotate evacuateAnnotation none)
    | none => pure ()
    let action ← advance evac.name { st with message := some "evacuation complete" } .completed
    removeEvacFinalizer evac.name
    pure action) := by
  refine (spares_getOpt _ _).bind fun pv => ?_
  cases pv with
  | none => exact spares_complete
  | some pv =>
    simp only
    split
    · exact (spares_patchObj _ _ _).bind fun _ => spares_complete
    · exact spares_complete

theorem spares_finishCleanup : Spares (finishCleanup evac st) := by
  unfold finishCleanup
  simp only
  split
  · exact (spares_updateParams _ _).bind fun _ =>
      (spares_unlabelPvc _).bind fun _ => spares_unannotate
  · exact spares_unannotate

theorem spares_destroyDatasets (source : SourceInfo) (gone : Bool) : Spares (
    if !gone then wait evac.name st "waiting for transfer CRs to clean up" 10
    else do
      let (st, left) ← destroyTargetSnapshot cfg evac.name st
      match left with
      | some msg => wait evac.name st msg 5
      | none => do
        if ← destroySource cfg source then
          wait evac.name st "waiting for source dataset destruction" 10
        else finishCleanup evac st) := by
  split
  · exact spares_wait _ _ _ _
  · refine (spares_destroyTargetSnapshot _).bind fun destroyed => ?_
    obtain ⟨st', left⟩ := destroyed
    cases left with
    | some msg => exact spares_wait _ _ _ _
    | none =>
      refine (spares_destroySource _).bind fun more => ?_
      split
      · exact spares_wait _ _ _ _
      · exact spares_finishCleanup

theorem spares_cleaningUp (hs : st.source.isSome = true) : Spares (cleaningUp cfg evac st) := by
  refine (spares_orErr (.inl hs)).bind fun source => ?_
  simp only
  split
  · exact (spares_cleanupTransferCrs _ _ _ _).bind (spares_destroyDatasets source)
  · exact spares_destroyDatasets source true

/-! ## The abort path and the whole reconcile -/

theorem spares_targetSide (name : String) (hs : st.target.isSome = true → st.source.isSome = true) :
    Spares (Abort.targetSide cfg name st) := by
  have hmsg : ∀ msg, Spares (some <$> requeueMsg name st msg) := fun msg =>
    (spares_requeueMsg _ _ _).bind fun _ => spares_pure _
  unfold Abort.targetSide
  split
  · rename_i target t ht _
    have hcleanup : Spares (do
        if ← cleanupTransferCrs cfg name t.attempt st then pure none
        else some <$> requeueMsg name st "abort: cleaning up transfer CRs") := by
      refine (spares_cleanupTransferCrs _ _ _ _).bind fun gone => ?_
      split
      · exact spares_pure _
      · exact hmsg _
    refine (spares_getOpt _ _).bind fun rst => (spares_getOpt _ _).bind fun zv => ?_
    cases zv with
    | some zv =>
      simp only
      split
      · exact (spares_deleteObj _ _).bind fun _ =>
          (spares_stripZfsFinalizerIfNodeGone _ _ _).bind fun _ => hmsg _
      · exact (spares_stripZfsFinalizerIfNodeGone _ _ _).bind fun _ => hmsg _
    | none =>
      simp only
      split
      · have hsource : st.source.isSome = true := hs (Option.isSome_of_eq_some ht)
        refine (spares_orErr (.inl hsource)).bind fun src => (spares_getOpt _ _).bind fun zv => ?_
        match zv with
        | some ⟨_, (srcZv : ZFSVolume)⟩ =>
          exact (spares_createIfAbsent _).bind fun _ => hmsg _
        | none => exact hcleanup
      · exact hcleanup
  · exact spares_pure _

theorem spares_restorePolicy : Spares (Abort.restorePolicy evac st) := by
  unfold Abort.restorePolicy
  simp only
  split
  · refine (spares_getOpt _ _).bind fun pv => ?_
    cases pv with
    | none => exact spares_pure _
    | some pv =>
      simp only
      split
      · exact spares_patchObj _ _ _
      · exact spares_pure _
  · exact spares_pure _

theorem spares_unguardSource (source : SourceInfo) : Spares (do
    setFinalizers .zfsVolume ⟨cfg.openebsNs, source.volumeHandle⟩ unguard
    stripZfsFinalizerIfNodeGone .zfsVolume ⟨cfg.openebsNs, source.volumeHandle⟩ source.nodeId) :=
  (spares_setFinalizers _ _ _).bind fun _ => spares_stripZfsFinalizerIfNodeGone _ _ _

theorem spares_deleteOrphan (source : SourceInfo) (pvcGone : Bool) : Spares (do
    let pv ← getOpt .pv ⟨"", (specOf evac).pvName⟩
    if pvcGone ∧ pv.isNone ∧ st.originalReclaimPolicy = some "Delete" then
      match ← getOpt .zfsVolume ⟨cfg.openebsNs, source.volumeHandle⟩ with
      | some zv => if !zv.deleting then
          deleteObj .zfsVolume ⟨cfg.openebsNs, source.volumeHandle⟩ else pure ()
      | none => pure ()
    setFinalizers .zfsVolume ⟨cfg.openebsNs, source.volumeHandle⟩ unguard
    stripZfsFinalizerIfNodeGone .zfsVolume ⟨cfg.openebsNs, source.volumeHandle⟩ source.nodeId) := by
  refine (spares_getOpt _ _).bind fun pv => ?_
  split
  · refine (spares_getOpt _ _).bind fun zv => ?_
    cases zv with
    | none => exact spares_unguardSource source
    | some zv =>
      simp only
      split
      · exact (spares_deleteObj _ _).bind fun _ => spares_unguardSource source
      · exact spares_unguardSource source
  · exact spares_unguardSource source

theorem spares_releaseSource : Spares (Abort.releaseSource cfg evac st) := by
  unfold Abort.releaseSource
  split
  · exact spares_pure _
  rename_i source _
  simp only
  split
  · exact (spares_getOpt _ _).bind fun pvc => spares_deleteOrphan source _
  · exact spares_deleteOrphan source _

/-- What follows the first write of the abort path. -/
theorem spares_unwind (hs : st.target.isSome = true → st.source.isSome = true) : Spares (do
    send (.transferRemove evac.name)
    match ← Abort.targetSide cfg evac.name st with
    | some action => pure action
    | none => do
      Abort.restorePolicy evac st
      Abort.unlock st
      Abort.releaseSource cfg evac st
      if evac.deleting then do
        removeEvacFinalizer evac.name
        pure .awaitChange
      else do
        writeStatus evac.name { st with
          phase := .failed
          message := some (st.message.getD "evacuation aborted") }
        pure Action.awaitChange) := by
  refine (spares_send _).bind fun _ => (spares_targetSide _ hs).bind fun answered => ?_
  cases answered with
  | some action => exact spares_pure _
  | none =>
    refine spares_restorePolicy.bind fun _ => spares_unlock.bind fun _ =>
      spares_releaseSource.bind fun _ => ?_
    split
    · exact (spares_removeEvacFinalizer _).bind fun _ => spares_pure _
    · exact (spares_writeStatus _ _).bind fun _ => spares_pure _

theorem spares_abort (hs : st.target.isSome = true → st.source.isSome = true) :
    Spares (Abort.run cfg evac st) := by
  have hplaced : ({ st with phase := .aborting } : ZFSEvacuationStatus).target.isSome = true →
      st.source.isSome = true := hs
  unfold Abort.run
  simp only
  split
  · exact (spares_writeStatus _ _).bind fun _ => spares_unwind hplaced
  · exact spares_unwind hplaced

theorem spares_triggerWithdrawn (pv : Obj .pv) : Spares (triggerWithdrawn cfg evac st pv) := by
  unfold triggerWithdrawn
  split
  · split
    · exact spares_pure _
    · exact spares_pure _
  · split
    · exact spares_pure _
    · refine (spares_getOpt _ _).bind fun node => ?_
      cases node with
      | none => exact spares_pure _
      | some node =>
        simp only
        split
        · exact spares_pure _
        · exact spares_pure _

theorem spares_cancelReason : Spares (cancelReason cfg evac st) := by
  unfold cancelReason
  split
  · exact spares_pure _
  refine (spares_getOpt _ _).bind fun pv => ?_
  cases pv with
  | none => exact spares_pure _
  | some pv =>
    refine (spares_triggerWithdrawn pv).bind fun reason => ?_
    cases reason with
    | some reason => exact spares_pure _
    | none =>
      simp only
      split
      · exact spares_pure _
      · refine (spares_getOpt _ _).bind fun pvc => ?_
        cases pvc with
        | none => exact spares_pure _
        | some pvc =>
          simp only
          split
          · exact spares_pure _
          · exact spares_pure _

theorem mostlySpares_handlePhase (hst : Tracked st) : MostlySpares (handlePhase cfg evac st) := by
  have hsource : Phase.reached .guarding st.phase = true → st.source.isSome = true := fun hp =>
    let ⟨_, hs, _⟩ := hst.source hp
    Option.isSome_of_eq_some hs
  have htarget : Phase.reached .transferring st.phase = true → st.target.isSome = true := fun hp =>
    let ⟨_, ht, _⟩ := hst.target hp
    Option.isSome_of_eq_some ht
  have hpvcRef := hst.pvcRef
  have hmanifests := hst.manifests
  unfold handlePhase
  split <;> rename_i hp <;> rw [hp] at hsource htarget hpvcRef hmanifests
  · exact spares_pending.mostly
  · exact (spares_guarding (hsource rfl)).mostly
  · exact spares_retaining.mostly
  · exact (spares_locking (hpvcRef rfl)).mostly
  · exact (spares_quiescing (hpvcRef rfl) (hsource rfl)).mostly
  · exact (spares_targetSelecting (hsource rfl) (hpvcRef rfl)).mostly
  · exact mostlySpares_transferring (hsource rfl) (htarget rfl)
  · exact (spares_adopting (hsource rfl) (htarget rfl)).mostly
  · exact (spares_committing (hpvcRef rfl) (hsource rfl) (htarget rfl)).mostly
  · exact (spares_swapping (hsource rfl) (hpvcRef rfl) (hmanifests rfl).2).mostly
  · exact (spares_cleaningUp (hsource rfl)).mostly
  all_goals exact (spares_pure _).mostly

/-- The request is withdrawn, or the phase goes on. -/
theorem mostlySpares_cancelled (h : Tracked (viewStatus evac)) (cancel : Option String) :
    MostlySpares (match cancel with
      | some reason => do
        writeStatus evac.name { viewStatus evac with
          phase := .aborting, cancelled := true, message := some reason }
        pure (requeueSecs 1)
      | none => handlePhase cfg evac (viewStatus evac)) := by
  cases cancel with
  | some reason => exact ((spares_writeStatus _ _).bind fun _ => spares_pure _).mostly
  | none => exact mostlySpares_handlePhase h

/-- The checks of a live evacuation, then its phase. -/
theorem mostlySpares_live (h : Tracked (viewStatus evac)) : MostlySpares (
    if (viewStatus evac).phase = .aborting then Abort.run cfg evac (viewStatus evac)
    else do
      let cancel ← if !(viewStatus evac).committed then cancelReason cfg evac (viewStatus evac)
        else pure none
      match cancel with
      | some reason => do
        writeStatus evac.name { viewStatus evac with
          phase := .aborting, cancelled := true, message := some reason }
        pure (requeueSecs 1)
      | none => handlePhase cfg evac (viewStatus evac)) := by
  split
  · exact (spares_abort h.placed).mostly
  · simp only
    split
    · exact spares_cancelReason.mostly.bind (mostlySpares_cancelled h)
    · exact mostlySpares_cancelled h none

/-- A reconcile of a status in shape misses no field. -/
theorem mostlySpares_reconcile (h : Tracked (viewStatus evac)) :
    MostlySpares (reconcile cfg evac) := by
  unfold reconcile
  simp only
  split
  · split
    · exact ((spares_removeEvacFinalizer _).bind fun _ => spares_pure _).mostly
    · exact (spares_pure _).mostly
  split
  · have hdeleted : Spares (Abort.run cfg evac { viewStatus evac with
        message := some "ZFSEvacuation deleted before commit; aborting" }) := spares_abort h.placed
    exact hdeleted.mostly
  split
  · refine (Spares.mostly ?_).bind fun _ => mostlySpares_live h
    unfold ensureEvacFinalizer
    split
    · exact spares_pure _
    · exact spares_patchObj _ _ _
  · exact mostlySpares_live h

end Phases

/-! ## Along a run -/

namespace System
variable {cfg : Config} {s s' : System} {a : SysAction} {n : String}

/-- A reconcile of the evacuation ends in this error with this step. -/
inductive EndsInError (cfg : Config) (s : System) (n : String) (tr : Trace) (e : Error) :
    SysAction → Prop
  | atOnce (version : Nat) (view : Obj .evacuation)
      (stored : s.world.versions[version]? = some view) (nothing : tr = [])
      (ends : reconcile cfg view = .fail e) : EndsInError cfg s n tr e (.start n version)
  | answered (r : Running) (c : Call) (next : c.Resp → M Action) (o : Outcome)
      (running : s.running.get n = some r) (prog : r.prog = .call c next)
      (calls : tr = ⟨c, s.world.answer o c⟩ :: r.trace)
      (ends : next (s.world.answer o c) = .fail e) : EndsInError cfg s n tr e (.call n o)

/-- Every reconcile in progress misses no field. -/
def AllSpare (s : System) : Prop :=
  ∀ n r, s.running.get n = some r → Raises Excused r.trace r.prog

theorem allSpare_step (hx : StatusSound cfg s) (hs : AllSpare s) (hg : StatusCurrent s a)
    (h : step cfg s a = some s') : AllSpare s' := by
  intro n r' hr'
  cases running_step h hr' with
  | kept _ hr _ => exact hs n r' hr
  | started version idle stored named heq =>
    obtain ⟨view, hview, hcur⟩ := hg.2
    obtain rfl : view = r'.view := Option.some.inj (hview.symm.trans stored)
    rw [heq]
    exact mostlySpares_reconcile (hx.tracked _ _ hcur) []
  | called o r c next hr hprog _ heq =>
    have hspare := hs n r hr
    rw [hprog] at hspare
    rw [heq]
    exact hspare _

theorem excused_of_end {tr : Trace} {e : Error} (hx : StatusSound cfg s) (hs : AllSpare s)
    (hg : StatusCurrent s a) (h : EndsInError cfg s n tr e a) : Excused tr e := by
  cases h with
  | atOnce version view stored hnothing hends =>
    obtain ⟨view', hview, hcur⟩ := hg.2
    obtain rfl : view' = view := Option.some.inj (hview.symm.trans stored)
    have hspare : Raises Excused [] (reconcile cfg view') :=
      mostlySpares_reconcile (hx.tracked _ _ hcur) []
    rw [hends] at hspare
    exact hnothing ▸ hspare
  | answered r c next o running prog calls hends =>
    have hspare := hs n r running
    rw [prog] at hspare
    have hnext := hspare (s.world.answer o c)
    rw [hends] at hnext
    exact calls ▸ hnext

theorem allSpare_run {as : List SysAction} (h : Run (step cfg) StatusCurrent init as s) :
    AllSpare s := by
  refine h.invariant_over statusSound_run ?_ fun _ _ _ hx hs hg hstep => allSpare_step hx hs hg hstep
  intro n r hr
  cases hr

/-- In every run with current views, every stored status has the shape of its phase, later
statuses of an evacuation keep its record and move forward or off the way, and no reconcile ends
in an error about a field that is not on record, unless these are the words with which the relay
was refused. -/
theorem status_shape (cfg : Config) (as : List SysAction) (s : System)
    (h : Run (step cfg) StatusCurrent init as s) :
    (∀ n e, s.world.get .evacuation ⟨"", n⟩ = some e → Shape (viewStatus e)) ∧
      (∀ bs t n e e', Run (step cfg) StatusCurrent s bs t →
        s.world.get .evacuation ⟨"", n⟩ = some e → t.world.get .evacuation ⟨"", n⟩ = some e' →
          e'.metadata.uid = e.metadata.uid → Later (viewStatus e) (viewStatus e')) ∧
      ∀ a n tr e, StatusCurrent s a → EndsInError cfg s n tr e a → e.unrecorded = true →
        Told tr e := by
  have hx := statusSound_run h
  refine ⟨fun n e he => (hx.tracked n e he).toShape, ?_, ?_⟩
  · intro bs t n e e' hrun he he' huid
    exact later_run hx hrun he he' huid
  · intro a n tr e hg hends
    exact excused_of_end hx (allSpare_run h) hg hends

/-- The volume of a small cluster on its way up to the commit. -/
theorem status_shape_small : ∃ s e, Run (step Sample.config) StatusCurrent init Sample.toCommitting s ∧
    s.world.get .evacuation ⟨"", "pv1"⟩ = some e ∧ (viewStatus e).phase = .committing ∧
      Shape (viewStatus e) ∧
      ∀ a n tr err, StatusCurrent s a → EndsInError Sample.config s n tr err a →
        err.unrecorded = true → Told tr err := by
  obtain ⟨s, hrun, hs⟩ := Run.exists_of_runList
    (p := fun s : System => Sample.phaseOf s "pv1" == some .committing)
    (show (runList (guarded (step Sample.config) StatusCurrent) init Sample.toCommitting).any _ =
      true by decide +kernel)
  cases he : s.world.get .evacuation ⟨"", "pv1"⟩ with
  | none => simp [Sample.phaseOf, he] at hs
  | some e =>
    have hphase : (viewStatus e).phase = .committing := by simpa [Sample.phaseOf, he] using hs
    obtain ⟨hshape, -, herrors⟩ := status_shape Sample.config Sample.toCommitting s hrun
    exact ⟨s, e, hrun, he, hphase, hshape "pv1" e he, herrors⟩

end System

end ZfsEvacuation
