import ZfsEvacuation.AsciiText
import ZfsEvacuation.PvRendering
import ZfsEvacuation.SystemContract

/-!
# Handles over repeated evacuations

Every evacuation gives the volume a new handle, and the handle of a volume is later the value of
a label. A handle that does not fit would keep the volume on its node for good. Handles are
formatted from 128 random bits and have one length, whatever number was drawn.
-/
namespace ZfsEvacuation
open ClientProgram Program GuardedRun AsciiText

/-! ## The label test, byte by byte -/

/-- The test as the source makes it, on the bytes of a handle. -/
def bytesFitSnapshotLabel (handle : List UInt8) : Bool :=
  handle.length ≤ 63 &&
    handle.head?.any isAlphanumericByte &&
    handle.getLast?.any isAlphanumericByte &&
    handle.all fun b => isAlphanumericByte b || b == '-'.toUInt8 || b == '_'.toUInt8 ||
      b == '.'.toUInt8

section Labels
variable {handle : String} {c : Char}

theorem isAsciiAlphanumeric_iff : isAsciiAlphanumeric c = true ↔
    (48 ≤ c.toNat ∧ c.toNat ≤ 57) ∨ (97 ≤ c.toNat ∧ c.toNat ≤ 122) ∨
      (65 ≤ c.toNat ∧ c.toNat ≤ 90) := by
  simp [isAsciiAlphanumeric, Char.le_def, UInt32.le_iff_toNat_le, or_assoc]

theorem isAsciiAlphanumeric_eq (h : c.toNat < 128) :
    isAsciiAlphanumeric c = isAlphanumericByte (UInt8.ofNat c.toNat) := by
  rw [Bool.eq_iff_iff, isAsciiAlphanumeric_iff, isAlphanumericByte_iff, UInt8.toNat_ofNat']
  omega

/-- What may stand in a handle. -/
def isLabelChar (c : Char) : Bool := isAsciiAlphanumeric c || c == '-' || c == '_' || c == '.'

theorem isLabelChar_ascii (h : isLabelChar c = true) : c.toNat < 128 := by
  simp only [isLabelChar, Bool.or_eq_true, isAsciiAlphanumeric_iff, beq_iff_eq] at h
  rcases h with ((h | rfl) | rfl) | rfl
  · omega
  all_goals decide

theorem ofNat_toNat_eq_iff {d : Char} (hc : c.toNat < 128) (hd : d.toNat < 128) :
    UInt8.ofNat c.toNat = d.toUInt8 ↔ c = d := by
  have hbyte : d.toUInt8 = UInt8.ofNat d.toNat := rfl
  rw [hbyte, ← UInt8.toNat_inj, UInt8.toNat_ofNat', UInt8.toNat_ofNat', ← Char.toNat_inj]
  omega

theorem isLabelChar_eq :
    isLabelChar c = (decide (c.toNat < 128) && isLabelByte (UInt8.ofNat c.toNat)) := by
  by_cases hc : c.toNat < 128
  · rw [decide_eq_true hc, Bool.true_and, Bool.eq_iff_iff]
    simp only [isLabelChar, isLabelByte, isAsciiAlphanumeric_eq hc, Bool.or_eq_true, beq_iff_eq,
      ofNat_toNat_eq_iff hc (d := '-') (by decide), ofNat_toNat_eq_iff hc (d := '_') (by decide),
      ofNat_toNat_eq_iff hc (d := '.') (by decide)]
  · rw [decide_eq_false hc, Bool.false_and, Bool.eq_false_iff]
    exact fun h => hc (isLabelChar_ascii h)

theorem all_isLabelByte (handle : String) :
    (utf8Bytes handle).all isLabelByte = handle.toList.all isLabelChar := by
  rw [all_utf8Bytes isLabelByte_ascii]
  simp only [← isLabelChar_eq]

/-- The first and the last letter are the same for a character and for its byte. -/
theorem any_isAlphanumericByte {o : Option Char} (ho : ∀ c ∈ o, c.toNat < 128) :
    (o.map fun c => UInt8.ofNat c.toNat).any isAlphanumericByte = o.any isAsciiAlphanumeric := by
  cases o with
  | none => rfl
  | some c => exact (isAsciiAlphanumeric_eq (ho c rfl)).symm

/-- Reading a handle by characters and by bytes comes to the same. -/
theorem sourceHandleFitsSnapshotLabel_bytes (handle : String) :
    sourceHandleFitsSnapshotLabel handle = bytesFitSnapshotLabel (utf8Bytes handle) := by
  have hchars : sourceHandleFitsSnapshotLabel handle = (decide (handle.utf8ByteSize ≤ 63) &&
      handle.toList.head?.any isAsciiAlphanumeric &&
      handle.toList.getLast?.any isAsciiAlphanumeric && handle.toList.all isLabelChar) := rfl
  have hbytes (w : List UInt8) : bytesFitSnapshotLabel w = (decide (w.length ≤ 63) &&
      w.head?.any isAlphanumericByte && w.getLast?.any isAlphanumericByte &&
      w.all isLabelByte) := rfl
  rw [hchars, hbytes, all_isLabelByte, length_utf8Bytes]
  cases hall : handle.toList.all isLabelChar with
  | false => rw [Bool.and_false, Bool.and_false]
  | true =>
    have hascii : ∀ c ∈ handle.toList, c.toNat < 128 := fun c hc =>
      isLabelChar_ascii (List.all_eq_true.mp hall c hc)
    rw [utf8Bytes_ascii hascii, List.head?_map, List.getLast?_map,
      any_isAlphanumericByte fun c hc => hascii c (List.mem_of_mem_head? hc),
      any_isAlphanumericByte fun c hc => hascii c (List.mem_of_getLast? hc)]

/-- The test accepts exactly the label values other than the empty one. -/
theorem sourceHandleFitsSnapshotLabel_iff (handle : String) :
    sourceHandleFitsSnapshotLabel handle = true ↔
      handle ≠ "" ∧ IsLabelValue (utf8Bytes handle) := by
  have hbytes : sourceHandleFitsSnapshotLabel handle = true ↔ (utf8Bytes handle).length ≤ 63 ∧
      (utf8Bytes handle).head?.any isAlphanumericByte = true ∧
      (utf8Bytes handle).getLast?.any isAlphanumericByte = true ∧
      (utf8Bytes handle).all isLabelByte = true := by
    rw [sourceHandleFitsSnapshotLabel_bytes]
    simp only [bytesFitSnapshotLabel, Bool.and_eq_true, decide_eq_true_eq, and_assoc]
    rfl
  by_cases hempty : handle = ""
  · subst hempty
    exact iff_of_false (by decide) fun h => h.1 rfl
  · have hne : utf8Bytes handle ≠ [] := by
      intro hnil
      have hsize : handle.utf8ByteSize = 0 := congrArg List.length hnil
      exact hempty (String.utf8ByteSize_eq_zero_iff.mp hsize)
    rw [hbytes, ← isLabelValue_iff hne, and_iff_right hempty]

end Labels

/-! ## Drawn handles -/

section Handles
variable {r r' : BitVec 128}

/-- The digits behind the prefix. -/
theorem toList_newDestinationHandle (r : BitVec 128) :
    (newDestinationHandle r.toNat).toList = "zevac-".toList ++ fixedDigits 16 32 r.toNat := by
  have hlt : r.toNat < 16 ^ 32 := r.isLt
  have hdigits : (hexPadded 32 r.toNat).toList = fixedDigits 16 32 r.toNat := by
    rw [hexPadded, leftpad_toDigits (by decide) hlt, String.toList_ofList]
  rw [newDestinationHandle, String.toList_append, hdigits]

theorem hexDigit_alphanumeric (d : Nat) (h : d < 16) :
    isAsciiAlphanumeric (Nat.digitChar d) = true := by
  revert d
  decide

theorem all_newDestinationHandle (r : BitVec 128) {c : Char}
    (h : c ∈ (newDestinationHandle r.toNat).toList) :
    isAsciiAlphanumeric c = true ∨ c = '-' := by
  rw [toList_newDestinationHandle, List.mem_append] at h
  rcases h with h | h
  · have hprefix : ("zevac-".toList.all fun c => isAsciiAlphanumeric c || c == '-') = true := by
      decide
    simpa using List.all_eq_true.mp hprefix c h
  · obtain ⟨d, hd, rfl⟩ := mem_fixedDigits (by decide) h
    exact .inl (hexDigit_alphanumeric d hd)

theorem isLabelChar_newDestinationHandle (r : BitVec 128) {c : Char}
    (h : c ∈ (newDestinationHandle r.toNat).toList) : isLabelChar c = true := by
  rcases all_newDestinationHandle r h with h | rfl
  · rw [isLabelChar, h]
    rfl
  · decide

/-- Six bytes and thirty-two digits. -/
theorem utf8ByteSize_newDestinationHandle (r : BitVec 128) :
    (newDestinationHandle r.toNat).utf8ByteSize = 38 := by
  have hascii : ∀ c ∈ (newDestinationHandle r.toNat).toList, c.toNat < 128 := fun c hc =>
    isLabelChar_ascii (isLabelChar_newDestinationHandle r hc)
  rw [← length_utf8Bytes, utf8Bytes_ascii hascii, List.length_map, toList_newDestinationHandle,
    List.length_append, length_fixedDigits]
  rfl

theorem newDestinationHandle_fits (r : BitVec 128) :
    sourceHandleFitsSnapshotLabel (newDestinationHandle r.toNat) = true := by
  have hlast : (newDestinationHandle r.toNat).toList.getLast? =
      some (Nat.digitChar (r.toNat % 16)) := by
    rw [toList_newDestinationHandle, fixedDigits, ← List.append_assoc, List.getLast?_concat]
  have hhead : (newDestinationHandle r.toNat).toList.head? = some 'z' := by
    rw [toList_newDestinationHandle]
    rfl
  have hdigit := hexDigit_alphanumeric (r.toNat % 16) (Nat.mod_lt _ (by decide))
  have hall : (newDestinationHandle r.toNat).toList.all isLabelChar = true :=
    List.all_eq_true.mpr fun c hc => isLabelChar_newDestinationHandle r hc
  simp only [sourceHandleFitsSnapshotLabel, utf8ByteSize_newDestinationHandle, hhead, hlast,
    Option.any_some, hdigit, Bool.and_eq_true]
  exact ⟨⟨⟨by decide, by decide⟩, trivial⟩, hall⟩

theorem newDestinationHandle_inj
    (h : newDestinationHandle r.toNat = newDestinationHandle r'.toNat) : r = r' := by
  have htext := congrArg String.toList h
  rw [toList_newDestinationHandle, toList_newDestinationHandle] at htext
  have hlt (r : BitVec 128) : r.toNat < 16 ^ 32 := r.isLt
  exact BitVec.eq_of_toNat_eq
    (fixedDigits_inj (by decide) (hlt r) (hlt r') (List.append_cancel_left htext))

end Handles

/-! ## What is recorded and what is refused -/

/-- Random numbers stay below their bounds. -/
def DrawsBelow (tr : Trace) : Prop :=
  ∀ bound r : Nat, (⟨.random bound, r⟩ : Event kubeInterface) ∈ tr → 0 < bound → r < bound

def System.AllBelow (s : System) : Prop :=
  ∀ n r, s.running.get n = some r → DrawsBelow r.trace

/-- The target of a status is left alone, or its handle is formatted from a number that was
drawn. -/
def RecordsDrawn (st : ZFSEvacuationStatus) (tr : Trace) (call : Call) : Prop :=
  DrawsBelow tr →
    ∀ key st', call = .patch .evacuation key (.status st') → st'.target = st.target ∨
      ∃ (t : TargetInfo) (r : BitVec 128),
        (⟨.random (2 ^ 128), r.toNat⟩ : Event kubeInterface) ∈ tr ∧
          st'.target = some { t with newVolumeHandle := newDestinationHandle r.toNat }

/-- What `pending` reports of a handle that it does not take. -/
def handleRefusal (handle : String) : String :=
  "source volume handle " ++ handle ++ " cannot be used as a Kubernetes snapshot label value"

/-- A handle is refused only if the PV that was read has one that does not fit. -/
def RefusesUnfit (key : Key) (tr : Trace) (call : Call) : Prop :=
  ∀ evacKey st' handle, call = .patch .evacuation evacKey (.status st') →
    st'.message = some (handleRefusal handle) → ∀ pv, sawEvent .pv key (some pv) ∈ tr →
      ∃ csi, ((pvSpec pv).getD {}).csi = some csi ∧
        sourceHandleFitsSnapshotLabel csi.volumeHandle = false

section Recorded
variable {cfg : Config} {evac : Obj .evacuation} {st : ZFSEvacuationStatus} {key : Key} {tr : Trace}

theorem recordsDrawn_reads : ReadsAllowed (RecordsDrawn st) where
  get _ _ _ _ _ _ h := by cases h
  list _ _ _ _ _ _ h := by cases h

theorem recordsDrawn_kept {st' : ZFSEvacuationStatus} (h : st'.target = st.target) :
    RecordsDrawn st tr (.patch .evacuation key (.status st')) := by
  intro _ key' w heq
  cases heq
  exact .inl h

theorem recordChoice_drawn (source : SourceInfo) (pv : Obj .pv) (group : Option Group) :
    Follows (RecordsDrawn st) (fun _ _ => True) tr (do
      let chosen : Except Error TargetInfo ← tryCatch
        (do pure (.ok (← selectTarget cfg
          (selectionInput evac.name (specOf evac) source pv group))))
        (fun e => pure (.error e))
      match chosen with
      | .ok t => do
        let r : Nat ← send (.random (2 ^ 128))
        advance evac.name { st with
          colocation := group.map (colocationStatus (specOf evac))
          target := some { t with newVolumeHandle := newDestinationHandle r } } .transferring
      | .error e => wait evac.name st ("no target yet: " ++ e.text) 60) := by
  simp only [bind_eq, follows_bind]
  refine follows_tryCatch ReadCall (fun _ => True) trivial (fun _ _ _ _ _ => trivial) ?_ ?_ ?_
  · intro tr' c hc
    cases c with
    | get k key => exact recordsDrawn_reads.get _ _ _
    | list k sel => exact recordsDrawn_reads.list _ _ _
    | _ => exact hc.elim
  · simp only [pure_eq, follows_bind, follows_ret]
    refine follows_selectTarget ⟨fun _ _ _ => trivial, fun _ _ _ => trivial⟩ ?_
    intro tr' t _ _ _ _ _ _ _
    refine follows_random_bind.mpr ⟨fun _ _ _ h => (by cases h), fun r => follows_advance ?_⟩
    intro hbound key' st' heq
    cases heq
    have hr : r < 2 ^ 128 := hbound (2 ^ 128) r List.mem_cons_self (by decide)
    exact .inr ⟨t, BitVec.ofNatLT r hr, List.mem_cons_self, rfl⟩
  · intro tr' e _
    simp only [pure_eq, follows_ret]
    exact follows_wait (recordsDrawn_kept rfl)

theorem selectAndRecord_drawn (source : SourceInfo) (r : PvcRef) :
    Follows (RecordsDrawn st) (fun _ _ => True) tr (selectAndRecord cfg evac st source r) := by
  simp only [selectAndRecord, bind_eq, follows_bind, follows_listObjs]
  refine ⟨recordsDrawn_reads.list _ _ _, fun evacs => ?_⟩
  split_ifs with hbusy
  · exact follows_wait (recordsDrawn_kept rfl)
  simp only [follows_bind, follows_getOpt]
  refine ⟨recordsDrawn_reads.get _ _ _, fun pv => ?_⟩
  cases pv with
  | none => exact follows_fail (recordsDrawn_kept rfl)
  | some pv =>
    cases (specOf evac).mode with
    | whenIdle => exact recordChoice_drawn source pv none
    | whenClaimed =>
      simp only [follows_bind]
      refine follows_podsReferencingPvc recordsDrawn_reads fun pods => ?_
      refine follows_resolve recordsDrawn_reads fun tr' group _ _ => ?_
      exact (follows_bind _ _).mp (recordChoice_drawn source pv group)

/-- Whatever target selection records has a drawn handle. -/
theorem targetSelecting_drawn (cfg : Config) (evac : Obj .evacuation)
    (st : ZFSEvacuationStatus) :
    Follows (RecordsDrawn st) (fun _ _ => True) [] (targetSelecting cfg evac st) := by
  simp only [targetSelecting, bind_eq, follows_bind, follows_orErr]
  refine fun source hs r hr => ⟨fun _ _ _ h => (by cases h), fun _ => ?_⟩
  exact follows_andFinally (RecordsDrawn st) (fun _ => True) trivial (fun _ _ _ _ _ => trivial)
    (fun _ _ h => h) (fun _ _ => ⟨fun _ _ _ h => (by cases h), fun _ => trivial⟩)
    (selectAndRecord_drawn source r)

/-- What a world answers stays below the bound, and a reconcile keeps all of its answers. -/
theorem allBelow_run {guard : System → SysAction → Prop} {as : List SysAction} {s : System}
    (h : Run (System.step cfg) guard System.init as s) : System.AllBelow s := by
  have hinit : System.AllBelow System.init := by
    intro n r hr
    cases hr
  refine h.invariant hinit fun s a s' hs _ hstep n r' hr' => ?_
  cases System.running_step hstep hr' with
  | kept _ running _ => exact hs n r' running
  | started version idle stored named eq =>
    rw [eq]
    exact fun _ _ hmem => by cases hmem
  | called o r c next running prog free eq =>
    rw [eq]
    intro bound drawn hmem hbound
    rcases List.mem_cons.mp hmem with heq | hmem
    · cases heq
      exact Nat.mod_lt _ hbound
    · exact hs n r running bound drawn hmem hbound

/-- A text that is not the refusal of a handle. -/
def Foreign (msg : String) : Prop := ∀ handle, msg ≠ handleRefusal handle

theorem handleRefusal_start (handle : String) :
    "source volume handle ".toList <+: (handleRefusal handle).toList := by
  have htext : handleRefusal handle = "source volume handle " ++
      (handle ++ " cannot be used as a Kubernetes snapshot label value") := String.append_assoc ..
  have happend (start rest : String) : start.toList <+: (start ++ rest).toList := by
    rw [String.toList_append]
    exact List.prefix_append _ _
  rw [htext]
  exact happend _ _

theorem foreign_of_start {msg : String}
    (h : ¬ "source volume handle ".toList <+: msg.toList) : Foreign msg := by
  intro handle heq
  rw [heq] at h
  exact h (handleRefusal_start handle)

theorem boundClaim_foreign {spec : PersistentVolumeSpec} {msg : String}
    (h : boundClaim spec = .error msg) : Foreign msg := by
  unfold boundClaim at h
  split at h
  · cases h
    exact foreign_of_start (by simp)
  · split at h
    · cases h
    · cases h
      exact foreign_of_start (by simp)

theorem volumeRefusal_foreign {zv : Obj .zfsVolume} {msg : String}
    (h : volumeRefusal zv = some msg) : Foreign msg := by
  unfold volumeRefusal at h
  simp only at h
  split_ifs at h
  · cases h
    exact foreign_of_start (by simp)
  · cases h
    exact foreign_of_start (by simp)

/-- Of the errors about the volume behind a PV, one is about its handle. -/
theorem evacuableHandle_error {spec : PersistentVolumeSpec} {msg : String}
    (h : evacuableHandle spec = .error msg) :
    Foreign msg ∨ ∃ csi, spec.csi = some csi ∧
      sourceHandleFitsSnapshotLabel csi.volumeHandle = false := by
  unfold evacuableHandle at h
  split at h
  · cases h
    exact .inl (foreign_of_start (by simp))
  · rename_i csi hcsi
    split_ifs at h with hdriver hfits
    · cases h
      exact .inl (foreign_of_start (by simp [String.toList_append]))
    · exact .inr ⟨csi, hcsi, by simpa using hfits⟩

theorem refusesUnfit_reads : ReadsAllowed (RefusesUnfit key) where
  get _ _ _ _ _ _ h := by cases h
  list _ _ _ _ _ _ h := by cases h

theorem follows_fail_foreign {name msg : String} (h : Foreign msg) :
    Follows (RefusesUnfit key) (fun _ _ => True) tr (fail name st msg) := by
  refine follows_fail fun _ st' handle heq hmsg => ?_
  cases heq
  exact absurd (Option.some.inj hmsg) (h handle)

/-- `pending` refuses a handle only where it does not fit. -/
theorem pending_refuses (cfg : Config) (evac : Obj .evacuation) (st : ZFSEvacuationStatus) :
    Follows (RefusesUnfit ⟨"", (specOf evac).pvName⟩) (fun _ _ => True) [] (pending cfg evac st) := by
  have hr : ReadsAllowed (RefusesUnfit ⟨"", (specOf evac).pvName⟩) := refusesUnfit_reads
  simp only [pending, bind_eq, follows_bind, follows_getOpt]
  refine ⟨hr.get _ _ _, fun pv => ?_⟩
  cases pv with
  | none => exact follows_fail_foreign (foreign_of_start (by simp [String.toList_append]))
  | some pv =>
    simp only
    cases hhandle : evacuableHandle ((pvSpec pv).getD {}) with
    | error msg =>
      rcases evacuableHandle_error hhandle with hforeign | hunfit
      · exact follows_fail_foreign hforeign
      · refine follows_fail fun _ _ _ _ _ pv' hsaw => ?_
        -- The PV is read once.
        obtain rfl : pv' = pv := by
          have heq := List.mem_singleton.mp hsaw
          cases heq
          rfl
        exact hunfit
    | ok handle =>
      cases hclaim : boundClaim ((pvSpec pv).getD {}) with
      | error msg => exact follows_fail_foreign (boundClaim_foreign hclaim)
      | ok claim =>
        simp only [follows_bind, follows_getOpt]
        refine ⟨hr.get _ _ _, fun pvc => ?_⟩
        cases pvc with
        | none => exact follows_fail_foreign (foreign_of_start (by simp [String.toList_append]))
        | some pvc =>
          simp only
          split_ifs
          · exact follows_fail_foreign (foreign_of_start (by simp))
          · exact follows_fail_foreign (foreign_of_start (by simp))
          simp only [follows_bind, follows_getOpt]
          refine ⟨hr.get _ _ _, fun zv => ?_⟩
          cases zv with
          | none => exact follows_fail_foreign (foreign_of_start (by simp [String.toList_append]))
          | some zv =>
            simp only
            cases hrefusal : volumeRefusal zv with
            | some msg => exact follows_fail_foreign (volumeRefusal_foreign hrefusal)
            | none =>
              simp only [follows_bind, follows_listObjs]
              refine ⟨hr.list _ _ _, fun snaps => ?_⟩
              by_cases hsnaps : (!snaps.isEmpty) = true
              · rw [if_pos hsnaps]
                exact follows_fail_foreign (foreign_of_start (by simp))
              rw [if_neg hsnaps]
              simp only [follows_bind]
              refine follows_nodeById hr fun tr' srcNode _ => ?_
              cases srcNode with
              | none =>
                exact follows_fail_foreign (foreign_of_start (by simp [String.toList_append]))
              | some srcNode =>
                simp only
                split_ifs
                · exact follows_fail_foreign (foreign_of_start (by simp))
                refine follows_advance fun _ _ _ heq hmsg => ?_
                cases heq
                cases hmsg

end Recorded

/-! ## Any number of evacuations -/

/-- One evacuation replaces the PV of a volume by one with a drawn handle. -/
def EvacuatedOnce (old new : Obj .pv) : Prop :=
  ∃ (pvcRef : PvcRef) (t : TargetInfo) (r : BitVec 128),
    renderNewPv old pvcRef { t with newVolumeHandle := newDestinationHandle r.toNat } = .ok new

/-- No handle is refused once the PV that was read is this one. -/
def NeverRefuses (key : Key) (pv : Obj .pv) (tr : Trace) (call : Call) : Prop :=
  sawEvent .pv key (some pv) ∈ tr → ∀ evacKey st' handle,
    call = .patch .evacuation evacKey (.status st') → st'.message ≠ some (handleRefusal handle)

section Chain
variable {old new : Obj .pv}

/-- What one evacuation leaves of the CSI source. -/
theorem EvacuatedOnce.csi (h : EvacuatedOnce old new) : ∃ csi csi' : CsiSource,
    ((pvSpec old).getD {}).csi = some csi ∧ ((pvSpec new).getD {}).csi = some csi' ∧
      csi'.driver = csi.driver ∧ ∃ r : BitVec 128, csi'.volumeHandle = newDestinationHandle r.toNat := by
  obtain ⟨pvcRef, t, r, hrender⟩ := h
  obtain ⟨spec, spec', hold, hnew, hspec⟩ := (renderNewPv_frame hrender).spec
  obtain ⟨csi, csi', hcsi, hcsi', hframe⟩ := hspec.csi
  refine ⟨csi, csi', by rw [hold]; exact hcsi, by rw [hnew]; exact hcsi', ?_, r, hframe.handle⟩
  rw [hframe.kept]

theorem evacuated_fits (h : Relation.TransGen EvacuatedOnce old new) {csi : CsiSource}
    (hcsi : ((pvSpec new).getD {}).csi = some csi) :
    sourceHandleFitsSnapshotLabel csi.volumeHandle = true := by
  obtain ⟨mid, hlast⟩ : ∃ mid, EvacuatedOnce mid new := by
    cases h with
    | single h => exact ⟨old, h⟩
    | tail _ h => exact ⟨_, h⟩
  obtain ⟨_, csi', _, hcsi', _, r, hhandle⟩ := hlast.csi
  obtain rfl : csi = csi' := Option.some.inj (hcsi.symm.trans hcsi')
  rw [hhandle]
  exact newDestinationHandle_fits r

/-- The driver and the shape of the handle are all that counts. -/
theorem evacuableHandle_ok {spec : PersistentVolumeSpec} {handle : String} :
    evacuableHandle spec = .ok handle ↔ ∃ csi, spec.csi = some csi ∧ csi.driver = zfsDriver ∧
      sourceHandleFitsSnapshotLabel csi.volumeHandle = true ∧ csi.volumeHandle = handle := by
  unfold evacuableHandle
  cases spec.csi with
  | none => simp
  | some csi =>
    by_cases hdriver : csi.driver = zfsDriver <;>
      by_cases hfits : sourceHandleFitsSnapshotLabel csi.volumeHandle = true <;>
        simp [hdriver, hfits]

/-- A volume that could be evacuated can be evacuated again. -/
theorem evacuable_again (h : EvacuatedOnce old new)
    (hold : ∃ handle, evacuableHandle ((pvSpec old).getD {}) = .ok handle) :
    ∃ handle, evacuableHandle ((pvSpec new).getD {}) = .ok handle := by
  obtain ⟨csi, csi', hcsi, hcsi', hdriver, r, hhandle⟩ := h.csi
  obtain ⟨handle, hok⟩ := hold
  obtain ⟨csi₀, hcsi₀, hzfs, -, -⟩ := evacuableHandle_ok.mp hok
  obtain rfl : csi = csi₀ := Option.some.inj (hcsi.symm.trans hcsi₀)
  have hfits := newDestinationHandle_fits r
  rw [← hhandle] at hfits
  exact ⟨_, evacuableHandle_ok.mpr ⟨csi', hcsi', hdriver.trans hzfs, hfits, rfl⟩⟩

theorem evacuable_always (h : Relation.ReflTransGen EvacuatedOnce old new)
    (hold : ∃ handle, evacuableHandle ((pvSpec old).getD {}) = .ok handle) :
    ∃ handle, evacuableHandle ((pvSpec new).getD {}) = .ok handle := by
  induction h with
  | refl => exact hold
  | tail _ hlast ih => exact evacuable_again hlast ih

theorem pending_never_refuses (h : Relation.TransGen EvacuatedOnce old new) (cfg : Config)
    (evac : Obj .evacuation) (st : ZFSEvacuationStatus) :
    Follows (NeverRefuses ⟨"", (specOf evac).pvName⟩ new) (fun _ _ => True) []
      (pending cfg evac st) := by
  refine follows_weaken (pending_refuses cfg evac st) fun tr call hcall hsaw evacKey st' handle
    heq hmsg => ?_
  obtain ⟨csi, hcsi, hunfit⟩ := hcall evacKey st' handle heq hmsg new hsaw
  rw [evacuated_fits h hcsi] at hunfit
  cases hunfit

end Chain

/-- Every handle that can be drawn has 38 bytes and is a label value, different numbers give
different handles, and the test accepts the label values other than the empty one. The targets
that are recorded have drawn handles, so a volume is not refused for the handle that an
evacuation gave it, and a volume that was taken once is taken after any number of evacuations. -/
theorem handles_stay_valid :
    (∀ r : BitVec 128, (newDestinationHandle r.toNat).utf8ByteSize = 38 ∧
      sourceHandleFitsSnapshotLabel (newDestinationHandle r.toNat) = true) ∧
    (∀ r r' : BitVec 128, r ≠ r' → newDestinationHandle r.toNat ≠ newDestinationHandle r'.toNat) ∧
    (∀ handle, sourceHandleFitsSnapshotLabel handle = bytesFitSnapshotLabel (utf8Bytes handle) ∧
      (sourceHandleFitsSnapshotLabel handle = true ↔
        handle ≠ "" ∧ IsLabelValue (utf8Bytes handle))) ∧
    (∀ cfg evac st,
      Follows (RecordsDrawn st) (fun _ _ => True) [] (targetSelecting cfg evac st)) ∧
    (∀ cfg guard as s, Run (System.step cfg) guard System.init as s → System.AllBelow s) ∧
    (∀ old new, Relation.TransGen EvacuatedOnce old new → ∀ cfg evac st,
      Follows (NeverRefuses ⟨"", (specOf evac).pvName⟩ new) (fun _ _ => True) []
        (pending cfg evac st)) ∧
    ∀ old new, Relation.ReflTransGen EvacuatedOnce old new →
      (∃ handle, evacuableHandle ((pvSpec old).getD {}) = .ok handle) →
        ∃ handle, evacuableHandle ((pvSpec new).getD {}) = .ok handle := by
  refine ⟨fun r => ⟨utf8ByteSize_newDestinationHandle r, newDestinationHandle_fits r⟩,
    fun r r' hne h => hne (newDestinationHandle_inj h),
    fun handle => ⟨sourceHandleFitsSnapshotLabel_bytes handle,
      sourceHandleFitsSnapshotLabel_iff handle⟩, targetSelecting_drawn,
    fun _ _ _ _ h => allBelow_run h, ?_, ?_⟩
  · exact fun old new h => pending_never_refuses h
  · exact fun old new h => evacuable_always h

/-- A volume with the longest handle that is taken, before and after two evacuations. -/
theorem handles_stay_valid_twice :
    let old := Sample.pv "pv1" "c1" (String.ofList (List.replicate 63 'a')) []
    ∃ once twice, EvacuatedOnce old once ∧ EvacuatedOnce once twice ∧
      (∃ handle, evacuableHandle ((pvSpec twice).getD {}) = .ok handle) ∧
      Follows (NeverRefuses ⟨"", "pv1"⟩ twice) (fun _ _ => True) []
        (pending Sample.config (Sample.evacuation "pv1" .whenIdle) {}) := by
  intro old
  have hfirst : renderNewPv old ⟨"d", "c1", 5⟩
      ⟨"n2", "n2", "tank", newDestinationHandle (0 : BitVec 128).toNat⟩ = .ok _ := rfl
  have honce : EvacuatedOnce old _ := ⟨_, ⟨"n2", "n2", "tank", ""⟩, 0, hfirst⟩
  have htwice : EvacuatedOnce _ _ := ⟨⟨"d", "c1", 5⟩, ⟨"n1", "n1", "tank", ""⟩, 1,
    (renderNewPv_again hfirst).trans rfl⟩
  have hold : ∃ handle, evacuableHandle ((pvSpec old).getD {}) = .ok handle := ⟨_, rfl⟩
  obtain ⟨-, -, -, -, -, hpending, hagain⟩ := handles_stay_valid
  exact ⟨_, _, honce, htwice,
    hagain old _ (.tail (.single honce) htwice) hold,
    hpending old _ (.tail (.single honce) htwice) Sample.config
      (Sample.evacuation "pv1" .whenIdle) {}⟩

end ZfsEvacuation
