import ZfsEvacuation.StateMachine

/-!
# What a reconcile has seen and done

Events of a reconcile, and the rules that follow its helpers through the calls they make.
-/
namespace ZfsEvacuation
open ClientProgram Program

abbrev Trace := List (Event kubeInterface)

/-! ## Events -/

def sawEvent (k : Kind) (key : Key) (o : Option (Obj k)) : Event kubeInterface :=
  ⟨.get k key, (.ok o : Except ApiError (Option (Obj k)))⟩

def listedEvent (k : Kind) (sel : Selector) (l : List (Obj k)) : Event kubeInterface :=
  ⟨.list k sel, (.ok l : Except ApiError (List (Obj k)))⟩

def createdEvent (k : Kind) (o : Obj k) (r : Except ApiError Unit) : Event kubeInterface :=
  ⟨.create k o, r⟩

def replacedEvent (k : Kind) (o : Obj k) (r : Except ApiError Unit) : Event kubeInterface :=
  ⟨.replace k o, r⟩

def deletedEvent (k : Kind) (key : Key) : Event kubeInterface :=
  ⟨.delete k key, (.ok () : Except ApiError Unit)⟩

def patchedEvent (k : Kind) (key : Key) (p : Patch k) : Event kubeInterface :=
  ⟨.patch k key p, (.ok () : Except ApiError Unit)⟩

def sawTransferEvent (evac : String) (t : Option ActiveTransfer) : Event kubeInterface :=
  ⟨.transferGet evac, t⟩

/-- The status a call asks to be stored. -/
def statusWrite : Call → Option ZFSEvacuationStatus
  | .patch .evacuation _ (.status st) => some st
  | _ => none

/-- The call creates a transfer resource. -/
def createsCr : Call → Bool
  | .create .zfsBackup _ | .create .zfsRestore _ => true
  | _ => false

/-- The status the reconcile wrote last. -/
def written (tr : Trace) : Option ZFSEvacuationStatus := tr.findSome? fun e => statusWrite e.1

/-- A status write that the API server did not confirm. -/
def WriteFailed (e : Event kubeInterface) : Prop :=
  ∃ key st err, e = ⟨.patch .evacuation key (.status st), (.error err : Except ApiError Unit)⟩

/-- `st` is the status of the evacuation as the reconcile knows it: what it wrote last, or
else what it started from. After a failed write it knows nothing. -/
structure Knows (view : Obj .evacuation) (tr : Trace) (st : ZFSEvacuationStatus) : Prop where
  eq : (written tr).getD (viewStatus view) = st
  acked : ∀ e ∈ tr, ¬ WriteFailed e

def Quiet (tr : Trace) : Prop := ∀ e ∈ tr, createsCr e.1 = false

def unlocksSelection : Call → Bool
  | .unlockSelection => true
  | _ => false

/-- The reconcile has taken the selection lock and not given it back. -/
def HoldsSelection (tr : Trace) : Prop :=
  (⟨.lockSelection, ()⟩ : Event kubeInterface) ∈ tr ∧ ∀ e ∈ tr, unlocksSelection e.1 = false

theorem HoldsSelection.cons {tr : Trace} {e : Event kubeInterface} (h : HoldsSelection tr)
    (he : unlocksSelection e.1 = false) : HoldsSelection (e :: tr) := by
  refine ⟨List.mem_cons_of_mem _ h.1, fun x hx => ?_⟩
  rcases List.mem_cons.mp hx with rfl | hx
  · exact he
  · exact h.2 x hx

/-- The evacuations were listed as `l` after the selection lock had been taken. -/
def ListedInSelection (tr : Trace) (l : List (Obj .evacuation)) : Prop :=
  ∃ post, (listedEvent .evacuation {} l :: post) <:+ tr ∧ HoldsSelection post

/-- The evacuation of this name was read as `e` after the selection lock had been taken. -/
def ReadInSelection (tr : Trace) (name : String) (e : Option (Obj .evacuation)) : Prop :=
  ∃ post, (sawEvent .evacuation ⟨"", name⟩ e :: post) <:+ tr ∧ HoldsSelection post

def registersRelay : Call → Bool
  | .transferInsert _ => true
  | _ => false

/-- The reconcile has registered no relay. -/
def Unregistered (tr : Trace) : Prop := ∀ e ∈ tr, registersRelay e.1 = false

/-- The reconcile has registered a relay for this attempt. -/
def Registered (evac : String) (tr : Trace) (attempt : Nat) : Prop :=
  ∃ relay, (⟨.transferInsert ⟨evac, attempt, relay⟩, ()⟩ : Event kubeInterface) ∈ tr

/-- Neither a status write nor the creation of a transfer resource nor an unlock nor a new
relay. -/
structure Silent (c : Call) : Prop where
  status : statusWrite c = none
  cr : createsCr c = false
  unlock : unlocksSelection c = false
  relay : registersRelay c = false

/-- A later trace of the same reconcile with nothing but silent calls in between. -/
structure Extends (tr tr' : Trace) : Prop where
  suffix : tr <:+ tr'
  same : written tr' = written tr
  silent : ∀ e ∈ tr', e ∈ tr ∨ Silent e.1

namespace Extends
variable {tr tr' tr'' : Trace}

theorem mono (h : Extends tr tr') : tr ⊆ tr' := h.suffix.subset

theorem refl (tr : Trace) : Extends tr tr := ⟨List.suffix_refl tr, rfl, fun _ h => .inl h⟩

theorem trans (h : Extends tr tr') (h' : Extends tr' tr'') : Extends tr tr'' :=
  ⟨h.suffix.trans h'.suffix, h'.same.trans h.same,
    fun e he => (h'.silent e he).elim (h.silent e) .inr⟩

theorem step {e : Event kubeInterface} (h : Extends tr tr') (he : Silent e.1) :
    Extends tr (e :: tr') := by
  refine ⟨h.suffix.trans (List.suffix_cons e tr'), ?_, fun x hx => ?_⟩
  · rw [← h.same]
    simp [written, he.status]
  · rcases List.mem_cons.mp hx with rfl | hx
    · exact .inr he
    · exact h.silent x hx

theorem quiet (h : Extends tr tr') (hq : Quiet tr) : Quiet tr' :=
  fun e he => (h.silent e he).elim (hq e) Silent.cr

theorem unregistered (h : Extends tr tr') (hu : Unregistered tr) : Unregistered tr' :=
  fun e he => (h.silent e he).elim (hu e) Silent.relay

theorem holds (h : Extends tr tr') (hl : HoldsSelection tr) : HoldsSelection tr' :=
  ⟨h.mono hl.1, fun e he => (h.silent e he).elim (hl.2 e) Silent.unlock⟩

theorem listedInSelection (h : Extends tr tr') {l : List (Obj .evacuation)}
    (hl : ListedInSelection tr l) : ListedInSelection tr' l := by
  obtain ⟨post, hsuffix, hheld⟩ := hl
  exact ⟨post, hsuffix.trans h.suffix, hheld⟩

theorem readInSelection (h : Extends tr tr') {name : String} {e : Option (Obj .evacuation)}
    (hl : ReadInSelection tr name e) : ReadInSelection tr' name e := by
  obtain ⟨post, hsuffix, hheld⟩ := hl
  exact ⟨post, hsuffix.trans h.suffix, hheld⟩

theorem saw (h : Extends tr tr') (k : Kind) (key : Key) (o : Option (Obj k)) :
    Extends tr (sawEvent k key o :: tr') := h.step ⟨rfl, rfl, rfl, rfl⟩

theorem listed (h : Extends tr tr') (k : Kind) (sel : Selector) (l : List (Obj k)) :
    Extends tr (listedEvent k sel l :: tr') := h.step ⟨rfl, rfl, rfl, rfl⟩

theorem knows (h : Extends tr tr') {view : Obj .evacuation} {st : ZFSEvacuationStatus}
    (hk : Knows view tr st) : Knows view tr' st := by
  refine ⟨by rw [h.same, hk.eq], fun e he hf => ?_⟩
  rcases h.silent e he with he | hs
  · exact hk.acked e he hf
  · obtain ⟨key, st, err, rfl⟩ := hf
    exact absurd hs.status (by simp [statusWrite])

end Extends

theorem silent_finalizers (k : Kind) (key : Key) (fs : List String) :
    Silent (.patch k key (.finalizers fs)) := by
  constructor
  · cases k <;> rfl
  · rfl
  · rfl
  · rfl

theorem knows_nil (view : Obj .evacuation) : Knows view [] (viewStatus view) :=
  ⟨rfl, fun _ h => by cases h⟩

theorem Knows.patched {view : Obj .evacuation} {tr : Trace} {st : ZFSEvacuationStatus}
    (h : Knows view tr st) (key : Key) (w : ZFSEvacuationStatus) :
    Knows view (patchedEvent .evacuation key (.status w) :: tr) w := by
  refine ⟨rfl, fun e he hf => ?_⟩
  rcases List.mem_cons.mp he with rfl | he
  · obtain ⟨key', st', err, heq⟩ := hf
    cases heq
  · exact h.acked e he hf

theorem Knows.unique {view : Obj .evacuation} {tr : Trace} {st st' : ZFSEvacuationStatus}
    (h : Knows view tr st) (h' : Knows view tr st') : st = st' := h.eq.symm.trans h'.eq

theorem unregistered_nil : Unregistered [] := fun _ h => by cases h

theorem Unregistered.cons {tr : Trace} {e : Event kubeInterface} (h : Unregistered tr)
    (he : registersRelay e.1 = false) : Unregistered (e :: tr) := by
  intro x hx
  rcases List.mem_cons.mp hx with rfl | hx
  · exact he
  · exact h x hx

/-- A call that writes no status leaves what is known of it. -/
theorem Knows.cons {view : Obj .evacuation} {tr : Trace} {st : ZFSEvacuationStatus}
    (h : Knows view tr st) {e : Event kubeInterface} (he : statusWrite e.1 = none) :
    Knows view (e :: tr) st := by
  refine ⟨?_, fun x hx hf => ?_⟩
  · rw [← h.eq]
    simp [written, he]
  · rcases List.mem_cons.mp hx with rfl | hx
    · obtain ⟨key, st', err, rfl⟩ := hf
      cases he
    · exact h.acked x hx hf

theorem quiet_nil : Quiet [] := fun _ h => by cases h

theorem Quiet.cons {tr : Trace} {e : Event kubeInterface} (h : Quiet tr)
    (he : createsCr e.1 = false) : Quiet (e :: tr) := by
  intro x hx
  rcases List.mem_cons.mp hx with rfl | hx
  · exact he
  · exact h x hx

/-! ## Rules -/

section Rules
variable {α β : Type} {ok : Trace → Call → Prop} {tr : Trace}

theorem follows_send {c : Call} {post : Trace → c.Resp → Prop} :
    Follows ok post tr (send c) ↔ ok tr c ∧ ∀ r : c.Resp, post (⟨c, r⟩ :: tr) r := Iff.rfl

section Answers
variable {post : Trace → β → Prop}

theorem follows_spawnRelay_bind {backupPeers restorePeers : List IpNet}
    {f : Except String Relay → M β} :
    Follows ok post tr
        (do let r : Except String Relay ← send (.spawnRelay backupPeers restorePeers); f r) ↔
      ok tr (.spawnRelay backupPeers restorePeers) ∧ ∀ r : Except String Relay,
        Follows ok post (⟨.spawnRelay backupPeers restorePeers, r⟩ :: tr) (f r) := Iff.rfl

theorem follows_now_bind {f : Nat → M β} :
    Follows ok post tr (do let t : Nat ← send .now; f t) ↔
      ok tr .now ∧ ∀ t : Nat, Follows ok post (⟨.now, t⟩ :: tr) (f t) := Iff.rfl

theorem follows_random_bind {bound : Nat} {f : Nat → M β} :
    Follows ok post tr (do let r : Nat ← send (.random bound); f r) ↔
      ok tr (.random bound) ∧ ∀ r : Nat, Follows ok post (⟨.random bound, r⟩ :: tr) (f r) := Iff.rfl

theorem follows_transferGet_bind {evac : String} {f : Option ActiveTransfer → M β} :
    Follows ok post tr (do let t : Option ActiveTransfer ← send (.transferGet evac); f t) ↔
      ok tr (.transferGet evac) ∧
        ∀ t, Follows ok post (sawTransferEvent evac t :: tr) (f t) := Iff.rfl

theorem follows_transferRemove_bind {evac : String} {f : Unit → M β} :
    Follows ok post tr (do let u : Unit ← send (.transferRemove evac); f u) ↔
      ok tr (.transferRemove evac) ∧
        Follows ok post (⟨.transferRemove evac, ()⟩ :: tr) (f ()) :=
  ⟨fun h => ⟨h.1, h.2 ()⟩, fun h => ⟨h.1, fun () => h.2⟩⟩

theorem follows_transferInsert_bind {t : ActiveTransfer} {f : Unit → M β} :
    Follows ok post tr (do let u : Unit ← send (.transferInsert t); f u) ↔
      ok tr (.transferInsert t) ∧ Follows ok post (⟨.transferInsert t, ()⟩ :: tr) (f ()) :=
  ⟨fun h => ⟨h.1, h.2 ()⟩, fun h => ⟨h.1, fun () => h.2⟩⟩

end Answers

theorem follows_orErr {o : Option α} {text : String} {post : Trace → α → Prop} :
    Follows ok post tr (orErr o text) ↔ ∀ a, o = some a → post tr a := by
  cases o <;> simp [orErr]

theorem follows_withContext {text : String} {p : M α} {post : Trace → α → Prop} :
    Follows ok post tr (withContext text p) ↔ Follows ok post tr p := by simp [withContext]

theorem follows_getOpt {k : Kind} {key : Key} {post : Trace → Option (Obj k) → Prop} :
    Follows ok post tr (getOpt k key) ↔
      ok tr (.get k key) ∧ ∀ o, post (sawEvent k key o :: tr) o := by
  constructor
  · intro h
    exact ⟨h.1, fun o => h.2 (Except.ok o)⟩
  · rintro ⟨hok, hpost⟩
    refine ⟨hok, fun r => ?_⟩
    cases r with
    | ok o => exact hpost o
    | error _ => trivial

theorem follows_listObjs {k : Kind} {sel : Selector} {post : Trace → List (Obj k) → Prop} :
    Follows ok post tr (listObjs k sel) ↔
      ok tr (.list k sel) ∧ ∀ l, post (listedEvent k sel l :: tr) l := by
  constructor
  · intro h
    exact ⟨h.1, fun l => h.2 (Except.ok l)⟩
  · rintro ⟨hok, hpost⟩
    refine ⟨hok, fun r => ?_⟩
    cases r with
    | ok l => exact hpost l
    | error _ => trivial

theorem follows_deleteObj {k : Kind} {key : Key} {post : Trace → Unit → Prop} :
    Follows ok post tr (deleteObj k key) ↔
      ok tr (.delete k key) ∧ post (deletedEvent k key :: tr) () := by
  constructor
  · intro h
    exact ⟨h.1, h.2 (Except.ok ())⟩
  · rintro ⟨hok, hpost⟩
    refine ⟨hok, fun r => ?_⟩
    cases r with
    | ok _ => exact hpost
    | error _ => trivial

theorem follows_patchObj {k : Kind} {key : Key} {p : Patch k} {post : Trace → Unit → Prop} :
    Follows ok post tr (patchObj k key p) ↔
      ok tr (.patch k key p) ∧ post (patchedEvent k key p :: tr) () := by
  constructor
  · intro h
    exact ⟨h.1, h.2 (Except.ok ())⟩
  · rintro ⟨hok, hpost⟩
    refine ⟨hok, fun r => ?_⟩
    cases r with
    | ok _ => exact hpost
    | error _ => trivial

theorem follows_writeStatus {name : String} {st : ZFSEvacuationStatus}
    {post : Trace → Unit → Prop} :
    Follows ok post tr (writeStatus name st) ↔
      ok tr (.patch .evacuation ⟨"", name⟩ (.status st)) ∧
        post (patchedEvent .evacuation ⟨"", name⟩ (.status st) :: tr) () := by
  simp only [writeStatus, follows_withContext, follows_patchObj]

theorem follows_createIfAbsent {k : Kind} {o : Obj k} {post : Trace → Unit → Prop}
    (hok : ok tr (.create k o)) (hpost : ∀ r, post (createdEvent k o r :: tr) ()) :
    Follows ok post tr (createIfAbsent o) := by
  simp only [createIfAbsent, bind_eq, follows_bind, follows_send]
  refine ⟨hok, fun r => ?_⟩
  rcases r with (_ | _ | text) | _
  · trivial
  · exact hpost (.error .conflict)
  · trivial
  · exact hpost (.ok ())

theorem follows_nowRfc3339 {post : Trace → Nat → Prop} :
    Follows ok post tr nowRfc3339 ↔
      ok tr .now ∧ ∀ t : Nat, post (⟨.now, t⟩ :: tr) (t / 10 ^ 9) := Iff.rfl

/-- Writing is all that ending a phase does. -/
theorem follows_advance {name : String} {st : ZFSEvacuationStatus} {phase : Phase}
    (h : ok tr (.patch .evacuation ⟨"", name⟩ (.status { st with phase, message := none }))) :
    Follows ok (fun _ _ => True) tr (advance name st phase) := by
  simpa [advance, follows_writeStatus] using h

theorem follows_fail {name : String} {st : ZFSEvacuationStatus} {msg : String}
    (h : ok tr (.patch .evacuation ⟨"", name⟩
      (.status { st with phase := .failed, message := some msg }))) :
    Follows ok (fun _ _ => True) tr (fail name st msg) := by
  simpa [fail, follows_writeStatus] using h

theorem follows_beginAbort {name : String} {st : ZFSEvacuationStatus} {msg : String}
    (h : ok tr (.patch .evacuation ⟨"", name⟩
      (.status { st with phase := .aborting, message := some msg }))) :
    Follows ok (fun _ _ => True) tr (beginAbort name st msg) := by
  simpa [beginAbort, follows_writeStatus] using h

theorem follows_wait {name : String} {st : ZFSEvacuationStatus} {msg : String} {secs : Nat}
    (h : ok tr (.patch .evacuation ⟨"", name⟩ (.status { st with message := some msg }))) :
    Follows ok (fun _ _ => True) tr (wait name st msg secs) := by
  unfold wait
  split_ifs <;> simp [follows_writeStatus, h]

theorem follows_requeueMsg {name : String} {st : ZFSEvacuationStatus} {msg : String}
    (h : ok tr (.patch .evacuation ⟨"", name⟩ (.status { st with message := some msg }))) :
    Follows ok (fun _ _ => True) tr (requeueMsg name st msg) := by
  unfold requeueMsg
  split_ifs <;> simp [follows_writeStatus, h]

/-! ## Rules for the shared helpers -/

/-- Reading is always allowed. -/
structure ReadsAllowed (ok : Trace → Call → Prop) : Prop where
  get : ∀ tr k key, ok tr (.get k key)
  list : ∀ tr k sel, ok tr (.list k sel)

variable {post : Trace → β → Prop}

/-- No node of this identity was in a listing of all nodes. -/
def NodeGoneSeen (nodeId : String) (tr : Trace) : Prop :=
  ∃ nodes, listedEvent .node {} nodes ∈ tr ∧ ∀ x ∈ nodes, nodeIdOf x ≠ nodeId

theorem follows_nodeById_seen (hr : ReadsAllowed ok) {nodeId : String}
    {post : Trace → Option (Obj .node) → Prop}
    (hpost : ∀ tr' o, Extends tr tr' → (o = none → NodeGoneSeen nodeId tr') → post tr' o) :
    Follows ok post tr (nodeById nodeId) := by
  simp only [nodeById, bind_eq, follows_bind, follows_getOpt]
  refine ⟨hr.get _ _ _, fun o => ?_⟩
  have hext : Extends tr (sawEvent .node ⟨"", nodeId⟩ o :: tr) :=
    (Extends.refl tr).step ⟨rfl, rfl, rfl, rfl⟩
  split
  · exact hpost _ _ hext (by simp)
  · simp only [follows_bind, follows_listObjs]
    refine ⟨hr.list _ _ _, fun l => hpost _ _ (hext.step ⟨rfl, rfl, rfl, rfl⟩) fun hnone => ?_⟩
    exact ⟨l, List.mem_cons_self .., by simpa using hnone⟩

theorem follows_nodeById (hr : ReadsAllowed ok) {nodeId : String}
    {post : Trace → Option (Obj .node) → Prop} (hpost : ∀ tr' o, Extends tr tr' → post tr' o) :
    Follows ok post tr (nodeById nodeId) :=
  follows_nodeById_seen hr fun tr' o hext _ => hpost tr' o hext

/-- How an object ended up with the finalizers `f` asks for. -/
def FinalizersSet (k : Kind) (key : Key) (f : List String → List String) (tr : Trace) : Prop :=
  sawEvent k key none ∈ tr ∨
    ∃ o, sawEvent k key (some o) ∈ tr ∧
      (f o.metadata.finalizers = o.metadata.finalizers ∨
        patchedEvent k key (.finalizers (f o.metadata.finalizers)) ∈ tr)

theorem follows_setFinalizers (hr : ReadsAllowed ok) {k : Kind} {key : Key}
    {f : List String → List String} {post : Trace → Unit → Prop}
    (hpatch : ∀ o, ok (sawEvent k key (some o) :: tr)
      (.patch k key (.finalizers (f o.metadata.finalizers))))
    (hpost : ∀ tr', Extends tr tr' → FinalizersSet k key f tr' → post tr' ()) :
    Follows ok post tr (setFinalizers k key f) := by
  simp only [setFinalizers, bind_eq, follows_bind, follows_getOpt]
  refine ⟨hr.get _ _ _, fun o => ?_⟩
  have hext : Extends tr (sawEvent k key o :: tr) := (Extends.refl tr).step ⟨rfl, rfl, rfl, rfl⟩
  cases o with
  | none => exact hpost _ hext (.inl (List.mem_cons_self ..))
  | some o =>
    simp only
    split_ifs with h
    · refine follows_patchObj.mpr ⟨hpatch o, hpost _ (hext.step (silent_finalizers ..)) ?_⟩
      exact .inr ⟨o, by simp, .inr (List.mem_cons_self ..)⟩
    · exact hpost _ hext (.inr ⟨o, by simp, .inl (by simpa using h)⟩)

theorem follows_strip_seen (hr : ReadsAllowed ok) {k : Kind} {key : Key} {nodeId : String}
    {post : Trace → Unit → Prop}
    (hpatch : ∀ tr' o, Extends tr tr' → NodeGoneSeen nodeId tr' → ok (sawEvent k key (some o) :: tr')
      (.patch k key (.finalizers (o.metadata.finalizers.filter (· ≠ zfsFinalizer)))))
    (hpost : ∀ tr', Extends tr tr' → post tr' ()) :
    Follows ok post tr (stripZfsFinalizerIfNodeGone k key nodeId) := by
  simp only [stripZfsFinalizerIfNodeGone, bind_eq, follows_bind]
  refine follows_nodeById_seen hr fun tr' o hext hgone => ?_
  cases o with
  | some _ => exact hpost _ hext
  | none =>
    exact follows_setFinalizers hr (fun o => hpatch tr' o hext (hgone rfl))
      fun tr'' hext' _ => hpost _ (hext.trans hext')

theorem follows_strip (hr : ReadsAllowed ok) {k : Kind} {key : Key} {nodeId : String}
    {post : Trace → Unit → Prop}
    (hpatch : ∀ tr' o, Extends tr tr' → ok (sawEvent k key (some o) :: tr')
      (.patch k key (.finalizers (o.metadata.finalizers.filter (· ≠ zfsFinalizer)))))
    (hpost : ∀ tr', Extends tr tr' → post tr' ()) :
    Follows ok post tr (stripZfsFinalizerIfNodeGone k key nodeId) :=
  follows_strip_seen hr (fun tr' o hext _ => hpatch tr' o hext) hpost

/-- How the attach-lock parameters came to have passed through `mutate`. -/
inductive ParamsSet (mutate : EvacuationParamsSpec → EvacuationParamsSpec × Bool) (tr : Trace) :
    Prop
  | absent (seen : sawEvent .params ⟨"", paramsName⟩ none ∈ tr) (same : (mutate {}).2 = false)
  | created (done : createdEvent .params ⟨{ name := paramsName }, (mutate {}).1⟩ (.ok ()) ∈ tr)
  | kept (m : ObjectMeta) (spec : EvacuationParamsSpec)
      (seen : sawEvent .params ⟨"", paramsName⟩ (some ⟨m, spec⟩) ∈ tr)
      (same : (mutate spec).2 = false)
  | replaced (m : ObjectMeta) (spec : EvacuationParamsSpec)
      (done : replacedEvent .params ⟨m, (mutate spec).1⟩ (.ok ()) ∈ tr)

theorem follows_updateParams (hr : ReadsAllowed ok)
    {mutate : EvacuationParamsSpec → EvacuationParamsSpec × Bool} {tries : Nat}
    {post : Trace → Unit → Prop}
    (hcreate : ∀ tr', Extends tr tr' →
      ok tr' (.create .params ⟨{ name := paramsName }, (mutate {}).1⟩))
    (hreplace : ∀ tr' m spec, Extends tr tr' →
      sawEvent .params ⟨"", paramsName⟩ (some ⟨m, spec⟩) ∈ tr' →
      ok tr' (.replace .params ⟨m, (mutate spec).1⟩))
    (hpost : ∀ tr', Extends tr tr' → ParamsSet mutate tr' → post tr' ()) :
    Follows ok post tr (updateParams mutate tries) := by
  suffices ∀ tr', Extends tr tr' → Follows ok post tr' (updateParams mutate tries) from
    this tr (Extends.refl tr)
  induction tries with
  | zero => exact fun _ _ => trivial
  | succ tries ih =>
    intro tr' hext
    simp only [updateParams, bind_eq, follows_bind, follows_getOpt]
    refine ⟨hr.get _ _ _, fun o => ?_⟩
    have hext' := hext.step (e := sawEvent .params ⟨"", paramsName⟩ o) ⟨rfl, rfl, rfl, rfl⟩
    rcases o with _ | ⟨m, spec⟩
    · simp only
      split_ifs with h
      · exact hpost _ hext' (.absent (List.mem_cons_self ..) (by simpa using h))
      · refine ⟨hcreate _ hext', fun r => ?_⟩
        rcases r with (_ | _ | text) | _
        · trivial
        · exact ih _ (hext'.step ⟨rfl, rfl, rfl, rfl⟩)
        · trivial
        · exact hpost _ (hext'.step ⟨rfl, rfl, rfl, rfl⟩) (.created (List.mem_cons_self ..))
    · simp only
      split_ifs with h
      · exact hpost _ hext' (.kept m spec (List.mem_cons_self ..) (by simpa using h))
      · refine ⟨hreplace _ m spec hext' (List.mem_cons_self ..), fun r => ?_⟩
        rcases r with (_ | _ | text) | _
        · trivial
        · exact ih _ (hext'.step ⟨rfl, rfl, rfl, rfl⟩)
        · trivial
        · exact hpost _ (hext'.step ⟨rfl, rfl, rfl, rfl⟩)
            (.replaced m spec (List.mem_cons_self ..))

theorem follows_cleanupCr (hr : ReadsAllowed ok) {k : Kind} {key : Key} {nodeId : Option String}
    {post : Trace → Bool → Prop}
    (hdelete : ∀ tr', Extends tr tr' → ok tr' (.delete k key))
    (hpatch : ∀ tr' o, Extends tr tr' → ok (sawEvent k key (some o) :: tr')
      (.patch k key (.finalizers (o.metadata.finalizers.filter (· ≠ zfsFinalizer)))))
    (hpost : ∀ tr' b, Extends tr tr' → (b = true → sawEvent k key none ∈ tr') → post tr' b) :
    Follows ok post tr (cleanupCr k key nodeId) := by
  simp only [cleanupCr, bind_eq, follows_bind, follows_getOpt]
  refine ⟨hr.get _ _ _, fun o => ?_⟩
  have hext : Extends tr (sawEvent k key o :: tr) := (Extends.refl tr).step ⟨rfl, rfl, rfl, rfl⟩
  cases o with
  | none => exact hpost _ _ hext fun _ => List.mem_cons_self ..
  | some cr =>
    simp only
    split_ifs
    · simp only [follows_bind, follows_deleteObj]
      exact ⟨hdelete _ hext, hpost _ _ (hext.step ⟨rfl, rfl, rfl, rfl⟩) (by simp)⟩
    · cases nodeId with
      | none => exact hpost _ _ hext (by simp)
      | some nid =>
        simp only [follows_bind]
        refine follows_strip hr (fun tr' o h => hpatch tr' o (hext.trans h)) fun tr' h => ?_
        exact hpost _ _ (hext.trans h) (by simp)

end Rules

end ZfsEvacuation
