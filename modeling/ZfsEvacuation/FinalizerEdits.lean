import ZfsEvacuation.EvacuationSystem
import ZfsEvacuation.WholesaleEdit

/-!
# Finalizer edits beside another client

The controller edits finalizers by a read and a merge patch that replaces the list, with no
precondition on the version it has read. In between, another client of the API server may
add or remove finalizers of the same object. The API server takes no new finalizers on an
object that is being deleted.
-/
namespace ZfsEvacuation
open ClientProgram Program WholesaleEdit

/-! ## Edits of the controller -/

/-- An edit of a finalizer list that leaves all but some finalizers as they are. -/
structure OwnEdit where
  own : String → Bool
  f : List String → List String
  others : ∀ cur a, own a = false → (a ∈ f cur ↔ a ∈ cur)

/-- Taking some finalizers off. -/
def OwnEdit.strip (own : String → Bool) : OwnEdit where
  own := own
  f := fun cur => cur.filter fun a => !own a
  others := by
    intro cur a ha
    simp [ha]

/-- Putting the guard on the source ZFSVolume. -/
def OwnEdit.guard : OwnEdit where
  own := (· == guardFinalizer)
  f := addGuard
  others := by
    intro cur a ha
    have hne : a ≠ guardFinalizer := by simpa using ha
    unfold addGuard
    split_ifs <;> simp [hne]

/-- The other edits that the controller makes, each as a case of `OwnEdit.strip`. -/
theorem OwnEdit.strip_unguard : (OwnEdit.strip (· == guardFinalizer)).f = unguard := by
  funext cur
  apply List.filter_congr
  intro a _
  by_cases h : a = guardFinalizer <;> simp [h]

theorem OwnEdit.strip_zfs :
    (OwnEdit.strip (· == zfsFinalizer)).f = fun cur => cur.filter (· ≠ zfsFinalizer) := by
  funext cur
  apply List.filter_congr
  intro a _
  by_cases h : a = zfsFinalizer <;> simp [h]

theorem OwnEdit.strip_pv : (OwnEdit.strip fun a => a == pvProtection || a == provisionerFinalizer).f =
    stripPvFinalizers := by
  funext cur
  apply List.filter_congr
  intro a _
  by_cases h : a = pvProtection <;> by_cases h' : a = provisionerFinalizer <;> simp [h, h']

inductive FinalizerOp : Kind → Type where
  /-- `setFinalizers` with an edit. -/
  | set {k : Kind} (e : OwnEdit) : FinalizerOp k
  /-- `ensureEvacFinalizer`, on a cached object. -/
  | ensureEvac : FinalizerOp .evacuation
  | removeEvac : FinalizerOp .evacuation

namespace FinalizerOp
variable {k : Kind}

def key (o : Obj k) : FinalizerOp k → Key
  | .set _ => o.key
  | .ensureEvac | .removeEvac => ⟨"", o.name⟩

/-- The program, where `o` is the object as it is at first, and in the cache. -/
def prog : {k : Kind} → Obj k → FinalizerOp k → M Unit
  | k, o, .set e => setFinalizers k o.key e.f
  | _, o, .ensureEvac => ensureEvacFinalizer o
  | _, o, .removeEvac => removeEvacFinalizer o.name

def own : FinalizerOp k → String → Bool
  | .set e => e.own
  | .ensureEvac | .removeEvac => (· == evacuationFinalizer)

/-- The list that is written, for a list that has been read. -/
def change : FinalizerOp k → List String → Option (List String)
  | .set e, cur => if e.f cur ≠ cur then some (e.f cur) else none
  | .ensureEvac, cur =>
    if cur.any (· == evacuationFinalizer) then none else some (cur ++ [evacuationFinalizer])
  | .removeEvac, cur => some (cur.filter (· ≠ evacuationFinalizer))

theorem ownOnly (op : FinalizerOp k) : OwnOnly op.own op.change := by
  intro rd new h a ha
  cases op with
  | set e =>
    simp only [change] at h
    split_ifs at h
    obtain rfl := Option.some.inj h
    exact e.others rd a ha
  | ensureEvac =>
    have hne : a ≠ evacuationFinalizer := by simpa [own] using ha
    simp only [change] at h
    split_ifs at h
    obtain rfl := Option.some.inj h
    simp [hne]
  | removeEvac =>
    have hne : a ≠ evacuationFinalizer := by simpa [own] using ha
    obtain rfl := Option.some.inj h
    simp [hne]

end FinalizerOp

/-! ## The two clients at work -/

/-- The API server, with its rule for objects that are being deleted. -/
def serve (c : Call) (w : World) : c.Resp × World :=
  match c with
  | .patch k key (.finalizers fs) =>
    if (w.get k key).any fun o => o.deleting && fs.any (· ∉ o.metadata.finalizers) then
      ((.error (.failed "no new finalizers can be added if the object is being deleted") :
        Except ApiError Unit), w)
    else w.patch k key (.finalizers fs)
  | c => (w.answer {} c, w.effect c)

/-- The other client's edit of one finalizer. -/
def editFinalizer (k : Kind) (key : Key) (e : Edit String) (w : World) : World :=
  match w.get k key with
  | none => w
  | some o => w.env (.update k { o with metadata := { o.metadata with
      finalizers := e.apply o.deleting o.metadata.finalizers } })

/-- The controller's program and the world it runs in. -/
structure Bench where
  prog : M Unit
  world : World

namespace Bench

def turn (k : Kind) (key : Key) (b : Bench) : Turn String → Bench
  | .mine =>
    match b.prog with
    | .call c next => ⟨next (serve c b.world).1, (serve c b.world).2⟩
    | _ => b
  | .other e => { b with world := editFinalizer k key e b.world }

def run (k : Kind) (key : Key) (b : Bench) (turns : List (Turn String)) : Bench :=
  turns.foldl (turn k key) b

/-- The finalizers of an object; none if there is no such object. -/
def finalizers (k : Kind) (key : Key) (b : Bench) : List String :=
  ((b.world.get k key).map (·.metadata.finalizers)).getD []

end Bench

/-! ## What each turn does to the list -/

/-- The object has these finalizers, and is being deleted or not; one that is being deleted
may be gone. -/
def Carries (k : Kind) (key : Key) (w : World) (deleting : Bool) (fs : List String) : Prop :=
  match w.get k key with
  | some o => o.deleting = deleting ∧ o.metadata.finalizers = fs
  | none => deleting = true ∧ fs = []

variable {k : Kind} {key : Key} {w : World} {deleting : Bool} {fs new : List String}

theorem Carries.of_get {o : Obj k} (h : w.get k key = some o) :
    Carries k key w o.deleting o.metadata.finalizers := by
  simp [Carries, h]

/-- An object stored with new finalizers, or gone with its last one. -/
theorem carries_update {o : Obj k} (hkey : o.key = key) :
    Carries k key (w.update o) o.deleting o.metadata.finalizers := by
  subst hkey
  rw [Carries, World.get_update_self]
  split_ifs with hgone
  · obtain ⟨hdel, hempty⟩ := Bool.and_eq_true_iff.mp hgone
    exact ⟨hdel, List.isEmpty_iff.mp hempty⟩
  · exact ⟨rfl, rfl⟩

theorem apply_nil (e : Edit String) : e.apply true [] = [] := by
  cases e <;> simp [Edit.apply]

theorem editFinalizer_absent (e : Edit String) (h : w.get k key = none) :
    editFinalizer k key e w = w := by
  rw [editFinalizer, h]

theorem carries_other (e : Edit String) (h : Carries k key w deleting fs) :
    Carries k key (editFinalizer k key e w) deleting (e.apply deleting fs) := by
  cases ho : w.get k key with
  | none =>
    rw [Carries, ho] at h
    obtain ⟨rfl, rfl⟩ := h
    rw [editFinalizer_absent e ho, Carries, ho, apply_nil]
    exact ⟨rfl, rfl⟩
  | some o =>
    rw [Carries, ho] at h
    obtain ⟨rfl, rfl⟩ := h
    have hkey : o.key = key := World.get_key ho
    have hget : w.get k (Obj.key { o with metadata := { o.metadata with
        finalizers := e.apply o.deleting o.metadata.finalizers } }) = some o := by
      rw [← ho, ← hkey]
      rfl
    simp only [editFinalizer, ho, World.env, hget]
    exact carries_update hkey

theorem serve_patch_absent (h : w.get k key = none) :
    (serve (.patch k key (.finalizers new)) w).2 = w := by
  simp [serve, h, World.patch]

theorem serve_patch {o : Obj k} (ho : w.get k key = some o) :
    (serve (.patch k key (.finalizers new)) w).2 =
      if o.deleting = true ∧ ∃ a ∈ new, a ∉ o.metadata.finalizers then w
      else w.update ((Patch.finalizers new).apply o) := by
  have hany : (w.get k key).any (fun o => o.deleting && new.any (· ∉ o.metadata.finalizers)) = true ↔
      o.deleting = true ∧ ∃ a ∈ new, a ∉ o.metadata.finalizers := by simp [ho]
  have hpatch : (w.patch k key (.finalizers new)).2 = w.update ((Patch.finalizers new).apply o) := by
    rw [World.patch, ho]
  unfold serve
  by_cases hrefused : o.deleting = true ∧ ∃ a ∈ new, a ∉ o.metadata.finalizers
  · rw [if_pos hrefused]
    exact congrArg Prod.snd (if_pos (hany.mpr hrefused))
  · rw [if_neg hrefused, ← hpatch]
    exact congrArg Prod.snd (if_neg fun h => hrefused (hany.mp h))

theorem carries_patch (h : Carries k key w deleting fs) :
    Carries k key (serve (.patch k key (.finalizers new)) w).2 deleting
      (overwrite deleting new fs) := by
  cases ho : w.get k key with
  | none =>
    rw [Carries, ho] at h
    obtain ⟨rfl, rfl⟩ := h
    rw [serve_patch_absent ho, Carries, ho]
    refine ⟨rfl, ?_⟩
    cases new with
    | nil => simp [overwrite]
    | cons a new => simp [overwrite]
  | some o =>
    rw [Carries, ho] at h
    obtain ⟨rfl, rfl⟩ := h
    rw [serve_patch ho, overwrite]
    split_ifs
    · exact .of_get ho
    · exact carries_update (o := (Patch.finalizers new).apply o)
        ((Patch.key_apply _ _).trans (World.get_key ho))

/-! ## The programs as writers of a list -/

/-- A program that reads an object and writes its finalizers back as `change` says. -/
def ReadsThenWrites (change : List String → Option (List String)) (k : Kind) (key : Key)
    (p : M Unit) : Prop :=
  ∃ next, p = .call (.get k key) next ∧ (next (.ok none)).finished = true ∧
    ∀ o : Obj k, next (.ok (some o)) =
      match change o.metadata.finalizers with
      | none => .ret ()
      | some new => patchObj k key (.finalizers new)

theorem setFinalizers_readsThenWrites (e : OwnEdit) :
    ReadsThenWrites (FinalizerOp.set (k := k) e).change k key (setFinalizers k key e.f) := by
  refine ⟨_, rfl, rfl, fun o => ?_⟩
  show (if e.f o.metadata.finalizers ≠ o.metadata.finalizers then
    patchObj k key (.finalizers (e.f o.metadata.finalizers)) else .ret ()) = _
  simp only [FinalizerOp.change]
  split_ifs <;> rfl

theorem removeEvac_readsThenWrites (name : String) :
    ReadsThenWrites FinalizerOp.removeEvac.change .evacuation ⟨"", name⟩
      (removeEvacFinalizer name) :=
  ⟨_, rfl, rfl, fun _ => rfl⟩

/-- The program is where the writer of the list is. Once the object is gone, the program may
be through earlier. -/
def InStep (change : List String → Option (List String)) (k : Kind) (key : Key) (b : Bench) :
    Stage String → Prop
  | .reading => ReadsThenWrites change k key b.prog
  | .writing new => b.prog = patchObj k key (.finalizers new) ∨
      b.prog.finished = true ∧ b.world.get k key = none
  | .done => b.prog.finished = true

structure Mirrors (change : List String → Option (List String)) (k : Kind) (key : Key)
    (deleting : Bool) (b : Bench) (c : Cell String) : Prop where
  carries : Carries k key b.world deleting c.entries
  inStep : InStep change k key b c.stage

variable {b : Bench} {c : Cell String} {change : List String → Option (List String)}

theorem turn_finished (h : b.prog.finished = true) : b.turn k key .mine = b := by
  cases hp : b.prog with
  | call c next =>
    rw [hp] at h
    cases h
  | ret a => simp only [Bench.turn, hp]
  | fail e => simp only [Bench.turn, hp]

theorem answer_finished (r : Except ApiError Unit) : (answer r).finished = true := by
  cases r <;> rfl

theorem Mirrors.other (h : Mirrors change k key deleting b c) (e : Edit String) :
    Mirrors change k key deleting (b.turn k key (.other e)) (turn change deleting c (.other e)) := by
  refine ⟨carries_other e h.carries, ?_⟩
  have hstep := h.inStep
  show InStep change k key _ c.stage
  cases hs : c.stage with
  | reading =>
    rw [hs] at hstep
    exact hstep
  | done =>
    rw [hs] at hstep
    exact hstep
  | writing new =>
    rw [hs] at hstep
    rcases hstep with hprog | ⟨hfin, hgone⟩
    · exact .inl hprog
    · refine .inr ⟨hfin, ?_⟩
      show (editFinalizer k key e b.world).get k key = none
      rw [editFinalizer_absent e hgone, hgone]

theorem Mirrors.mine (h : Mirrors change k key deleting b c) :
    Mirrors change k key deleting (b.turn k key .mine) (turn change deleting c .mine) := by
  obtain ⟨stage, entries⟩ := c
  have hcarries : Carries k key b.world deleting entries := h.carries
  cases stage with
  | reading =>
    have hreads : ReadsThenWrites change k key b.prog := h.inStep
    obtain ⟨next, hprog, hnone, hsome⟩ := hreads
    have hturn : b.turn k key .mine = ⟨next (.ok (b.world.get k key)), b.world⟩ := by
      simp only [Bench.turn, hprog]
      rfl
    rw [hturn]
    refine ⟨hcarries, ?_⟩
    show InStep change k key _ (decideOn change entries)
    cases ho : b.world.get k key with
    | none =>
      unfold decideOn
      split
      · exact hnone
      · exact .inr ⟨hnone, ho⟩
    | some o =>
      rw [Carries, ho] at hcarries
      obtain ⟨-, rfl⟩ := hcarries
      rw [hsome o]
      cases hc : change o.metadata.finalizers with
      | none =>
        rw [decideOn, hc]
        rfl
      | some new =>
        rw [decideOn, hc]
        exact .inl rfl
  | writing new =>
    rcases h.inStep with hprog | ⟨hfin, hgone⟩
    · have hturn : b.turn k key .mine =
          ⟨answer (serve (.patch k key (.finalizers new)) b.world).1,
            (serve (.patch k key (.finalizers new)) b.world).2⟩ := by
        simp only [Bench.turn, hprog]
        rfl
      rw [hturn]
      exact ⟨carries_patch hcarries, answer_finished _⟩
    · rw [turn_finished hfin]
      have hpatch : Carries k key (serve (.patch k key (.finalizers new)) b.world).2 deleting
          (overwrite deleting new entries) := carries_patch hcarries
      rw [serve_patch_absent hgone] at hpatch
      exact ⟨hpatch, hfin⟩
  | done =>
    rw [turn_finished h.inStep]
    exact h

theorem Mirrors.run (h : Mirrors change k key deleting b c) (turns : List (Turn String)) :
    Mirrors change k key deleting (b.run k key turns) (run change deleting c turns) := by
  induction turns generalizing b c with
  | nil => exact h
  | cons t turns ih =>
    cases t with
    | mine => exact ih h.mine
    | other e => exact ih (h.other e)

theorem Mirrors.finalizers_eq (h : Mirrors change k key deleting b c) :
    b.finalizers k key = c.entries := by
  have hcarries := h.carries
  unfold Bench.finalizers
  cases ho : b.world.get k key with
  | none =>
    rw [Carries, ho] at hcarries
    exact hcarries.2.symm
  | some o =>
    rw [Carries, ho] at hcarries
    exact hcarries.2

/-! ## When the other client's edits survive -/

namespace FinalizerOp

/-- Between the version the edit works from and its write, the other client adds or removes
a finalizer, and never touches that finalizer again. -/
def Clobbers (o : Obj k) (turns : List (Turn String)) : FinalizerOp k → Prop
  | .ensureEvac => (ensureEvac.change o.metadata.finalizers).isSome ∧
      Lost ensureEvac.own o.deleting o.metadata.finalizers turns
  | op => LostLater op.change op.own o.deleting o.metadata.finalizers turns

/-- The stage of the writer that a program stands for. -/
def stage (o : Obj k) : FinalizerOp k → Stage String
  | .ensureEvac => decideOn ensureEvac.change o.metadata.finalizers
  | _ => .reading

theorem mirrors (op : FinalizerOp k) {o : Obj k} (ho : w.get k (op.key o) = some o) :
    Mirrors op.change k (op.key o) o.deleting ⟨op.prog o, w⟩
      ⟨op.stage o, o.metadata.finalizers⟩ := by
  refine ⟨.of_get ho, ?_⟩
  cases op with
  | set e => exact setFinalizers_readsThenWrites e
  | removeEvac => exact removeEvac_readsThenWrites o.name
  | ensureEvac =>
    show InStep _ _ _ _ (decideOn ensureEvac.change o.metadata.finalizers)
    have hprog : (ensureEvac.prog o) = ensureEvacFinalizer o := rfl
    by_cases hany : (o.metadata.finalizers.any (· == evacuationFinalizer)) = true
    · have hret : ensureEvacFinalizer o = .ret () := by rw [ensureEvacFinalizer, if_pos hany]; rfl
      simp only [decideOn, change, if_pos hany, InStep, hprog, hret]
      rfl
    · simp only [decideOn, change, if_neg hany, InStep, hprog, ensureEvacFinalizer]
      exact .inl rfl

end FinalizerOp

/-- Whatever the order of the turns, the object ends up with the other client's finalizers
exactly if no edit of that client falls between read and write and stays the last one. -/
theorem finalizers_kept_iff (op : FinalizerOp k) {o : Obj k} (ho : w.get k (op.key o) = some o)
    (turns : List (Turn String)) :
    Kept op.own o.deleting turns o.metadata.finalizers
        ((Bench.run k (op.key o) ⟨op.prog o, w⟩ turns).finalizers k (op.key o)) ↔
      ¬ op.Clobbers o turns := by
  rw [((op.mirrors ho).run turns).finalizers_eq]
  cases op with
  | set e => exact reading_kept_iff (FinalizerOp.ownOnly _)
  | removeEvac => exact reading_kept_iff (FinalizerOp.ownOnly _)
  | ensureEvac => exact decided_kept_iff (FinalizerOp.ownOnly _)

/-! ## A small run -/

namespace Sample

/-- A ZFSVolume that its agent has not put its finalizer on yet. -/
def freshVolume : Obj .zfsVolume :=
  ⟨{ ns := "openebs", name := "vol1" },
    ({ spec := { ownerNodeId := "n1", poolName := "tank", capacity := some "1073741824" } } :
      ZFSVolume)⟩

def freshWorld : World := (({} : World).create freshVolume).2

/-- The agent puts its finalizer on between the controller's read and its patch. -/
def agentInBetween : List (Turn String) := [.mine, .other (.add zfsFinalizer), .mine]

/-- The volume as it is stored. -/
def storedVolume : Obj .zfsVolume := (freshVolume.born 1).stamped 1

end Sample

theorem not_finalizers_kept :
    Sample.freshWorld.get .zfsVolume Sample.storedVolume.key = some Sample.storedVolume ∧
      ¬ Kept (FinalizerOp.set (k := .zfsVolume) OwnEdit.guard).own Sample.storedVolume.deleting
        Sample.agentInBetween Sample.storedVolume.metadata.finalizers
        ((Bench.run .zfsVolume Sample.storedVolume.key
          ⟨(FinalizerOp.set OwnEdit.guard).prog Sample.storedVolume, Sample.freshWorld⟩
          Sample.agentInBetween).finalizers .zfsVolume Sample.storedVolume.key) := by
  refine ⟨rfl, ?_⟩
  intro hkept
  have hfinal : (Bench.run .zfsVolume Sample.storedVolume.key
      ⟨(FinalizerOp.set OwnEdit.guard).prog Sample.storedVolume, Sample.freshWorld⟩
      Sample.agentInBetween).finalizers .zfsVolume Sample.storedVolume.key =
        [guardFinalizer] := by decide +kernel
  have hleft : zfsFinalizer ∈ left Sample.storedVolume.deleting Sample.agentInBetween
      Sample.storedVolume.metadata.finalizers := by decide
  have hlost := (hkept zfsFinalizer (by decide)).mpr hleft
  rw [hfinal] at hlost
  revert hlost
  decide

/-- With the agent's edit before the read, both finalizers are there at the end. -/
theorem finalizers_kept_before :
    Kept (FinalizerOp.set (k := .zfsVolume) OwnEdit.guard).own false
      [.other (.add zfsFinalizer), .mine, .mine] []
      ((Bench.run .zfsVolume Sample.storedVolume.key
        ⟨(FinalizerOp.set OwnEdit.guard).prog Sample.storedVolume, Sample.freshWorld⟩
        [.other (.add zfsFinalizer), .mine, .mine]).finalizers .zfsVolume
          Sample.storedVolume.key) := by
  refine (finalizers_kept_iff (.set OwnEdit.guard) (o := Sample.storedVolume) rfl
    [.other (.add zfsFinalizer), .mine, .mine]).mpr ?_
  rintro ⟨es, rest, heq, -, -, es', rest', hrest, a, -, -, hchanged⟩
  have hfirst : [Edit.add zfsFinalizer].map Turn.other ++ .mine :: [.mine] =
      es.map Turn.other ++ .mine :: rest := heq
  obtain ⟨rfl, rfl⟩ := others_inj hfirst
  have hsecond : ([] : List (Edit String)).map Turn.other ++ .mine :: [] =
      es'.map Turn.other ++ .mine :: rest' := hrest
  obtain ⟨rfl, -⟩ := others_inj hsecond
  exact hchanged Iff.rfl

end ZfsEvacuation
