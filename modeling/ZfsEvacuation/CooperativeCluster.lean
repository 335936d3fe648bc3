import ZfsEvacuation.EvacuationSystem

/-!
# A cooperative cluster

Every call succeeds, and between two reconciles the node agents take up new volumes and
finish the deletions that were asked of them. How the controller's helpers end there.
-/
namespace ZfsEvacuation
open ClientProgram Program

/-- Calls that succeed and take effect. -/
def cluster (c : Call) (w : World) : c.Resp × World := (w.answer {} c, w.effect c)

/-- What its agent does to an object of zfs-localpv. A deletion is finished unless the
evacuation guard is still in the way. -/
def tend : (k : Kind) → Obj k → Option (Obj k)
  | .zfsVolume, o =>
    if o.deleting then if guardFinalizer ∈ o.metadata.finalizers then some o else none
    else if zfsFinalizer ∈ o.metadata.finalizers then some o
    else some { o with metadata := { o.metadata with
      finalizers := o.metadata.finalizers ++ [zfsFinalizer] } }
  | .zfsSnapshot, o => if o.deleting then none else some o
  | .zfsBackup, o => if o.deleting then none else some o
  | .zfsRestore, o => if o.deleting then none else some o
  | _, o => some o

theorem key_tend {k : Kind} {o o' : Obj k} (h : tend k o = some o') : o'.key = o.key := by
  cases k <;> simp only [tend] at h <;> (try split_ifs at h) <;> (try cases h) <;> rfl

namespace World
variable {w : World}

/-- The agents between two reconciles. -/
def tended (w : World) : World :=
  { w with objects := fun k => (w.objects k).filterMap (tend k) fun _ _ h => key_tend h }

theorem get_tended (w : World) (k : Kind) (key : Key) :
    w.tended.get k key = (w.get k key).bind (tend k) :=
  KeyedStore.get_filterMap (w.objects k) (fun _ _ h => key_tend h) key

/-- One reconcile of the stored evacuation, and the agents after it. -/
def round (cfg : Config) (name : String) (w : World) : World :=
  match w.get .evacuation ⟨"", name⟩ with
  | none => w.tended
  | some evac => (exec cluster (reconcile cfg evac) w).2.tended

end World

/-! ## Helpers -/

/-- The two worlds differ at most in one object. -/
def SameBut (k : Kind) (key : Key) (w w' : World) : Prop :=
  ∀ k' key', (k' = k → key' ≠ key) → w'.get k' key' = w.get k' key'

namespace SameBut
variable {k : Kind} {key : Key} {w w' w'' : World}

theorem refl (k : Kind) (key : Key) (w : World) : SameBut k key w w := fun _ _ _ => rfl

theorem trans (h : SameBut k key w w') (h' : SameBut k key w' w'') : SameBut k key w w'' :=
  fun k' key' hne => (h' k' key' hne).trans (h k' key' hne)

theorem other {k' : Kind} (h : SameBut k key w w') (hk : k' ≠ k) (key' : Key) :
    w'.get k' key' = w.get k' key' := h _ _ fun heq => absurd heq hk

theorem patch (w : World) (p : Patch k) : SameBut k key w (w.effect (.patch k key p)) :=
  fun _ _ hne => World.get_patch_other w hne

theorem delete (w : World) : SameBut k key w (w.effect (.delete k key)) :=
  fun _ _ hne => World.get_delete_other w hne

end SameBut

section Helpers
variable {α : Type} {err : Error → World → Prop} {w : World} {k : Kind} {key : Key}

theorem ends_getOpt {ok : Option (Obj k) → World → Prop} :
    Ends cluster ok err (getOpt k key) w ↔ ok (w.get k key) w := Iff.rfl

theorem ends_patchObj {o : Obj k} (h : w.get k key = some o) {p : Patch k}
    {ok : Unit → World → Prop} :
    Ends cluster ok err (patchObj k key p) w ↔ ok () (w.effect (.patch k key p)) := by
  simp [patchObj, send, cluster, World.answer, Outcome.write, World.patch, h, answer]

theorem ends_deleteObj {o : Obj k} (h : w.get k key = some o) {ok : Unit → World → Prop} :
    Ends cluster ok err (deleteObj k key) w ↔ ok () (w.effect (.delete k key)) := by
  by_cases hdel : o.deleting <;>
    simp [deleteObj, send, cluster, World.answer, Outcome.write, World.delete, h, hdel, answer]

theorem ends_createIfAbsent {o : Obj k} {ok : Unit → World → Prop} :
    Ends cluster ok err (createIfAbsent o) w ↔ ok () (w.effect (.create k o)) := by
  cases h : w.get k o.key <;>
    simp [createIfAbsent, send, cluster, World.answer, Outcome.write, World.create, h]

theorem ends_writeStatus {name : String} {o : Obj .evacuation}
    (h : w.get .evacuation ⟨"", name⟩ = some o) {st : ZFSEvacuationStatus}
    {ok : Unit → World → Prop} :
    Ends cluster ok err (writeStatus name st) w ↔
      ok () (w.effect (.patch .evacuation ⟨"", name⟩ (.status st))) := by
  simp only [writeStatus, withContext, ends_mapError]
  exact ends_patchObj h

theorem ends_nodeById {nodeId : String} {ok : Option (Obj .node) → World → Prop}
    (h : ∀ o, ok o w) : Ends cluster ok err (nodeById nodeId) w := by
  simp only [nodeById, bind_eq, ends_bind, ends_getOpt]
  split
  · exact h _
  · exact h _

/-- Either nothing changes or the finalizers are set. -/
theorem ends_setFinalizers {f : List String → List String} {ok : Unit → World → Prop}
    (hsame : ok () w) (hset : ∀ o, w.get k key = some o →
      ok () (w.effect (.patch k key (.finalizers (f o.metadata.finalizers))))) :
    Ends cluster ok err (setFinalizers k key f) w := by
  simp only [setFinalizers, bind_eq, ends_bind, ends_getOpt]
  cases h : w.get k key with
  | none => exact hsame
  | some o =>
    by_cases hf : f o.metadata.finalizers ≠ o.metadata.finalizers
    · simp only []
      rw [if_pos hf]
      exact (ends_patchObj h).mpr (hset o h)
    · simp only []
      rw [if_neg hf]
      exact hsame

theorem ends_strip {nodeId : String} {ok : Unit → World → Prop} (hsame : ok () w)
    (hset : ∀ o, w.get k key = some o → ok () (w.effect
      (.patch k key (.finalizers (o.metadata.finalizers.filter (· ≠ zfsFinalizer)))))) :
    Ends cluster ok err (stripZfsFinalizerIfNodeGone k key nodeId) w := by
  simp only [stripZfsFinalizerIfNodeGone, bind_eq, ends_bind]
  refine ends_nodeById fun o => ?_
  cases o with
  | some _ => exact hsame
  | none => exact ends_setFinalizers hsame hset

/-- The parameters are updated at the first attempt, and nothing else is. -/
theorem ends_updateParams {mutate : EvacuationParamsSpec → EvacuationParamsSpec × Bool} {n : Nat}
    {ok : Unit → World → Prop}
    (h : ∀ w', (∀ k key, k ≠ .params → w'.get k key = w.get k key) → ok () w') :
    Ends cluster ok err (updateParams mutate (n + 1)) w := by
  simp only [updateParams, bind_eq, ends_bind, ends_getOpt]
  cases hget : w.get .params ⟨"", paramsName⟩ with
  | none =>
    simp only []
    split_ifs
    · exact h w fun _ _ _ => rfl
    · have hcreate : (w.create (⟨{ name := paramsName }, (mutate {}).1⟩ : Obj .params)).1 = .ok () := by
        rw [World.create, show w.get .params (Obj.key (k := .params)
          ⟨{ name := paramsName }, (mutate {}).1⟩) = none from hget]
      have hend := h (w.effect (.create .params ⟨{ name := paramsName }, (mutate {}).1⟩))
        fun k key hk => World.get_create_other w _ fun heq => absurd heq hk
      simp only [ends_bind, send, cluster, ends_call, World.answer, Outcome.write, hcreate]
      exact hend
  | some o =>
    have hreplace : (w.replace (⟨o.metadata, (mutate o.data).1⟩ : Obj .params)).1 = .ok () := by
      have hold : o.key = ⟨"", paramsName⟩ := World.get_key hget
      have hkey : (⟨o.metadata, (mutate o.data).1⟩ : Obj .params).key = ⟨"", paramsName⟩ := hold
      rw [World.replace, hkey, hget]
      simp
    simp only []
    split_ifs
    · exact h w fun _ _ _ => rfl
    · have hend := h (w.effect (.replace .params ⟨o.metadata, (mutate o.data).1⟩))
        fun k key hk => World.get_effect_other fun o' hw => by
          cases hw
          exact absurd rfl hk
      simp only [ends_bind, send, cluster, ends_call, World.answer, Outcome.write, hreplace]
      exact hend

end Helpers

/-! ## Deletions -/

def GuardedAt (k : Kind) (key : Key) (w : World) : Prop :=
  ∃ o ∈ w.get k key, guardFinalizer ∈ o.metadata.finalizers

instance {k : Kind} {key : Key} {w : World} : Decidable (GuardedAt k key w) :=
  inferInstanceAs (Decidable (∃ o ∈ w.get k key, guardFinalizer ∈ o.metadata.finalizers))

/-- The deletion of an object was asked for. -/
structure Leaving (k : Kind) (key : Key) (w w' : World) : Prop where
  there : w.get k key ≠ none
  same : SameBut k key w w'
  going : ∀ o, w'.get k key = some o → o.deleting = true
  guard : GuardedAt k key w' ↔ GuardedAt k key w

section Leaving
variable {err : Error → World → Prop} {w w' : World} {k : Kind} {key : Key} {o : Obj k}

theorem leaving_deleting (h : w.get k key = some o) (hdel : o.deleting = true) :
    Leaving k key w w := by
  refine ⟨by simp [h], .refl k key w, fun o' ho' => ?_, Iff.rfl⟩
  rw [h] at ho'
  rwa [← Option.some.inj ho']

theorem leaving_delete (h : w.get k key = some o) (hdel : o.deleting = false) :
    Leaving k key w (w.effect (.delete k key)) := by
  have hself := World.get_delete_self h hdel
  refine ⟨by simp [h], .delete w, fun o' ho' => ?_, ?_⟩
  · rw [hself] at ho'
    split_ifs at ho'
    rw [← Option.some.inj ho']
    rfl
  · unfold GuardedAt
    rw [hself, h]
    split_ifs with hgone
    · have hnil : o.metadata.finalizers = [] := by simpa [Obj.gone, Obj.deleting, Obj.marked] using hgone
      simp [hnil]
    · simp

theorem Leaving.strip (hl : Leaving k key w w') (h : w'.get k key = some o) :
    Leaving k key w (w'.effect
      (.patch k key (.finalizers (o.metadata.finalizers.filter (· ≠ zfsFinalizer))))) := by
  have hself := World.get_patch_self h (.finalizers (o.metadata.finalizers.filter (· ≠ zfsFinalizer)))
  have hdel := hl.going o h
  refine ⟨hl.there, hl.same.trans (.patch w' _), fun o' ho' => ?_, ?_⟩
  · rw [hself] at ho'
    split_ifs at ho'
    rw [← Option.some.inj ho']
    exact hdel
  · rw [← hl.guard]
    unfold GuardedAt
    rw [hself, h]
    have hguard : guardFinalizer ≠ zfsFinalizer := by decide
    split_ifs with hgone
    · have hnil : ∀ f ∈ o.metadata.finalizers, f = zfsFinalizer := by
        have hempty := (Bool.and_eq_true_iff.mp hgone).2
        simpa [Patch.apply] using hempty
      constructor
      · rintro ⟨o', ho', -⟩
        cases ho'
      · rintro ⟨o', ho', hmem⟩
        rw [← Option.some.inj ho'] at hmem
        exact absurd (hnil _ hmem) hguard
    · simp [Patch.apply, hguard]

theorem ends_cleanupCr {nodeId : Option String} {ok : Bool → World → Prop}
    (hgone : w.get k key = none → ok true w) (hleft : ∀ w', Leaving k key w w' → ok false w') :
    Ends cluster ok err (cleanupCr k key nodeId) w := by
  simp only [cleanupCr, bind_eq, ends_bind, ends_getOpt]
  cases h : w.get k key with
  | none => exact hgone h
  | some cr =>
    by_cases hdel : cr.deleting
    · have hsame := leaving_deleting h hdel
      simp only [hdel, Bool.not_true, Bool.false_eq_true, if_false]
      cases nodeId with
      | none => exact hleft w hsame
      | some nid =>
        simp only [ends_bind]
        exact ends_strip (hleft w hsame) fun o ho => hleft _ (hsame.strip ho)
    · have hmarked := leaving_delete h (by simpa using hdel)
      simp only [hdel, Bool.not_false, if_true, ends_bind]
      exact (ends_deleteObj h).mpr (hleft _ hmarked)

end Leaving

end ZfsEvacuation
