import ZfsEvacuation.ApiServer

/-!
# What the API server keeps

How each write changes the stored objects, and what every write leaves as it is.
-/
namespace ZfsEvacuation

namespace Obj
variable {k : Kind}

@[simp] theorem key_stamped (o : Obj k) (r : Nat) : (o.stamped r).key = o.key := rfl

@[simp] theorem key_born (o : Obj k) (u : Uid) : (o.born u).key = o.key := rfl

@[simp] theorem key_marked (o : Obj k) (t : Nat) : (o.marked t).key = o.key := rfl

@[simp] theorem data_stamped (o : Obj k) (r : Nat) : (o.stamped r).data = o.data := rfl

@[simp] theorem data_born (o : Obj k) (u : Uid) : (o.born u).data = o.data := rfl

@[simp] theorem data_marked (o : Obj k) (t : Nat) : (o.marked t).data = o.data := rfl

@[simp] theorem uid_stamped (o : Obj k) (r : Nat) : (o.stamped r).metadata.uid = o.metadata.uid := rfl

@[simp] theorem uid_born (o : Obj k) (u : Uid) : (o.born u).metadata.uid = u := rfl

@[simp] theorem uid_marked (o : Obj k) (t : Nat) : (o.marked t).metadata.uid = o.metadata.uid := rfl

@[simp] theorem finalizers_stamped (o : Obj k) (r : Nat) :
    (o.stamped r).metadata.finalizers = o.metadata.finalizers := rfl

@[simp] theorem finalizers_born (o : Obj k) (u : Uid) :
    (o.born u).metadata.finalizers = o.metadata.finalizers := rfl

@[simp] theorem finalizers_marked (o : Obj k) (t : Nat) :
    (o.marked t).metadata.finalizers = o.metadata.finalizers := rfl

@[simp] theorem version_stamped (o : Obj k) (r : Nat) :
    (o.stamped r).metadata.resourceVersion = r := rfl

end Obj

@[simp] theorem Patch.key_apply {k : Kind} (p : Patch k) (o : Obj k) : (p.apply o).key = o.key := by
  cases p <;> rfl

@[simp] theorem Patch.uid_apply {k : Kind} (p : Patch k) (o : Obj k) :
    (p.apply o).metadata.uid = o.metadata.uid := by
  cases p <;> rfl

@[simp] theorem Patch.deleting_apply {k : Kind} (p : Patch k) (o : Obj k) :
    (p.apply o).deleting = o.deleting := by
  cases p <;> rfl

/-- The status without its group, of which a merge patch keeps a part. -/
def ZFSEvacuationStatus.core (st : ZFSEvacuationStatus) : ZFSEvacuationStatus :=
  { st with colocation := none }

@[simp] theorem core_mergeStatus (old : Option ZFSEvacuationStatus) (w : ZFSEvacuationStatus) :
    (mergeStatus old w).core = w.core := by
  unfold mergeStatus
  split <;> rfl

@[simp] theorem phase_mergeStatus (old : Option ZFSEvacuationStatus) (w : ZFSEvacuationStatus) :
    (mergeStatus old w).phase = w.phase := by
  unfold mergeStatus
  split <;> rfl

@[simp] theorem quiescedAt_mergeStatus (old : Option ZFSEvacuationStatus)
    (w : ZFSEvacuationStatus) : (mergeStatus old w).quiescedAt = w.quiescedAt := by
  unfold mergeStatus
  split <;> rfl

namespace World
variable {w : World} {k k' : Kind} {key key' : Key}

theorem get_key {o : Obj k} (h : w.get k key = some o) : o.key = key := KeyedStore.get_key h

theorem mem_list {o : Obj k} : o ∈ w.list k {} ↔ w.get k o.key = some o := by
  rw [list, List.mem_filter, get, KeyedStore.get_eq_some_iff]
  simp [Selector.selects]

theorem get_store_self (w : World) (o : Obj k) :
    (w.store o).get k o.key = some (o.stamped w.revision) := by
  simp [get, store, KeyedStore.get_put]

theorem get_store_other (w : World) (o : Obj k) (h : k' = k → key ≠ o.key) :
    (w.store o).get k' key = w.get k' key := by
  by_cases hk : k' = k
  · subst hk
    simp [get, store, KeyedStore.get_put, Ne.symm (h rfl)]
  · simp [get, store, Function.update_of_ne hk]

theorem get_remove_self (w : World) (k : Kind) (key : Key) : (w.remove k key).get k key = none := by
  simp [get, remove, KeyedStore.get_erase]

theorem get_remove_other (w : World) (h : k' = k → key' ≠ key) :
    (w.remove k key).get k' key' = w.get k' key' := by
  by_cases hk : k' = k
  · subst hk
    simp [get, remove, KeyedStore.get_erase, Ne.symm (h rfl)]
  · simp [get, remove, Function.update_of_ne hk]

theorem get_update_self (w : World) (o : Obj k) :
    (w.update o).get k o.key = if o.gone then none else some (o.stamped w.revision) := by
  unfold update
  split_ifs
  · exact get_remove_self w k o.key
  · exact get_store_self w o

theorem get_update_other (w : World) (o : Obj k) (h : k' = k → key ≠ o.key) :
    (w.update o).get k' key = w.get k' key := by
  unfold update
  split_ifs
  · exact get_remove_other w h
  · exact get_store_other w o h

theorem get_update_some {o : Obj k'} {x : Obj k} (h : (w.update o).get k key = some x) :
    w.get k key = some x ∨
      ∃ hk : k' = k, (hk ▸ o).key = key ∧ x = (hk ▸ o).stamped w.revision ∧ (hk ▸ o).gone = false := by
  by_cases hsame : ∃ hk : k' = k, (hk ▸ o).key = key
  · obtain ⟨rfl, rfl⟩ := hsame
    rw [get_update_self] at h
    split_ifs at h with hgone
    exact .inr ⟨rfl, rfl, (Option.some.inj h).symm, by simpa using hgone⟩
  · rw [get_update_other] at h
    · exact .inl h
    · rintro rfl rfl
      exact hsame ⟨rfl, rfl⟩

theorem get_update_none {o : Obj k'} {x : Obj k} (hx : w.get k key = some x)
    (h : (w.update o).get k key = none) :
    ∃ hk : k' = k, (hk ▸ o).key = key ∧ (hk ▸ o).gone = true := by
  by_cases hsame : ∃ hk : k' = k, (hk ▸ o).key = key
  · obtain ⟨rfl, rfl⟩ := hsame
    rw [get_update_self] at h
    split_ifs at h with hgone
    exact ⟨rfl, rfl, hgone⟩
  · rw [get_update_other, hx] at h
    · cases h
    · rintro rfl rfl
      exact hsame ⟨rfl, rfl⟩

theorem revision_le_update (w : World) (o : Obj k) : w.revision ≤ (w.update o).revision := by
  unfold update
  split_ifs
  · exact Nat.le_refl _
  · exact Nat.le_succ _

theorem versions_update {v : Obj .evacuation} {o : Obj k} (h : v ∈ (w.update o).versions) :
    v ∈ w.versions ∨ asEvacuation (o.stamped w.revision) = some v := by
  unfold update at h
  split_ifs at h
  · exact .inl h
  · simpa [store] using h

/-! ## One write -/

/-- The effect of a call on the world, if it takes effect. -/
def effect (w : World) : Call → World
  | .create _ o => (w.create o).2
  | .replace _ o => (w.replace o).2
  | .delete k key => (w.delete k key).2
  | .patch k key p => (w.patch k key p).2
  | .transferInsert t => { w with transfers := w.transfers.put t }
  | .transferRemove evac => { w with transfers := w.transfers.erase evac }
  | .lockSelection => { w with selectionLocked := true }
  | .unlockSelection => { w with selectionLocked := false }
  | _ => w

/-- The content an object is given by a call. -/
inductive Written (w : World) : Call → (k : Kind) → Obj k → Prop
  | create {k : Kind} (o : Obj k) (h : w.get k o.key = none) :
      Written w (.create k o) k (o.born w.revision)
  | replace {k : Kind} (o cur : Obj k) (h : w.get k o.key = some cur)
      (hversion : cur.metadata.resourceVersion = o.metadata.resourceVersion) :
      Written w (.replace k o) k o
  | delete {k : Kind} (key : Key) (o : Obj k) (h : w.get k key = some o)
      (hdel : o.deleting = false) : Written w (.delete k key) k (o.marked (w.now / 10 ^ 9))
  | patch {k : Kind} (key : Key) (p : Patch k) (o : Obj k) (h : w.get k key = some o) :
      Written w (.patch k key p) k (p.apply o)

/-- A call writes one object or none. -/
theorem effect_cases (w : World) (c : Call) :
    (w.effect c).objects = w.objects ∧ (w.effect c).revision = w.revision ∧
        (w.effect c).versions = w.versions ∨
      ∃ k, ∃ o : Obj k, Written w c k o ∧ w.effect c = w.update o := by
  cases c with
  | create k o =>
    simp only [effect, create]
    split
    · exact .inl ⟨rfl, rfl, rfl⟩
    · rename_i h
      refine .inr ⟨k, _, .create o h, ?_⟩
      simp [update, Obj.gone, Obj.deleting, Obj.born]
  | replace k o =>
    simp only [effect, replace]
    split
    · exact .inl ⟨rfl, rfl, rfl⟩
    · rename_i cur h
      split_ifs with hversion
      · exact .inr ⟨k, o, .replace o cur h hversion, rfl⟩
      · exact .inl ⟨rfl, rfl, rfl⟩
  | delete k key =>
    simp only [effect, delete]
    split
    · exact .inl ⟨rfl, rfl, rfl⟩
    · rename_i o h
      split_ifs with hdel
      · exact .inl ⟨rfl, rfl, rfl⟩
      · exact .inr ⟨k, _, .delete key o h (by simpa using hdel), rfl⟩
  | patch k key p =>
    simp only [effect, patch]
    split
    · exact .inl ⟨rfl, rfl, rfl⟩
    · rename_i o h
      exact .inr ⟨k, _, .patch key p o h, rfl⟩
  | _ => exact .inl ⟨rfl, rfl, rfl⟩

/-- A call to the API server changes nothing but the object it writes. -/
theorem effect_remote (w : World) {c : Call} (h : c.remote = true) :
    w.effect c = w ∨ ∃ k, ∃ o : Obj k, w.effect c = w.update o := by
  cases c with
  | get k key => exact .inl rfl
  | list k sel => exact .inl rfl
  | create k o =>
    simp only [effect, create]
    split
    · exact .inl rfl
    · refine .inr ⟨k, o.born w.revision, ?_⟩
      simp [update, Obj.gone, Obj.deleting, Obj.born]
  | replace k o =>
    simp only [effect, replace]
    split
    · exact .inl rfl
    · split_ifs
      · exact .inr ⟨k, o, rfl⟩
      · exact .inl rfl
  | delete k key =>
    simp only [effect, delete]
    split
    · exact .inl rfl
    · rename_i o hget
      split_ifs
      · exact .inl rfl
      · exact .inr ⟨k, o.marked (w.now / 10 ^ 9), rfl⟩
  | patch k key p =>
    simp only [effect, patch]
    split
    · exact .inl rfl
    · rename_i o hget
      exact .inr ⟨k, p.apply o, rfl⟩
  | _ => cases h

theorem transfers_update {k : Kind} (w : World) (o : Obj k) :
    (w.update o).transfers = w.transfers := by
  unfold update
  split_ifs <;> rfl

theorem transfers_effect (w : World) (c : Call) :
    (w.effect c).transfers = match c with
      | .transferInsert t => w.transfers.put t
      | .transferRemove evac => w.transfers.erase evac
      | _ => w.transfers := by
  by_cases hremote : c.remote = true
  · have hsame : (w.effect c).transfers = w.transfers := by
      rcases effect_remote w hremote with heq | ⟨k, o, heq⟩
      · rw [heq]
      · rw [heq, transfers_update]
    cases c <;> first | exact hsame | cases hremote
  · cases c <;> first | rfl | exact absurd rfl hremote

theorem effect_of_written {c : Call} {o : Obj k} (h : Written w c k o) :
    w.effect c = w.update o := by
  cases h with
  | create o hnone => simp [effect, create, hnone, update, Obj.gone, Obj.deleting, Obj.born]
  | replace o cur hcur hversion => simp [effect, replace, hcur, hversion]
  | delete key o hget hdel => simp [effect, delete, hget, hdel]
  | patch key p o hget => simp [effect, patch, hget]

/-- What is stored after a call was stored before, or is what the call wrote. -/
theorem get_effect {c : Call} {x : Obj k} (h : (w.effect c).get k key = some x) :
    w.get k key = some x ∨
      ∃ o : Obj k, Written w c k o ∧ o.key = key ∧ x = o.stamped w.revision ∧ o.gone = false := by
  rcases effect_cases w c with ⟨hobj, -, -⟩ | ⟨k', o, hw, heq⟩
  · refine .inl ?_
    rw [get, hobj] at h
    exact h
  · rw [heq] at h
    refine (get_update_some h).imp id fun ⟨hk, hkey, hx, hgone⟩ => ?_
    subst hk
    exact ⟨o, hw, hkey, hx, hgone⟩

/-- An object only disappears through a write that leaves it marked and without
finalizers. -/
theorem get_effect_none {c : Call} {x : Obj k} (hx : w.get k key = some x)
    (h : (w.effect c).get k key = none) :
    ∃ o : Obj k, Written w c k o ∧ o.key = key ∧ o.gone = true := by
  rcases effect_cases w c with ⟨hobj, -, -⟩ | ⟨k', o, hw, heq⟩
  · rw [get, hobj] at h
    exact absurd (hx.symm.trans h) (by simp)
  · rw [heq] at h
    obtain ⟨hk, hkey, hgone⟩ := get_update_none hx h
    subst hk
    exact ⟨o, hw, hkey, hgone⟩

theorem get_effect_other {c : Call} (h : ∀ o : Obj k, Written w c k o → o.key ≠ key) :
    (w.effect c).get k key = w.get k key := by
  rcases effect_cases w c with ⟨hobj, -, -⟩ | ⟨k', o, hw, heq⟩
  · rw [get, hobj]
    rfl
  · rw [heq]
    refine get_update_other w o fun hk => ?_
    subst hk
    exact (h o hw).symm

theorem get_patch_other (w : World) {p : Patch k} (h : k' = k → key' ≠ key) :
    (w.effect (.patch k key p)).get k' key' = w.get k' key' := by
  refine get_effect_other fun o hw heq => ?_
  cases hw with
  | patch key p o ho => exact h rfl (heq.symm.trans ((Patch.key_apply p o).trans (get_key ho)))

theorem get_delete_other (w : World) (h : k' = k → key' ≠ key) :
    (w.effect (.delete k key)).get k' key' = w.get k' key' := by
  refine get_effect_other fun o hw heq => ?_
  cases hw with
  | delete key o ho hdel =>
    have hkey : o.key = key := get_key ho
    exact h rfl (heq.symm.trans hkey)

theorem get_create_other (w : World) (o : Obj k) (h : k' = k → key' ≠ o.key) :
    (w.effect (.create k o)).get k' key' = w.get k' key' := by
  refine get_effect_other fun o' hw heq => ?_
  cases hw with
  | create o hnone => exact h rfl heq.symm

theorem get_patch_self {o : Obj k} (h : w.get k key = some o) (p : Patch k) :
    (w.effect (.patch k key p)).get k key =
      if (p.apply o).gone then none else some ((p.apply o).stamped w.revision) := by
  have hkey : (p.apply o).key = key := (Patch.key_apply p o).trans (get_key h)
  rw [effect, patch, h, ← hkey]
  exact get_update_self w _

theorem get_delete_self {o : Obj k} (h : w.get k key = some o) (hdel : o.deleting = false) :
    (w.effect (.delete k key)).get k key =
      if (o.marked (w.now / 10 ^ 9)).gone then none
      else some ((o.marked (w.now / 10 ^ 9)).stamped w.revision) := by
  have hkey : o.key = key := get_key h
  rw [effect, delete, h]
  simp only [hdel, Bool.false_eq_true, if_false]
  rw [← hkey]
  exact get_update_self w _

theorem get_create_self (w : World) {o : Obj k} (h : w.get k o.key = none) :
    (w.effect (.create k o)).get k o.key = some ((o.born w.revision).stamped w.revision) := by
  rw [effect, create, h]
  exact get_store_self w _

theorem revision_le_effect (w : World) (c : Call) : w.revision ≤ (w.effect c).revision := by
  rcases effect_cases w c with ⟨-, hrev, -⟩ | ⟨k', o, -, heq⟩
  · exact Nat.le_of_eq hrev.symm
  · rw [heq]
    exact revision_le_update w o

end World

end ZfsEvacuation
