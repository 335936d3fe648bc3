import Mathlib.Tactic.Common
import Mathlib.Data.List.Nodup

/-!
# Stores keyed by a field of their entries

A store holds entries in a fixed order and at most one entry for each key, where the key
is read off the entry itself. Writing an entry replaces the one of its key in place or
appends it.
-/
namespace ZfsEvacuation

structure KeyedStore (κ α : Type) (key : α → κ) where
  items : List α
  nodup : (items.map key).Nodup

namespace KeyedStore
variable {κ α : Type} [DecidableEq κ] {key : α → κ}

def empty : KeyedStore κ α key := ⟨[], List.nodup_nil⟩

instance : EmptyCollection (KeyedStore κ α key) := ⟨empty⟩

def get (s : KeyedStore κ α key) (k : κ) : Option α := s.items.find? fun a => key a = k

def putItems (key : α → κ) (a : α) : List α → List α
  | [] => [a]
  | b :: bs => if key b = key a then a :: bs else b :: putItems key a bs

theorem mem_putItems_key {a : α} {items : List α} {k : κ}
    (h : k ∈ (putItems key a items).map key) : k = key a ∨ k ∈ items.map key := by
  induction items with
  | nil => simp_all [putItems]
  | cons b bs ih =>
    simp only [putItems] at h
    split_ifs at h with hb
    · rcases List.mem_cons.mp h with h | h
      · exact Or.inl h
      · exact Or.inr (List.mem_cons_of_mem _ h)
    · rcases List.mem_cons.mp h with h | h
      · exact Or.inr (h ▸ List.mem_cons_self)
      · exact (ih h).imp id (List.mem_cons_of_mem _)

theorem putItems_nodup (a : α) {items : List α} (h : (items.map key).Nodup) :
    ((putItems key a items).map key).Nodup := by
  induction items with
  | nil => simp [putItems]
  | cons b bs ih =>
    simp only [List.map_cons, List.nodup_cons] at h
    simp only [putItems]
    split_ifs with hb
    · simpa [← hb] using h
    · refine List.nodup_cons.mpr ⟨fun hmem => ?_, ih h.2⟩
      exact (mem_putItems_key hmem).elim hb h.1

def put (s : KeyedStore κ α key) (a : α) : KeyedStore κ α key :=
  ⟨putItems key a s.items, putItems_nodup a s.nodup⟩

def erase (s : KeyedStore κ α key) (k : κ) : KeyedStore κ α key :=
  ⟨s.items.filter fun a => key a ≠ k, s.nodup.sublist (List.filter_sublist.map key)⟩

@[simp] theorem get_empty (k : κ) : (∅ : KeyedStore κ α key).get k = none := rfl

theorem get_key {s : KeyedStore κ α key} {k : κ} {a : α} (h : s.get k = some a) : key a = k := by
  simpa using List.find?_some h

theorem mem_of_get {s : KeyedStore κ α key} {k : κ} {a : α} (h : s.get k = some a) :
    a ∈ s.items := List.mem_of_find?_eq_some h

/-- Reading a key back is the same as finding an entry of that key in the listing. -/
theorem get_eq_some_iff {s : KeyedStore κ α key} {k : κ} {a : α} :
    s.get k = some a ↔ a ∈ s.items ∧ key a = k := by
  refine ⟨fun h => ⟨mem_of_get h, get_key h⟩, fun ⟨hmem, hk⟩ => ?_⟩
  cases hget : s.get k with
  | none => simpa [hk] using (List.find?_eq_none.mp hget) a hmem
  | some b =>
    have hb := mem_of_get hget
    have hkey : key b = key a := (get_key hget).trans hk.symm
    rw [List.inj_on_of_nodup_map s.nodup hb hmem hkey]

theorem get_of_mem {s : KeyedStore κ α key} {a : α} (h : a ∈ s.items) :
    s.get (key a) = some a := get_eq_some_iff.mpr ⟨h, rfl⟩

theorem find?_putItems (a : α) (items : List α) (k : κ) :
    (putItems key a items).find? (fun b => key b = k) =
      if key a = k then some a else items.find? (fun b => key b = k) := by
  induction items with
  | nil => by_cases h : key a = k <;> simp [putItems, h]
  | cons b bs ih =>
    simp only [putItems]
    by_cases hb : key b = key a
    · by_cases h : key a = k <;> simp [hb, h]
    · rw [if_neg hb, List.find?_cons, List.find?_cons, ih]
      by_cases h : key a = k
      · have hk : key b ≠ k := fun hk => hb (hk.trans h.symm)
        simp [hk, h]
      · by_cases hk : key b = k <;> simp [hk, h]

theorem get_put (s : KeyedStore κ α key) (a : α) (k : κ) :
    (s.put a).get k = if key a = k then some a else s.get k := find?_putItems a s.items k

theorem get_erase (s : KeyedStore κ α key) (k k' : κ) :
    (s.erase k).get k' = if k = k' then none else s.get k' := by
  unfold get erase
  rw [List.find?_filter]
  by_cases h : k = k'
  · subst h
    simp
  · rw [if_neg h]
    congr 1
    funext a
    by_cases hk : key a = k'
    · simp [hk, Ne.symm h]
    · simp [hk]

/-- Change or drop each entry, under the same keys. -/
def filterMap (s : KeyedStore κ α key) (f : α → Option α)
    (hf : ∀ a b, f a = some b → key b = key a) : KeyedStore κ α key where
  items := s.items.filterMap f
  nodup := by
    have hkeys : ∀ items : List α, ((items.filterMap f).map key).Sublist (items.map key) := by
      intro items
      induction items with
      | nil => exact List.Sublist.refl _
      | cons a as ih =>
        rw [List.filterMap_cons, List.map_cons]
        split
        · exact ih.cons _
        · rename_i b hb
          rw [List.map_cons, hf a b hb]
          exact ih.cons_cons _
    exact s.nodup.sublist (hkeys s.items)

theorem get_filterMap (s : KeyedStore κ α key) {f : α → Option α}
    (hf : ∀ a b, f a = some b → key b = key a) (k : κ) :
    (s.filterMap f hf).get k = (s.get k).bind f := by
  cases hget : s.get k with
  | none =>
    refine Option.eq_none_iff_forall_ne_some.mpr fun b hb => ?_
    obtain ⟨hmem, hk⟩ := get_eq_some_iff.mp hb
    obtain ⟨a, ha, hab⟩ := List.mem_filterMap.mp hmem
    have hsome := get_eq_some_iff.mpr ⟨ha, (hf a b hab).symm.trans hk⟩
    rw [hget] at hsome
    cases hsome
  | some a =>
    obtain ⟨ha, hk⟩ := get_eq_some_iff.mp hget
    rw [Option.bind_some]
    cases hfa : f a with
    | none =>
      refine Option.eq_none_iff_forall_ne_some.mpr fun b hb => ?_
      obtain ⟨hmem, hkb⟩ := get_eq_some_iff.mp hb
      obtain ⟨a', ha', hab⟩ := List.mem_filterMap.mp hmem
      have hkey : key a' = key a := ((hf a' b hab).symm.trans hkb).trans hk.symm
      rw [List.inj_on_of_nodup_map s.nodup ha' ha hkey, hfa] at hab
      cases hab
    | some b =>
      have hb : b ∈ (s.filterMap f hf).items := List.mem_filterMap.mpr ⟨a, ha, hfa⟩
      exact get_eq_some_iff.mpr ⟨hb, (hf a b hfa).trans hk⟩

end KeyedStore

end ZfsEvacuation
