import Mathlib.Tactic.Common
import Mathlib.Data.List.Nodup

/-!
# JSON values and merge patches

Objects are lists of entries, read by key. A merge patch replaces everything but objects, which it
merges key by key; null deletes a key. A codec restores its values if what it writes reads back
after a merge into any target: then nothing of the target is left.
-/
namespace ZfsEvacuation

inductive Json where
  | null
  | bool (b : Bool)
  | num (text : String)
  | str (s : String)
  | arr (items : List Json)
  | obj (fields : List (String × Json))

namespace Json

abbrev Fields := List (String × Json)

/-- The entries of an object; anything else has none. -/
def fields : Json → Fields
  | .obj fs => fs
  | _ => []

def isNull : Json → Bool
  | .null => true
  | _ => false

def isObj : Json → Bool
  | .obj _ => true
  | _ => false

/-- The value at a path of keys. -/
def at_ : List String → Json → Option Json
  | [], j => some j
  | k :: path, j => (j.fields.lookup k).bind (at_ path)

def put (k : String) (v : Json) : Fields → Fields
  | [] => [(k, v)]
  | (k', v') :: rest => if k' = k then (k, v) :: rest else (k', v') :: put k v rest

def del (k : String) (fs : Fields) : Fields := fs.filter fun kv => kv.1 ≠ k

mutual

/-- The target with the patch merged into it. -/
def mergePatch (target : Json) : Json → Json
  | .obj patch => .obj (mergeFields target.fields patch)
  | patch => patch

def mergeFields (target : Fields) : Fields → Fields
  | [] => target
  | entry :: rest => mergeFields (mergeEntry target entry) rest

def mergeEntry (target : Fields) : String × Json → Fields
  | (k, v) =>
    if v.isNull then del k target
    else put k (mergePatch ((target.lookup k).getD .null) v) target

end

/-! ## Reading a merged object -/

variable {k k' : String} {v : Json} {t p : Fields}

theorem lookup_cons_eq (fs : Fields) :
    List.lookup k ((k', v) :: fs) = if k = k' then some v else fs.lookup k := by
  rw [List.lookup_cons]
  by_cases h : k = k'
  · simp [h]
  · rw [if_neg h, beq_eq_false_iff_ne.mpr h]

theorem lookup_put (fs : Fields) :
    (put k v fs).lookup k' = if k' = k then some v else fs.lookup k' := by
  induction fs with
  | nil => rw [put, lookup_cons_eq]
  | cons kv fs ih =>
    obtain ⟨j, w⟩ := kv
    unfold put
    by_cases hj : j = k
    · simp only [hj, if_true, lookup_cons_eq]
      split_ifs <;> rfl
    · simp only [hj, if_false, lookup_cons_eq, ih]
      split_ifs with hkj hk hk
      · exact absurd (hkj.symm.trans hk) hj
      · rfl
      · rfl
      · rfl

theorem lookup_filter (keep : String → Bool) (fs : Fields) :
    (fs.filter fun kv => keep kv.1).lookup k = if keep k then fs.lookup k else none := by
  induction fs with
  | nil => simp
  | cons kv fs ih =>
    obtain ⟨j, w⟩ := kv
    rw [List.filter_cons, lookup_cons_eq]
    by_cases hj : keep j = true
    · rw [if_pos hj, lookup_cons_eq, ih]
      split_ifs with hk hkeep
      · rfl
      · exact absurd (hk ▸ hj) hkeep
      · rfl
      · rfl
    · rw [if_neg hj, ih]
      split_ifs with hkeep hk
      · exact absurd (hk ▸ hkeep) hj
      · rfl
      · rfl

theorem lookup_del (fs : Fields) :
    (del k fs).lookup k' = if k' = k then none else fs.lookup k' := by
  rw [del, lookup_filter fun j => decide (j ≠ k)]
  simp

/-- What a key has after a merge in which it is patched with `v`. -/
def merged (old : Option Json) (v : Json) : Option Json :=
  match v with
  | .null => none
  | v => some (mergePatch (old.getD .null) v)

theorem merged_of_ne (old : Option Json) (h : v ≠ .null) :
    merged old v = some (mergePatch (old.getD .null) v) := by
  cases v <;> first | rfl | exact absurd rfl h

theorem lookup_mergeEntry : (mergeEntry t (k, v)).lookup k' =
    if k' = k then merged (t.lookup k) v else t.lookup k' := by
  cases v <;> simp [mergeEntry, isNull, lookup_del, lookup_put, merged]

theorem lookup_eq_none_of_not_mem (h : k ∉ p.map (·.1)) : p.lookup k = none :=
  List.lookup_eq_none_iff.mpr fun kv hkv => by
    have hne : k ≠ kv.1 := fun heq => h (heq ▸ List.mem_map_of_mem hkv)
    simpa using hne

/-- A key that is not patched keeps its value. -/
theorem lookup_mergeFields (hp : (p.map (·.1)).Nodup) : (mergeFields t p).lookup k =
    match p.lookup k with
    | none => t.lookup k
    | some v => merged (t.lookup k) v := by
  induction p generalizing t with
  | nil => rfl
  | cons kv p ih =>
    obtain ⟨j, w⟩ := kv
    obtain ⟨hj, hp⟩ := List.nodup_cons.mp hp
    rw [mergeFields, ih hp, lookup_mergeEntry, lookup_cons_eq]
    by_cases hk : k = j
    · subst hk
      rw [lookup_eq_none_of_not_mem hj, if_pos rfl, if_pos rfl]
    · rw [if_neg hk, if_neg hk]

/-! ## What survives of the target -/

/-- No object within the patch has a key twice. -/
inductive UniqueKeys : Json → Prop where
  | flat {j : Json} (h : j.isObj = false) : UniqueKeys j
  | obj {fs : Fields} (keys : (fs.map (·.1)).Nodup)
      (deep : ∀ k v, fs.lookup k = some v → UniqueKeys v) : UniqueKeys (.obj fs)

/-- Every key of the target is patched, at every level at which both are objects. -/
inductive Covers : Json → Json → Prop where
  | scalar {p t : Json} (h : p.isObj = false) : Covers p t
  | fresh {p t : Json} (h : t.fields = []) : Covers p t
  | obj {p t : Fields} (keys : ∀ k u, t.lookup k = some u → p.lookup k ≠ none)
      (deep : ∀ k u v, t.lookup k = some u → p.lookup k = some v → Covers v u) :
      Covers (.obj p) (.obj t)

theorem mem_of_lookup {fs : Fields} (h : fs.lookup k = some v) : (k, v) ∈ fs := by
  obtain ⟨before, after, rfl, -⟩ := List.lookup_eq_some_iff.mp h
  simp

theorem UniqueKeys.of_mem (keys : (p.map (·.1)).Nodup) (h : ∀ kv ∈ p, UniqueKeys kv.2) :
    UniqueKeys (.obj p) :=
  .obj keys fun _ _ hk => h _ (mem_of_lookup hk)

theorem uniqueKeys_flat (keys : (p.map (·.1)).Nodup) (h : ∀ kv ∈ p, kv.2.isObj = false) :
    UniqueKeys (.obj p) :=
  .of_mem keys fun kv hkv => .flat (h kv hkv)

/-- Objects with the same keys in the same order. -/
theorem Covers.of_forall₂
    (h : List.Forall₂ (fun new old => new.1 = old.1 ∧ Covers new.2 old.2) p t) :
    Covers (.obj p) (.obj t) := by
  refine .obj (fun k u hu => ?_) (fun k u v hu hv => ?_)
  · induction h with
    | nil => cases hu
    | @cons new old p t hhead _ ih =>
      rw [lookup_cons_eq] at hu ⊢
      rw [hhead.1]
      split_ifs at hu ⊢ with hk
      · simp
      · exact ih hu
  · induction h with
    | nil => cases hu
    | @cons new old p t hhead _ ih =>
      rw [lookup_cons_eq] at hu hv
      rw [hhead.1] at hv
      split_ifs at hu hv with hk
      · obtain rfl := Option.some.inj hu
        obtain rfl := Option.some.inj hv
        exact hhead.2
      · exact ih hu hv

/-- A patch without nested objects covers what has no other keys. -/
theorem Covers.of_flat (hflat : ∀ kv ∈ p, kv.2.isObj = false)
    (keys : ∀ kv ∈ t, kv.1 ∈ p.map (·.1)) : Covers (.obj p) (.obj t) := by
  refine .obj (fun k u hu hnone => ?_) fun k u v _ hv => .scalar (hflat _ (mem_of_lookup hv))
  obtain ⟨kv, hkv, hk⟩ := List.mem_map.mp (keys _ (mem_of_lookup hu))
  have hne := List.lookup_eq_none_iff.mp hnone kv hkv
  simp [hk] at hne

theorem Covers.lookup {p t : Json} (h : Covers p t) (hp : p.isObj = true) {u : Json}
    (hu : t.fields.lookup k = some u) : ∃ v, p.fields.lookup k = some v ∧ Covers v u := by
  cases h with
  | scalar hflat => simp [hflat] at hp
  | fresh hnone =>
    rw [hnone] at hu
    cases hu
  | obj keys deep =>
    obtain ⟨v, hv⟩ := Option.ne_none_iff_exists'.mp (keys k u hu)
    exact ⟨v, hv, deep k u v hu hv⟩

/-- What the merged value has was put there by the patch. -/
theorem at_mergePatch {p : Json} (hu : UniqueKeys p) {t : Json} (hc : Covers p t)
    (hsolid : p ≠ .null) {path : List String} {v : Json}
    (h : (mergePatch t p).at_ path = some v) :
    ∃ w, p.at_ path = some w ∧ w ≠ .null ∧ (w.isObj = false → v = w) := by
  induction path generalizing p t with
  | nil =>
    refine ⟨p, rfl, hsolid, fun hflat => ?_⟩
    obtain rfl := Option.some.inj h
    cases p with
    | obj fs => cases hflat
    | _ => rfl
  | cons k path ih =>
    cases hu with
    | flat hflat =>
      cases p with
      | obj fs => cases hflat
      | _ => cases h
    | @obj p keys deep =>
      obtain ⟨x, hx, hpath⟩ := Option.bind_eq_some_iff.mp h
      rw [mergePatch, fields, lookup_mergeFields keys] at hx
      cases hk : p.lookup k with
      | none =>
        rw [hk] at hx
        obtain ⟨w, hw, -⟩ := hc.lookup rfl hx
        exact absurd (hk.symm.trans hw) (by simp)
      | some w =>
        rw [hk] at hx
        have hw : w ≠ .null := by
          rintro rfl
          cases hx
        simp only [merged_of_ne _ hw] at hx
        obtain rfl := Option.some.inj hx
        have hcover : Covers w ((t.fields.lookup k).getD .null) := by
          cases hold : t.fields.lookup k with
          | none => exact .fresh rfl
          | some u =>
            obtain ⟨w', hw', hcov⟩ := hc.lookup rfl hold
            obtain rfl := Option.some.inj (hk.symm.trans hw')
            exact hcov
        obtain ⟨z, hz, hput⟩ := ih (deep k w hk) hcover hw hpath
        refine ⟨z, ?_, hput⟩
        rw [at_, fields, hk, Option.bind_some]
        exact hz

/-! ## Codecs -/

section Codecs
variable {α : Type}

/-- What is written is no null, and reads back after it was merged into anything. -/
structure Restores (enc : α → Json) (dec : Json → Option α) : Prop where
  solid : ∀ a, enc a ≠ .null
  merged : ∀ t a, dec (mergePatch t (enc a)) = some a

def nullable (enc : α → Json) : Option α → Json
  | none => .null
  | some a => enc a

theorem uniqueKeys_nullable {enc : α → Json} (h : ∀ a, UniqueKeys (enc a)) (o : Option α) :
    UniqueKeys (nullable enc o) := by
  cases o with
  | none => exact .flat rfl
  | some a => exact h a

theorem isObj_nullable {enc : α → Json} (h : ∀ a, (enc a).isObj = false) (o : Option α) :
    (nullable enc o).isObj = false := by
  cases o with
  | none => rfl
  | some a => exact h a

theorem covers_nullable {enc : α → Json} {o o' : Option α}
    (h : ∀ a ∈ o, ∀ b ∈ o', Covers (enc a) (enc b)) : Covers (nullable enc o) (nullable enc o') := by
  cases o with
  | none => exact .scalar rfl
  | some a =>
    cases o' with
    | none => exact .fresh rfl
    | some b => exact h a rfl b rfl

/-- The value of a key that must be there. -/
def required (dec : Json → Option α) (fs : Fields) (k : String) : Option α :=
  (fs.lookup k).bind dec

/-- The value of a key that may be missing or null. -/
def optional (dec : Json → Option α) (fs : Fields) (k : String) : Option (Option α) :=
  match fs.lookup k with
  | none | some .null => some none
  | some v => (dec v).map some

def defaulted (dec : Json → Option α) (d : α) (fs : Fields) (k : String) : Option α :=
  match fs.lookup k with
  | none => some d
  | some v => dec v

variable {enc : α → Json} {dec : Json → Option α} {d a : α} {o : Option α}

theorem lookup_of_solid (hr : Restores enc dec) (hp : (p.map (·.1)).Nodup)
    (h : p.lookup k = some (enc a)) :
    ∃ v, (mergeFields t p).lookup k = some v ∧ dec v = some a := by
  rw [lookup_mergeFields hp, h]
  exact ⟨_, merged_of_ne _ (hr.solid a), hr.merged _ a⟩

theorem required_merge (hr : Restores enc dec) (hp : (p.map (·.1)).Nodup)
    (h : p.lookup k = some (enc a)) : required dec (mergeFields t p) k = some a := by
  obtain ⟨v, hv, hdec⟩ := lookup_of_solid (t := t) hr hp h
  rw [required, hv, Option.bind_some, hdec]

theorem defaulted_merge (hr : Restores enc dec) (hp : (p.map (·.1)).Nodup)
    (h : p.lookup k = some (enc a)) : defaulted dec d (mergeFields t p) k = some a := by
  obtain ⟨v, hv, hdec⟩ := lookup_of_solid (t := t) hr hp h
  rw [defaulted, hv]
  exact hdec

/-- An explicit null clears the key. -/
theorem optional_merge (hr : Restores enc dec) (hnull : dec .null = none)
    (hp : (p.map (·.1)).Nodup) (h : p.lookup k = some (nullable enc o)) :
    optional dec (mergeFields t p) k = some o := by
  cases o with
  | none =>
    have hnone : (mergeFields t p).lookup k = none := by rw [lookup_mergeFields hp, h]; rfl
    rw [optional, hnone]
  | some a =>
    obtain ⟨v, hv, hdec⟩ := lookup_of_solid (t := t) hr hp h
    have hne : v ≠ .null := by
      rintro rfl
      exact absurd (hnull.symm.trans hdec) (by simp)
    rw [optional, hv]
    cases v <;> first | exact absurd rfl hne | simp [hdec]

/-- A key that the patch leaves out is read from the target. -/
theorem optional_unpatched (hp : (p.map (·.1)).Nodup) (h : p.lookup k = none) :
    optional dec (mergeFields t p) k = optional dec t k := by
  have hkept : (mergeFields t p).lookup k = t.lookup k := by rw [lookup_mergeFields hp, h]
  rw [optional, optional, hkept]

def asStr : Json → Option String
  | .str s => some s
  | _ => none

def asBool : Json → Option Bool
  | .bool b => some b
  | _ => none

def asArr (dec : Json → Option α) : Json → Option (List α)
  | .arr items => items.mapM dec
  | _ => none

theorem restores_str : Restores .str asStr where
  solid _ := Json.noConfusion
  merged _ _ := rfl

theorem restores_bool : Restores .bool asBool where
  solid _ := Json.noConfusion
  merged _ _ := rfl

theorem mapM_of_roundTrip (h : ∀ a, dec (enc a) = some a) (as : List α) :
    (as.map enc).mapM dec = some as := by
  induction as with
  | nil => rfl
  | cons a as ih => simp [h, ih]

/-- An array is replaced as a whole. -/
theorem restores_arr (h : ∀ a, dec (enc a) = some a) :
    Restores (fun as => .arr (as.map enc)) (asArr dec) where
  solid _ := Json.noConfusion
  merged _ as := mapM_of_roundTrip h as

end Codecs

end Json

end ZfsEvacuation
