import Mathlib.Algebra.Order.Ring.Nat
import Mathlib.Computability.Language
import Mathlib.Tactic.Common

/-!
# Numerals of a fixed width, the bytes of a text and label values

Padding with zeros turns the numerals of a base into words of one length, one for each number
below a power of the base. The bytes of a text are those of its characters in UTF-8, so a test
that only ASCII bytes pass reads a text byte by byte as it does character by character. Label
values are a regular language over bytes, cut off at a length.
-/
namespace AsciiText
open scoped Computability

/-! ## Numerals -/

/-- The last `width` digits of a number, zeros in front. -/
def fixedDigits (b : Nat) : Nat → Nat → List Char
  | 0, _ => []
  | width + 1, n => fixedDigits b width (n / b) ++ [Nat.digitChar (n % b)]

section Numerals
variable {b width m n : Nat}

@[simp] theorem length_fixedDigits : (fixedDigits b width n).length = width := by
  induction width generalizing n with
  | zero => rfl
  | succ width ih => simp [fixedDigits, ih]

theorem fixedDigits_zero (width : Nat) : fixedDigits b width 0 = List.replicate width '0' := by
  induction width with
  | zero => rfl
  | succ width ih =>
    rw [fixedDigits, Nat.zero_div, Nat.zero_mod, ih, List.replicate_succ']
    rfl

theorem mem_fixedDigits (hb : 0 < b) {c : Char} (h : c ∈ fixedDigits b width n) :
    ∃ d < b, c = Nat.digitChar d := by
  induction width generalizing n with
  | zero => cases h
  | succ width ih =>
    rw [fixedDigits, List.mem_append, List.mem_singleton] at h
    rcases h with h | rfl
    · exact ih h
    · exact ⟨n % b, Nat.mod_lt _ hb, rfl⟩

/-- The digits of the bases up to sixteen differ. -/
theorem digitChar_inj (hm : m < 16) (hn : n < 16) (h : Nat.digitChar m = Nat.digitChar n) :
    m = n := by
  have hinj : ∀ i j : Fin 16, Nat.digitChar i = Nat.digitChar j → i = j := by decide
  exact Fin.mk.inj (hinj ⟨m, hm⟩ ⟨n, hn⟩ h)

/-- Numbers of at most `width` digits are told apart by their last `width` digits. -/
theorem fixedDigits_inj (hb : b ≤ 16) (hm : m < b ^ width) (hn : n < b ^ width)
    (h : fixedDigits b width m = fixedDigits b width n) : m = n := by
  induction width generalizing m n with
  | zero =>
    rw [Nat.pow_zero, Nat.lt_one_iff] at hm hn
    rw [hm, hn]
  | succ width ih =>
    have hpos : 0 < b := by
      rcases Nat.eq_zero_or_pos b with rfl | hpos
      · simp at hm
      · exact hpos
    have hmod (k : Nat) : k % b < 16 := (Nat.mod_lt k hpos).trans_le hb
    have hdiv {k : Nat} (hk : k < b ^ (width + 1)) : k / b < b ^ width :=
      Nat.div_lt_of_lt_mul (by rwa [← Nat.pow_succ'])
    obtain ⟨hinit, hlast⟩ := List.append_inj' h rfl
    have hquot : m / b = n / b := ih (hdiv hm) (hdiv hn) hinit
    have hrem : m % b = n % b := digitChar_inj (hmod m) (hmod n) (List.cons.inj hlast).1
    calc m = b * (m / b) + m % b := (Nat.div_add_mod m b).symm
      _ = b * (n / b) + n % b := by rw [hquot, hrem]
      _ = n := Nat.div_add_mod n b

/-- Padding changes nothing at the end. -/
theorem leftpad_concat {α : Type} (a c : α) (l : List α) :
    (l ++ [c]).leftpad (width + 1) a = l.leftpad width a ++ [c] := by
  simp [List.leftpad]

/-- A numeral padded with zeros has the width it is padded to. -/
theorem leftpad_toDigits (hb : 1 < b) (hn : n < b ^ (width + 1)) :
    (Nat.toDigits b n).leftpad (width + 1) '0' = fixedDigits b (width + 1) n := by
  induction width generalizing n with
  | zero =>
    have hlt : n < b := by simpa using hn
    simp [fixedDigits, Nat.toDigits_of_lt_base hlt, Nat.mod_eq_of_lt hlt, List.leftpad]
  | succ width ih =>
    rw [fixedDigits]
    rcases Nat.lt_or_ge n b with hlt | hge
    · rw [Nat.toDigits_of_lt_base hlt, Nat.div_eq_of_lt hlt, Nat.mod_eq_of_lt hlt,
        fixedDigits_zero, ← List.nil_append [_], leftpad_concat]
      simp [List.leftpad]
    · have hdiv : n / b < b ^ (width + 1) :=
        Nat.div_lt_of_lt_mul (by rwa [← Nat.pow_succ'])
      rw [Nat.toDigits_of_base_le hb hge, leftpad_concat, ih hdiv]

end Numerals

/-! ## Bytes -/

/-- The bytes of a text. -/
def utf8Bytes (text : String) : List UInt8 := text.toUTF8.data.toList

section Bytes
variable {text : String} {c : Char} {p : UInt8 → Bool}

theorem utf8Bytes_eq (text : String) :
    utf8Bytes text = text.toList.flatMap String.utf8EncodeChar := by
  have hencode : text.toUTF8 = text.toList.utf8Encode := String.utf8Encode_toList.symm
  rw [utf8Bytes, hencode, List.utf8Encode, List.toList_data_toByteArray]

theorem length_utf8Bytes (text : String) : (utf8Bytes text).length = text.utf8ByteSize := rfl

theorem utf8EncodeChar_ascii (h : c.toNat < 128) :
    String.utf8EncodeChar c = [UInt8.ofNat c.toNat] := by
  have hle : c.val.toNat ≤ 0x7f := by
    rw [Char.toNat] at h
    omega
  simp only [String.utf8EncodeChar, if_pos hle]
  rfl

theorem flatMap_ascii {cs : List Char} (h : ∀ c ∈ cs, c.toNat < 128) :
    cs.flatMap String.utf8EncodeChar = cs.map fun c => UInt8.ofNat c.toNat := by
  induction cs with
  | nil => rfl
  | cons c cs ih =>
    rw [List.flatMap_cons, utf8EncodeChar_ascii (h c List.mem_cons_self),
      ih fun d hd => h d (List.mem_cons_of_mem c hd)]
    rfl

/-- The bytes of an ASCII text are its characters. -/
theorem utf8Bytes_ascii (h : ∀ c ∈ text.toList, c.toNat < 128) :
    utf8Bytes text = text.toList.map fun c => UInt8.ofNat c.toNat := by
  rw [utf8Bytes_eq, flatMap_ascii h]

/-- The first byte of a character that is not ASCII is not an ASCII byte either. -/
theorem utf8EncodeChar_wide (h : 128 ≤ c.toNat) :
    ∃ b ∈ String.utf8EncodeChar c, 128 ≤ b.toNat := by
  have hlt : ¬ c.val.toNat ≤ 0x7f := by
    rw [Char.toNat] at h
    omega
  simp only [String.utf8EncodeChar, if_neg hlt]
  split_ifs <;> refine ⟨_, List.mem_cons_self, ?_⟩ <;>
    simp only [UInt8.toNat_ofNat', Nat.reducePow] <;> omega

/-- A test that only ASCII bytes pass is passed by all bytes of a text exactly if all its
characters are ASCII and pass it. -/
theorem all_utf8Bytes (hp : ∀ b, p b = true → b.toNat < 128) :
    (utf8Bytes text).all p =
      text.toList.all fun c => decide (c.toNat < 128) && p (UInt8.ofNat c.toNat) := by
  rw [utf8Bytes_eq, Bool.eq_iff_iff, List.all_eq_true, List.all_eq_true]
  simp only [Bool.and_eq_true, decide_eq_true_eq]
  constructor
  · intro h c hc
    have hbytes : ∀ b ∈ String.utf8EncodeChar c, p b = true :=
      fun b hb => h b (List.mem_flatMap.mpr ⟨c, hc, hb⟩)
    have hascii : c.toNat < 128 := by
      by_contra hwide
      obtain ⟨b, hb, hge⟩ := utf8EncodeChar_wide (Nat.le_of_not_lt hwide)
      exact absurd (hp b (hbytes b hb)) (by omega)
    refine ⟨hascii, hbytes _ ?_⟩
    rw [utf8EncodeChar_ascii hascii]
    exact List.mem_singleton_self _
  · intro h b hb
    obtain ⟨c, hc, hb⟩ := List.mem_flatMap.mp hb
    obtain ⟨hascii, hpass⟩ := h c hc
    rw [utf8EncodeChar_ascii hascii, List.mem_singleton] at hb
    exact hb ▸ hpass

end Bytes

/-! ## Label values -/

section Words
variable {α : Type} {p q : α → Bool} {w : List α}

/-- The words of one letter that passes a test. -/
def letter (p : α → Bool) : Language α := {w | ∃ a, p a = true ∧ w = [a]}

theorem mem_kstar_letter : w ∈ (letter p)∗ ↔ ∀ a ∈ w, p a = true := by
  rw [Language.mem_kstar]
  constructor
  · rintro ⟨words, rfl, hwords⟩ a ha
    obtain ⟨word, hword, ha⟩ := List.mem_flatten.mp ha
    obtain ⟨b, hb, rfl⟩ := hwords word hword
    exact List.mem_singleton.mp ha ▸ hb
  · intro h
    refine ⟨w.map ([·]), (List.flatMap_singleton' w).symm, fun word hword => ?_⟩
    obtain ⟨a, ha, rfl⟩ := List.mem_map.mp hword
    exact ⟨a, h a ha, rfl⟩

/-- A first and a last letter of one kind, in between letters of a wider kind. -/
theorem mem_framed (hpq : ∀ a, p a = true → q a = true) :
    w ∈ (letter p * (letter q)∗ + 1) * letter p ↔
      w.head?.any p = true ∧ w.getLast?.any p = true ∧ w.all q = true := by
  constructor
  · rintro ⟨front, hfront, _, ⟨b, hb, rfl⟩, rfl⟩
    rcases hfront with ⟨_, ⟨a, ha, rfl⟩, inner, hinner, rfl⟩ | rfl
    · have hlast : ([a] ++ inner ++ [b]).getLast? = some b := List.getLast?_concat
      have hall := mem_kstar_letter.mp hinner
      refine ⟨ha, by rwa [hlast], ?_⟩
      simpa [hpq a ha, hpq b hb] using hall
    · simp [hb, hpq b hb]
  · rintro ⟨hhead, hlast, hall⟩
    rcases List.eq_nil_or_concat w with rfl | ⟨front, b, rfl⟩
    · cases hhead
    have hb : p b = true := by simpa using hlast
    refine ⟨front, ?_, [b], ⟨b, hb, rfl⟩, by simp⟩
    cases front with
    | nil => exact .inr rfl
    | cons a inner =>
      have ha : p a = true := by simpa using hhead
      have hinner : ∀ c ∈ inner, q c = true := fun c hc =>
        List.all_eq_true.mp hall c (by simp [hc])
      exact .inl ⟨[a], ⟨a, ha, rfl⟩, inner, mem_kstar_letter.mpr hinner, rfl⟩

end Words

/-- The ASCII letters and digits. -/
def isAlphanumericByte (b : UInt8) : Bool :=
  ('0'.toUInt8 ≤ b && b ≤ '9'.toUInt8) || ('A'.toUInt8 ≤ b && b ≤ 'Z'.toUInt8) ||
    ('a'.toUInt8 ≤ b && b ≤ 'z'.toUInt8)

def isLabelByte (b : UInt8) : Bool :=
  isAlphanumericByte b || b == '-'.toUInt8 || b == '_'.toUInt8 || b == '.'.toUInt8

/-- The format of a label value: `(([A-Za-z0-9][-A-Za-z0-9_.]*)?[A-Za-z0-9])?`. -/
def labelFormat : Language UInt8 :=
  (letter isAlphanumericByte * (letter isLabelByte)∗ + 1) * letter isAlphanumericByte + 1

/-- A label value, by its bytes. -/
structure IsLabelValue (w : List UInt8) : Prop where
  format : w ∈ labelFormat
  length : w.length ≤ 63

theorem isAlphanumericByte_iff {b : UInt8} : isAlphanumericByte b = true ↔
    (48 ≤ b.toNat ∧ b.toNat ≤ 57) ∨ (65 ≤ b.toNat ∧ b.toNat ≤ 90) ∨
      (97 ≤ b.toNat ∧ b.toNat ≤ 122) := by
  simp [isAlphanumericByte, Char.toUInt8, UInt8.le_iff_toNat_le, or_assoc]

theorem isLabelByte_ascii (b : UInt8) (h : isLabelByte b = true) : b.toNat < 128 := by
  simp only [isLabelByte, Bool.or_eq_true, isAlphanumericByte_iff, beq_iff_eq] at h
  rcases h with ((h | rfl) | rfl) | rfl
  · omega
  all_goals decide

theorem isLabelByte_of_alphanumeric (b : UInt8) (h : isAlphanumericByte b = true) :
    isLabelByte b = true := by
  rw [isLabelByte, h]
  rfl

/-- The label values other than the empty one. -/
theorem isLabelValue_iff {w : List UInt8} (hw : w ≠ []) :
    IsLabelValue w ↔ w.length ≤ 63 ∧ w.head?.any isAlphanumericByte = true ∧
      w.getLast?.any isAlphanumericByte = true ∧ w.all isLabelByte = true := by
  have hformat : w ∈ labelFormat ↔ w.head?.any isAlphanumericByte = true ∧
      w.getLast?.any isAlphanumericByte = true ∧ w.all isLabelByte = true := by
    rw [labelFormat, Language.mem_add, Language.mem_one, or_iff_left hw,
      mem_framed isLabelByte_of_alphanumeric]
  exact ⟨fun h => ⟨h.length, hformat.mp h.format⟩, fun h => ⟨hformat.mpr h.2, h.1⟩⟩

end AsciiText
