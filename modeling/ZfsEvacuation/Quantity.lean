import Mathlib.Algebra.Order.Ring.Nat
import Mathlib.Tactic.Common

/-!
# Texts of numbers

Decimal parsing as the standard library of the source does it, resource quantities with
their double-precision arithmetic, and hexadecimal formatting.
-/
namespace ZfsEvacuation

/-- Unicode `White_Space`, which `str::trim` strips. -/
def isWhiteSpace (c : Char) : Bool :=
  let n := c.toNat
  (9 ≤ n && n ≤ 13) || n == 0x20 || n == 0x85 || n == 0xA0 || n == 0x1680 ||
    (0x2000 ≤ n && n ≤ 0x200A) || n == 0x2028 || n == 0x2029 || n == 0x202F || n == 0x205F ||
    n == 0x3000

def trim (s : List Char) : List Char :=
  ((s.dropWhile isWhiteSpace).reverse.dropWhile isWhiteSpace).reverse

def isAsciiDigit (c : Char) : Bool := '0' ≤ c && c ≤ '9'

def digitsValue (s : List Char) : Nat := s.foldl (fun n c => 10 * n + (c.toNat - 48)) 0

/-- Parse an unsigned integer of at most `max`: an optional plus sign, then digits only. -/
def parseUnsigned (max : Nat) (s : List Char) : Option Nat :=
  let digits := match s with
    | '+' :: rest => rest
    | _ => s
  if digits = [] ∨ ¬ digits.all isAsciiDigit then none
  else if digitsValue digits ≤ max then some (digitsValue digits) else none

def maxU128 : Nat := 2 ^ 128 - 1

/-- The exponent of the smallest double above zero. -/
def minExponent : Int := -1074

/-- `num / den` in units of `2 ^ exponent`, as a fraction. -/
def inUnits (num den : Nat) (exponent : Int) : Nat × Nat :=
  if 0 ≤ exponent then (num, den * 2 ^ exponent.toNat) else (num * 2 ^ (-exponent).toNat, den)

/-- The nearest natural number, ties to even. -/
def roundTiesToEven (x : Nat × Nat) : Nat :=
  let q := x.1 / x.2
  let r := x.1 % x.2
  if 2 * r > x.2 ∨ (2 * r = x.2 ∧ q % 2 = 1) then q + 1 else q

/-- The double nearest to `num / den`, ties to even, as a fraction. The exponent has no upper
bound: what overflows a double here saturates in the conversion to an integer below. -/
def roundToDouble (num den : Nat) : Nat × Nat :=
  if num = 0 then (0, 1) else
  let shift : Int := (Nat.log2 num : Int) - Nat.log2 den - 53
  let scaled := inUnits num den shift
  let normal : Int := if scaled.1 / scaled.2 ≥ 2 ^ 53 then shift + 1 else shift
  -- below the normal doubles the precision goes down to nothing
  let exponent := max normal minExponent
  let m := roundTiesToEven (inUnits num den exponent)
  if 0 ≤ exponent then (m * 2 ^ exponent.toNat, 1) else (m, 2 ^ (-exponent).toNat)

/-- A decimal literal as sign, numerator and denominator; no exponent can occur here. -/
def parseDecimal (s : List Char) : Option (Bool × Nat × Nat) :=
  let signed : Bool × List Char := match s with
    | '-' :: rest => (true, rest)
    | '+' :: rest => (false, rest)
    | _ => (false, s)
  let whole := signed.2.takeWhile isAsciiDigit
  let frac := match signed.2.dropWhile isAsciiDigit with
    | [] => some []
    | '.' :: rest => some rest
    | _ => none
  match frac with
  | none => none
  | some frac =>
    if ¬ frac.all isAsciiDigit ∨ (whole = [] ∧ frac = []) then none
    else some (signed.1, digitsValue (whole ++ frac), 10 ^ frac.length)

def quantityMultiplier (suffix : String) : Option Nat :=
  match suffix with
  | "Ki" => some (2 ^ 10)
  | "Mi" => some (2 ^ 20)
  | "Gi" => some (2 ^ 30)
  | "Ti" => some (2 ^ 40)
  | "Pi" => some (2 ^ 50)
  | "Ei" => some (2 ^ 60)
  | "k" => some (10 ^ 3)
  | "M" => some (10 ^ 6)
  | "G" => some (10 ^ 9)
  | "T" => some (10 ^ 12)
  | "P" => some (10 ^ 15)
  | "E" => some (10 ^ 18)
  | _ => none

/-- Parse a quantity with a decimal or binary suffix into bytes. -/
def parseQuantity (q : String) : Option Nat :=
  let s := trim q.toList
  let isNumber : Char → Bool := fun c => isAsciiDigit c || c == '.' || c == '-' || c == '+'
  let num := s.takeWhile isNumber
  let suffix := s.dropWhile isNumber
  if suffix = [] ∨ num = [] then none else
  match quantityMultiplier (String.ofList suffix), parseDecimal num with
  | some mult, some (negative, n, d) =>
    let val := roundToDouble n d
    if negative ∧ val.1 ≠ 0 then none
    else
      let product := roundToDouble (val.1 * mult) val.2
      some (min (product.1 / product.2) maxU128)
  | _, _ => none

/-- A quantity that may also be a plain byte count. -/
def parseQuantityOrBytes (q : String) : Option Nat :=
  (parseUnsigned maxU128 (trim q.toList)).orElse fun _ => parseQuantity q

/-- Digits are neither white space nor a sign. -/
theorem asciiDigit_of_isDigit {c : Char} (h : c.isDigit = true) :
    isAsciiDigit c = true ∧ isWhiteSpace c = false ∧ c ≠ '+' := by
  simp only [Char.isDigit, Bool.and_eq_true, decide_eq_true_eq] at h
  have hlow : 48 ≤ c.toNat := h.1
  have hhigh : c.toNat ≤ 57 := h.2
  refine ⟨?_, ?_, ?_⟩
  · simp only [isAsciiDigit, Bool.and_eq_true, decide_eq_true_eq]
    exact h
  · simp only [isWhiteSpace]
    simp only [Bool.or_eq_false_iff, Bool.and_eq_false_iff, decide_eq_false_iff_not, beq_eq_false_iff_ne]
    omega
  · rintro rfl
    revert hlow
    decide

theorem trim_eq_self {s : List Char} (h : ∀ c ∈ s, isWhiteSpace c = false) : trim s = s := by
  have hdrop : ∀ l : List Char, (∀ c ∈ l, isWhiteSpace c = false) →
      l.dropWhile isWhiteSpace = l := by
    intro l hl
    cases l with
    | nil => rfl
    | cons c l => simp [hl c List.mem_cons_self]
  rw [trim, hdrop s h, hdrop s.reverse (by simpa using h), List.reverse_reverse]

theorem digitsValue_toDigits (n : Nat) : digitsValue (Nat.toDigits 10 n) = n :=
  Nat.ofDigitChars_ten_toDigits

theorem toString_nat_injective : Function.Injective (toString : Nat → String) := by
  intro i j h
  have hdigits : Nat.toDigits 10 i = Nat.toDigits 10 j := by
    have htext := congrArg String.toList h
    rwa [show (toString i).toList = _ from Nat.toList_repr,
      show (toString j).toList = _ from Nat.toList_repr] at htext
  rw [← digitsValue_toDigits i, hdigits, digitsValue_toDigits]

/-- A byte count is parsed back from its decimal text. -/
theorem parseQuantityOrBytes_toString {n : Nat} (h : n ≤ maxU128) :
    parseQuantityOrBytes (toString n) = some n := by
  have hdigits : ∀ c ∈ Nat.toDigits 10 n, isAsciiDigit c = true ∧ isWhiteSpace c = false ∧ c ≠ '+' :=
    fun c hc => asciiDigit_of_isDigit (Nat.isDigit_of_mem_toDigits (by omega) (by omega) hc)
  have htext : (toString n).toList = Nat.toDigits 10 n := Nat.toList_repr
  have htrim : trim (toString n).toList = Nat.toDigits 10 n := by
    rw [htext]
    exact trim_eq_self fun c hc => (hdigits c hc).2.1
  have hvalue := digitsValue_toDigits n
  have hne : Nat.toDigits 10 n ≠ [] := Nat.toDigits_ne_nil
  have hall : (Nat.toDigits 10 n).all isAsciiDigit = true :=
    List.all_eq_true.mpr fun c hc => (hdigits c hc).1
  have hplain : parseUnsigned maxU128 (Nat.toDigits 10 n) = some n := by
    unfold parseUnsigned
    split
    · rename_i rest heq
      exact absurd rfl (hdigits '+' (heq ▸ List.mem_cons_self)).2.2
    · simp [hne, hall, hvalue, h]
  rw [parseQuantityOrBytes, htrim, hplain]
  rfl

/-- Lower-case hexadecimal, zero-padded to `width` digits. -/
def hexPadded (width n : Nat) : String := String.ofList ((Nat.toDigits 16 n).leftpad width '0')

end ZfsEvacuation
