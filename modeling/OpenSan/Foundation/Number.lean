import Mathlib.Algebra.Order.Ring.Rat
import Mathlib.Data.List.TakeWhile
import OpenSan.Foundation.Pattern

/-!
# Numbers in texts

`tonumber` of Lua 5.1 in base ten: a decimal number with an optional fraction
and an optional exponent, or a hexadecimal integer, between optional spaces.
The value is exact here.  Infinities and other words that the C library takes
for numbers are not included.
-/

namespace OpenSan.Foundation.Number

def isSpace (c : Char) : Bool :=
  c == ' ' || c == '\t' || c == '\n' || c == '\x0b' || c == '\x0c' || c == '\r'

def strip (text : List Char) : List Char :=
  ((text.dropWhile isSpace).reverse.dropWhile isSpace).reverse

def sign : List Char → Int × List Char
  | '-' :: rest => (-1, rest)
  | '+' :: rest => (1, rest)
  | rest => (1, rest)

def digitsValue (digits : List Char) : Nat := Nat.ofDigitChars 10 digits 0

def hexValue (c : Char) : Option Nat :=
  if Pattern.digit c then some (c.toNat - '0'.toNat)
  else if 'a' ≤ c ∧ c ≤ 'f' then some (c.toNat - 'a'.toNat + 10)
  else if 'A' ≤ c ∧ c ≤ 'F' then some (c.toNat - 'A'.toNat + 10)
  else none

def hexadecimal : List Char → Option Nat
  | '0' :: x :: digits =>
      if (x = 'x' ∨ x = 'X') ∧ digits ≠ [] then
        digits.foldl (fun value c => do pure (16 * (← value) + (← hexValue c))) (some 0)
      else none
  | _ => none

def exponent : List Char → Option Int
  | [] => some 0
  | e :: rest =>
      if (e = 'e' ∨ e = 'E') ∧ (sign rest).2 ≠ [] ∧ (sign rest).2.all Pattern.digit then
        some ((sign rest).1 * digitsValue (sign rest).2)
      else none

def fraction : List Char → List Char × List Char
  | '.' :: rest => (rest.takeWhile Pattern.digit, rest.dropWhile Pattern.digit)
  | rest => ([], rest)

def decimal (text : List Char) : Option ℚ :=
  let whole := text.takeWhile Pattern.digit
  let (part, rest) := fraction (text.dropWhile Pattern.digit)
  if whole = [] ∧ part = [] then none
  else (exponent rest).map fun e : Int =>
    (digitsValue (whole ++ part) : ℚ) * 10 ^ (e - (part.length : Int))

def tonumber (text : String) : Option ℚ :=
  let (factor, magnitude) := sign (strip text.toList)
  ((hexadecimal magnitude).map Nat.cast).or (decimal magnitude) |>.map (factor * ·)

/-! ## Plain numbers -/

theorem digitsValue_toString (n : Nat) : digitsValue (toString n).toList = n := by
  rw [digitsValue, Nat.toString_eq_ofList_toDigits, String.toList_ofList]
  exact Nat.ofDigitChars_ten_toDigits

section Digits

variable {text : List Char}

theorem isSpace_of_digit {c : Char} (h : Pattern.digit c = true) :
    isSpace c = false := by
  by_contra hspace
  simp only [isSpace, Bool.not_eq_false, Bool.or_eq_true, beq_iff_eq] at hspace
  rcases hspace with ((((rfl | rfl) | rfl) | rfl) | rfl) | rfl <;> revert h <;> decide

private theorem dropWhile_eq_self {p : Char → Bool} (h : ∀ c ∈ text, p c = false) :
    text.dropWhile p = text := by
  cases text with
  | nil => rfl
  | cons c text => rw [List.dropWhile_cons_of_neg (by simp [h c])]

private theorem strip_digits (h : ∀ c ∈ text, Pattern.digit c = true) :
    strip text = text := by
  have hspace : ∀ c ∈ text, isSpace c = false := fun c hc => isSpace_of_digit (h c hc)
  have hreverse : ∀ c ∈ text.reverse, isSpace c = false := by simpa using hspace
  rw [strip, dropWhile_eq_self hspace, dropWhile_eq_self hreverse, List.reverse_reverse]

private theorem sign_digits (h : ∀ c ∈ text, Pattern.digit c = true) :
    sign text = (1, text) := by
  unfold sign
  split
  · exact absurd (h '-' (by simp)) (by decide)
  · exact absurd (h '+' (by simp)) (by decide)
  · rfl

private theorem hexadecimal_digits (h : ∀ c ∈ text, Pattern.digit c = true) :
    hexadecimal text = none := by
  unfold hexadecimal
  split
  · rename_i x digits
    have hx := h x (by simp)
    rw [if_neg]
    rintro ⟨rfl | rfl, _⟩ <;> revert hx <;> decide
  · rfl

private theorem decimal_digits (h : ∀ c ∈ text, Pattern.digit c = true) (hne : text ≠ []) :
    decimal text = some (digitsValue text : ℚ) := by
  have htake : text.takeWhile Pattern.digit = text := List.takeWhile_eq_self_iff.mpr h
  have hdrop : text.dropWhile Pattern.digit = [] := List.dropWhile_eq_nil_iff.mpr h
  simp [decimal, htake, hdrop, fraction, exponent, hne]

end Digits

theorem tonumber_of_digits {text : String} (h : ∀ c ∈ text.toList, Pattern.digit c = true)
    (hne : text.toList ≠ []) : tonumber text = some (digitsValue text.toList : ℚ) := by
  simp [tonumber, strip_digits h, sign_digits h, hexadecimal_digits h, decimal_digits h hne]

theorem tonumber_neg_of_digits {text : List Char} (h : ∀ c ∈ text, Pattern.digit c = true)
    (hne : text ≠ []) :
    tonumber (String.ofList ('-' :: text)) = some (-(digitsValue text : ℚ)) := by
  have hspace : ∀ c ∈ '-' :: text, isSpace c = false := by
    intro c hc
    rcases List.mem_cons.mp hc with rfl | hin
    · rfl
    · exact isSpace_of_digit (h c hin)
  have hreverse : ∀ c ∈ ('-' :: text).reverse, isSpace c = false := by
    intro c hc
    exact hspace c (List.mem_reverse.mp hc)
  have hstrip : strip ('-' :: text) = '-' :: text := by
    rw [strip, dropWhile_eq_self hspace, dropWhile_eq_self hreverse, List.reverse_reverse]
  simp [tonumber, hstrip, sign, hexadecimal_digits h, decimal_digits h hne]

theorem tonumber_toString (n : Nat) : tonumber (toString n) = some (n : ℚ) := by
  have hne : (toString n).toList ≠ [] := by
    rw [Nat.toString_eq_ofList_toDigits, String.toList_ofList]
    exact Nat.toDigits_ne_nil
  rw [tonumber_of_digits (fun _ => Pattern.digit_toString) hne, digitsValue_toString]

end OpenSan.Foundation.Number
