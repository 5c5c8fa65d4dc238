import Mathlib.Data.List.DropRight
import OpenSan.Foundation.Number
import OpenSan.Foundation.Rounding

/-!
# Texts of numbers

`tostring` of a number as `%.14g` writes it: 14 significant decimal digits, no
zeros at the end of a fraction, and an exponent when it is below -4 or above 13.
Infinities are not included.  `decimal` reads the decimal that was written, which
is the given number where that has no more than 14 digits.  A reader of Lua takes
the double next to it.
-/

namespace OpenSan.Foundation.Number

/-- The 14 digits of a positive number, as a whole number, and its exponent. -/
def significand (x : ℚ) : Nat × Int :=
  let e := Int.log 10 x
  let m := wholeNearest (x * 10 ^ (13 - e))
  if m = 10 ^ 14 then (10 ^ 13, e + 1) else (m, e)

def stripZeros (digits : List Char) : List Char := digits.rdropWhile (· == '0')

def pointed (whole part : List Char) : List Char :=
  whole ++ if part = [] then [] else '.' :: part

def twoDigits (n : Nat) : List Char :=
  (if n < 10 then ['0'] else []) ++ (toString n).toList

def exponentText (e : Int) : List Char :=
  ['e', if e < 0 then '-' else '+'] ++ twoDigits e.natAbs

def significandText (m : Nat) (e : Int) : List Char :=
  let digits := (toString m).toList
  if e < -4 ∨ 14 ≤ e then
    pointed (digits.take 1) (stripZeros (digits.drop 1)) ++ exponentText e
  else if 0 ≤ e then
    pointed (digits.take (e.toNat + 1)) (stripZeros (digits.drop (e.toNat + 1)))
  else pointed ['0'] (List.replicate (-e - 1).toNat '0' ++ stripZeros digits)

def positiveText (x : ℚ) : List Char := significandText (significand x).1 (significand x).2

def tostring (x : ℚ) : List Char :=
  if x = 0 then ['0'] else if x < 0 then '-' :: positiveText (-x) else positiveText x

def positiveRounded (x : ℚ) : ℚ := (significand x).1 * 10 ^ ((significand x).2 - 13)

def rounded (x : ℚ) : ℚ :=
  if x = 0 then 0 else if x < 0 then -positiveRounded (-x) else positiveRounded x

/-- The double that is read where the number was written. -/
def restored (x : ℚ) : ℚ := double (rounded x)

/-! ## Fourteen digits -/

theorem significand_range {x : ℚ} (h : 0 < x) :
    10 ^ 13 ≤ (significand x).1 ∧ (significand x).1 < 10 ^ 14 := by
  have hlow : (10 : ℚ) ^ Int.log 10 x ≤ x := by
    simpa using Int.zpow_log_le_self (b := 10) (by norm_num) h
  have hhigh : x < (10 : ℚ) ^ (Int.log 10 x + 1) := by
    simpa using Int.lt_zpow_succ_log_self (b := 10) (by norm_num) x
  have hpos : (0 : ℚ) < 10 ^ (13 - Int.log 10 x) := zpow_pos (by norm_num) _
  have hleast : (10 ^ 13 : ℕ) ≤ x * 10 ^ (13 - Int.log 10 x) := by
    have hmul := mul_le_mul_of_nonneg_right hlow hpos.le
    rw [← zpow_add₀ (by norm_num)] at hmul
    calc ((10 ^ 13 : ℕ) : ℚ) = 10 ^ (Int.log 10 x + (13 - Int.log 10 x)) := by
          rw [add_sub_cancel]
          norm_num
      _ ≤ x * 10 ^ (13 - Int.log 10 x) := hmul
  have hmost : x * 10 ^ (13 - Int.log 10 x) < (10 ^ 14 : ℕ) := by
    have hmul := mul_lt_mul_of_pos_right hhigh hpos
    rw [← zpow_add₀ (by norm_num)] at hmul
    calc x * 10 ^ (13 - Int.log 10 x) < 10 ^ (Int.log 10 x + 1 + (13 - Int.log 10 x)) := hmul
      _ = ((10 ^ 14 : ℕ) : ℚ) := by
          rw [show Int.log 10 x + 1 + (13 - Int.log 10 x) = 14 by ring]
          norm_num
  have hfloorLow : 10 ^ 13 ≤ ⌊x * 10 ^ (13 - Int.log 10 x)⌋₊ := Nat.le_floor hleast
  have hfloorHigh : ⌊x * 10 ^ (13 - Int.log 10 x)⌋₊ < 10 ^ 14 :=
    (Nat.floor_lt (by positivity)).mpr hmost
  have hnear : wholeNearest (x * 10 ^ (13 - Int.log 10 x)) =
        ⌊x * 10 ^ (13 - Int.log 10 x)⌋₊ ∨
      wholeNearest (x * 10 ^ (13 - Int.log 10 x)) =
        ⌊x * 10 ^ (13 - Int.log 10 x)⌋₊ + 1 := by
    unfold wholeNearest
    split
    · exact .inl rfl
    · exact .inr rfl
  unfold significand
  dsimp only
  split
  · norm_num
  · rcases hnear with h | h <;> omega

theorem digits_length {m : Nat} (hlow : 10 ^ 13 ≤ m) (hhigh : m < 10 ^ 14) :
    (toString m).toList.length = 14 := by
  rw [Nat.toString_eq_ofList_toDigits, String.toList_ofList]
  have hmost := (Nat.length_toDigits_le_iff (b := 10) (n := m) (k := 14) (by omega)
    (by omega)).mpr hhigh
  have hleast : ¬(Nat.toDigits 10 m).length ≤ 13 := fun hshort =>
    absurd ((Nat.length_toDigits_le_iff (by omega) (by omega)).mp hshort) (by omega)
  omega

/-! ## What is written is read -/

theorem stripZeros_append (digits : List Char) :
    ∃ zeros, digits = stripZeros digits ++ List.replicate zeros '0' := by
  induction digits using List.reverseRecOn with
  | nil => exact ⟨0, rfl⟩
  | append_singleton digits c ih =>
      by_cases hzero : c = '0'
      · obtain ⟨zeros, hdigits⟩ := ih
        refine ⟨zeros + 1, ?_⟩
        rw [stripZeros, List.rdropWhile_concat_pos _ _ _ (by simp [hzero]), hzero]
        rw [List.replicate_succ', ← List.append_assoc]
        exact congrArg (· ++ ['0']) hdigits
      · refine ⟨0, ?_⟩
        rw [stripZeros, List.rdropWhile_concat_neg _ _ _ (by simp [hzero])]
        simp

theorem digitsValue_stripZeros (whole part : List Char) :
    (digitsValue (whole ++ part) : ℚ) =
      digitsValue (whole ++ stripZeros part) * 10 ^ (part.length - (stripZeros part).length) := by
  obtain ⟨zeros, hpart⟩ := stripZeros_append part
  have hlength : part.length - (stripZeros part).length = zeros := by
    have hsize := congrArg List.length hpart
    rw [List.length_append, List.length_replicate] at hsize
    omega
  have hvalue : digitsValue (whole ++ part) =
      10 ^ zeros * digitsValue (whole ++ stripZeros part) := by
    conv_lhs => rw [hpart]
    rw [← List.append_assoc, digitsValue, Nat.ofDigitChars_append,
      Nat.ofDigitChars_replicate_zero]
    rfl
  rw [hvalue, hlength]
  push_cast
  ring

theorem twoDigits_digits {n : Nat} {c : Char} (hc : c ∈ twoDigits n) :
    Pattern.digit c = true := by
  rcases List.mem_append.mp hc with hzero | hin
  · split at hzero
    · obtain rfl : c = '0' := by simpa using hzero
      rfl
    · simp at hzero
  · exact Pattern.digit_toString hin

theorem digitsValue_twoDigits (n : Nat) : digitsValue (twoDigits n) = n := by
  unfold twoDigits
  split
  · have hzero : Nat.ofDigitChars 10 ['0'] 0 = 0 := rfl
    rw [digitsValue, Nat.ofDigitChars_append, hzero]
    exact digitsValue_toString n
  · exact digitsValue_toString n

theorem exponent_exponentText (e : Int) : exponent (exponentText e) = some e := by
  have hne : twoDigits e.natAbs ≠ [] := by
    rw [twoDigits, Nat.toString_eq_ofList_toDigits, String.toList_ofList]
    simp [Nat.toDigits_ne_nil]
  have hall : (twoDigits e.natAbs).all Pattern.digit = true :=
    List.all_eq_true.mpr fun c hc => twoDigits_digits hc
  unfold exponentText
  rw [List.cons_append, List.cons_append, List.nil_append, exponent]
  split
  · simp only [sign, hall, digitsValue_twoDigits, ne_eq, hne, not_false_eq_true, true_or,
      true_and, if_true]
    rw [show (-1 : Int) * e.natAbs = e by omega]
  · simp only [sign, hall, digitsValue_twoDigits, ne_eq, hne, not_false_eq_true, true_or,
      true_and, if_true]
    rw [show (1 : Int) * e.natAbs = e by omega]

theorem exponent_nil : exponent [] = some 0 := rfl

theorem span_append {accepts : Char → Bool} {run rest : List Char}
    (hrun : ∀ c ∈ run, accepts c = true) (hrest : ∀ c ∈ rest.head?, accepts c = false) :
    (run ++ rest).takeWhile accepts = run ∧ (run ++ rest).dropWhile accepts = rest := by
  rw [List.takeWhile_append_of_pos hrun, List.dropWhile_append_of_pos hrun]
  cases rest with
  | nil => simp
  | cons c rest => simp [hrest c (by simp)]

theorem decimal_pointed {whole part tail : List Char} {e : Int}
    (hwhole : ∀ c ∈ whole, Pattern.digit c = true) (hne : whole ≠ [])
    (hpart : ∀ c ∈ part, Pattern.digit c = true) (htail : exponent tail = some e)
    (hstop : ∀ c ∈ tail.head?, Pattern.digit c = false ∧ c ≠ '.') :
    decimal (pointed whole part ++ tail) =
      some ((digitsValue (whole ++ part) : ℚ) * 10 ^ (e - part.length)) := by
  have hstopDigit : ∀ c ∈ tail.head?, Pattern.digit c = false := fun c hc => (hstop c hc).1
  unfold pointed decimal
  by_cases hempty : part = []
  · subst hempty
    have hfraction : fraction tail = ([], tail) := by
      unfold fraction
      split
      · exact absurd rfl (hstop '.' (by simp)).2
      · rfl
    obtain ⟨htake, hdrop⟩ := span_append hwhole hstopDigit
    simp [htake, hdrop, hfraction, hne, htail]
  · have hpoint : ∀ c ∈ ('.' :: (part ++ tail)).head?, Pattern.digit c = false := by
      simp [show Pattern.digit '.' = false from rfl]
    obtain ⟨htake, hdrop⟩ := span_append hwhole hpoint
    obtain ⟨htakePart, hdropPart⟩ := span_append hpart hstopDigit
    have hfraction : fraction ('.' :: (part ++ tail)) = (part, tail) := by
      simp [fraction, htakePart, hdropPart]
    simp [hempty, htake, hdrop, hfraction, hne, htail]

theorem stripped_value {m : Nat} {whole part : List Char}
    (hdigits : (toString m).toList = whole ++ part) :
    (digitsValue (whole ++ stripZeros part) : ℚ) * 10 ^ (-((stripZeros part).length : Int)) =
      m * 10 ^ (-(part.length : Int)) := by
  have hshort : (stripZeros part).length ≤ part.length :=
    (List.rdropWhile_prefix _ _).length_le
  have hvalue := digitsValue_stripZeros whole part
  rw [← hdigits, digitsValue_toString, ← zpow_natCast, Nat.cast_sub hshort] at hvalue
  rw [hvalue, mul_assoc, ← zpow_add₀ (by norm_num)]
  congr 2
  ring

theorem stripZeros_digits {part : List Char} (h : ∀ c ∈ part, Pattern.digit c = true) :
    ∀ c ∈ stripZeros part, Pattern.digit c = true :=
  fun c hc => h c ((List.rdropWhile_prefix _ _).subset hc)

theorem decimal_significandText {m : Nat} (hlength : (toString m).toList.length = 14)
    (e : Int) : decimal (significandText m e) = some ((m : ℚ) * 10 ^ (e - 13)) := by
  have hdigits : ∀ c ∈ (toString m).toList, Pattern.digit c = true :=
    fun c hc => Pattern.digit_toString hc
  have htake : ∀ k, ∀ c ∈ (toString m).toList.take k, Pattern.digit c = true :=
    fun k c hc => hdigits c (List.take_subset k _ hc)
  have hdrop : ∀ k, ∀ c ∈ stripZeros ((toString m).toList.drop k), Pattern.digit c = true :=
    fun k => stripZeros_digits fun c hc => hdigits c (List.drop_subset k _ hc)
  have hne : ∀ k, (toString m).toList.take (k + 1) ≠ [] := fun k hnil => by
    have hzero := congrArg List.length hnil
    rw [List.length_take, hlength] at hzero
    simp at hzero
  have hvalue : ∀ k, (digitsValue ((toString m).toList.take k ++
      stripZeros ((toString m).toList.drop k)) : ℚ) *
        10 ^ (-((stripZeros ((toString m).toList.drop k)).length : Int)) =
      m * 10 ^ (-((14 - k : Nat) : Int)) := by
    intro k
    have hstripped := stripped_value (List.take_append_drop k (toString m).toList).symm
    rwa [List.length_drop, hlength] at hstripped
  unfold significandText
  dsimp only
  split
  · rw [decimal_pointed (htake 1) (hne 0) (hdrop 1) (exponent_exponentText e)
      (by simp [exponentText, show Pattern.digit 'e' = false from rfl]), sub_eq_add_neg,
      zpow_add₀ (by norm_num), mul_left_comm, hvalue 1, mul_left_comm,
      ← zpow_add₀ (by norm_num)]
    rfl
  · split
    · rename_i hfixed hpos
      have hone := decimal_pointed (htake (e.toNat + 1)) (hne e.toNat) (hdrop (e.toNat + 1))
        exponent_nil (by simp)
      rw [List.append_nil, zero_sub, hvalue (e.toNat + 1)] at hone
      rw [hone]
      congr 3
      omega
    · rename_i hfixed hneg
      have hzeros : ∀ c ∈ List.replicate (-e - 1).toNat '0' ++ stripZeros (toString m).toList,
          Pattern.digit c = true := by
        intro c hc
        rcases List.mem_append.mp hc with hzero | hin
        · rw [List.eq_of_mem_replicate hzero]
          rfl
        · exact stripZeros_digits hdigits c hin
      have hzero : ∀ c ∈ ['0'], Pattern.digit c = true := by simp; rfl
      have hone := decimal_pointed hzero (by simp) hzeros exponent_nil (by simp)
      have hnumber : digitsValue (['0'] ++ (List.replicate (-e - 1).toNat '0' ++
          stripZeros (toString m).toList)) = digitsValue (stripZeros (toString m).toList) := by
        rw [← List.append_assoc, ← List.replicate_one, List.replicate_append_replicate,
          digitsValue, Nat.ofDigitChars_append, Nat.ofDigitChars_replicate_zero, Nat.mul_zero]
        rfl
      have hwhole := hvalue 0
      rw [List.take_zero, List.drop_zero, List.nil_append] at hwhole
      rw [List.append_nil, hnumber, List.length_append, List.length_replicate] at hone
      have hexponent : (0 : Int) - (((-e - 1).toNat + (stripZeros (toString m).toList).length :
          Nat) : Int) = -((stripZeros (toString m).toList).length : Int) + (e + 1) := by
        push_cast
        omega
      rw [hone, hexponent, zpow_add₀ (by norm_num), ← mul_assoc, hwhole, mul_assoc,
        ← zpow_add₀ (by norm_num)]
      congr 3
      omega

theorem decimal_positiveText {x : ℚ} (h : 0 < x) :
    decimal (positiveText x) = some (positiveRounded x) := by
  obtain ⟨hlow, hhigh⟩ := significand_range h
  exact decimal_significandText (digits_length hlow hhigh) _

/-! ## Numbers of no more than 14 digits -/

def HasDigits (x : ℚ) : Prop := ∃ (m : Nat) (k : Int), m < 10 ^ 14 ∧ |x| = m * 10 ^ k

theorem positiveRounded_eq {x : ℚ} (h : 0 < x) (hdigits : HasDigits x) :
    positiveRounded x = x := by
  obtain ⟨m, k, hm, hx⟩ := hdigits
  rw [abs_of_pos h] at hx
  have hlow : (10 : ℚ) ^ Int.log 10 x ≤ x := by
    simpa using Int.zpow_log_le_self (b := 10) (by norm_num) h
  have hhigh : x < (10 : ℚ) ^ (Int.log 10 x + 1) := by
    simpa using Int.lt_zpow_succ_log_self (b := 10) (by norm_num) x
  have hone : (1 : ℚ) < 10 := by norm_num
  -- The exponent of the last digit is not above that of the digits given.
  have hexponent : 0 ≤ k + (13 - Int.log 10 x) := by
    have hbound : x < 10 ^ (14 + k) := by
      rw [hx, zpow_add₀ (by norm_num)]
      exact mul_lt_mul_of_pos_right (by exact_mod_cast hm) (zpow_pos (by norm_num) _)
    have hlt := (zpow_lt_zpow_iff_right₀ hone).mp (hlow.trans_lt hbound)
    omega
  obtain ⟨shift, hshift⟩ := Int.eq_ofNat_of_zero_le hexponent
  have hscaled : x * 10 ^ (13 - Int.log 10 x) = ((m * 10 ^ shift : Nat) : ℚ) := by
    have hproduct : x * 10 ^ (13 - Int.log 10 x) = m * 10 ^ k * 10 ^ (13 - Int.log 10 x) :=
      congrArg (· * _) hx
    rw [hproduct, mul_assoc, ← zpow_add₀ (by norm_num), hshift]
    push_cast
    rfl
  have hbelow : m * 10 ^ shift < 10 ^ 14 := by
    have hmul := mul_lt_mul_of_pos_right hhigh
      (zpow_pos (by norm_num : (0 : ℚ) < 10) (13 - Int.log 10 x))
    rw [hscaled, ← zpow_add₀ (by norm_num),
      show Int.log 10 x + 1 + (13 - Int.log 10 x) = (14 : Nat) by push_cast; ring] at hmul
    exact_mod_cast hmul
  unfold positiveRounded significand
  dsimp only
  rw [hscaled, wholeNearest_natCast, if_neg (by omega), ← hscaled, mul_assoc,
    ← zpow_add₀ (by norm_num), show 13 - Int.log 10 x + (Int.log 10 x - 13) = 0 by ring,
    zpow_zero, mul_one]

theorem rounded_eq {x : ℚ} (h : HasDigits x) : rounded x = x := by
  unfold rounded
  split
  · rename_i hzero
    exact hzero.symm
  · split
    · rename_i hneg
      have hopposite : HasDigits (-x) := by simpa [HasDigits] using h
      rw [positiveRounded_eq (by linarith) hopposite, neg_neg]
    · rename_i hne hnonneg
      exact positiveRounded_eq (lt_of_le_of_ne (not_lt.mp hnonneg) (Ne.symm hne)) h

theorem hasDigits_natCast {n : Nat} (h : n < 10 ^ 14) : HasDigits n :=
  ⟨n, 0, h, by simp⟩

theorem restored_natCast {n : Nat} (h : n < 10 ^ 14) : restored n = n := by
  have hsmall : n ≤ 2 ^ 53 := h.le.trans (by norm_num)
  rw [restored, rounded_eq (hasDigits_natCast h), double_of_nonneg (Nat.cast_nonneg n),
    positiveDouble_natCast hsmall]

/-- The double next to 0.1 comes back, though it has more than 14 digits itself. -/
example : restored (double (1 / 10)) = double (1 / 10) ∧ double (1 / 10) ≠ 1 / 10 := by
  decide +kernel

/-! ## The word of a number -/

def isMantissa (c : Char) : Bool := Pattern.digit c || c == '.'

def isName (c : Char) : Bool := Pattern.alphanumeric c || c == '_'

/-- What a reader of Lua takes for one number: digits and points, an exponent with
its sign, and then anything that could be part of a name. -/
def numeral (text : List Char) : List Char × List Char :=
  let mantissa := text.takeWhile isMantissa
  let rest := text.dropWhile isMantissa
  let mark := if rest.head? = some 'e' ∨ rest.head? = some 'E' then rest.take 1 else []
  let rest := rest.drop mark.length
  let direction :=
    if mark ≠ [] ∧ (rest.head? = some '+' ∨ rest.head? = some '-') then rest.take 1 else []
  let rest := rest.drop direction.length
  (mantissa ++ mark ++ direction ++ rest.takeWhile isName, rest.dropWhile isName)

def Delimited (rest : List Char) : Prop :=
  ∀ c ∈ rest.head?, isName c = false ∧ c ≠ '.'

instance (rest : List Char) : Decidable (Delimited rest) :=
  inferInstanceAs (Decidable (∀ c ∈ rest.head?, _))

theorem isMantissa_eq_false {c : Char} (h : isName c = false) (hpoint : c ≠ '.') :
    isMantissa c = false := by
  simp only [isName, Pattern.alphanumeric, Bool.or_eq_false_iff] at h
  simp [isMantissa, h.1.1.1, hpoint]

theorem numeral_mantissa {mantissa rest : List Char}
    (hmantissa : ∀ c ∈ mantissa, isMantissa c = true) (hrest : Delimited rest) :
    numeral (mantissa ++ rest) = (mantissa, rest) := by
  obtain ⟨htake, hdrop⟩ := span_append hmantissa
    fun c hc => isMantissa_eq_false (hrest c hc).1 (hrest c hc).2
  have hmark : ¬(rest.head? = some 'e' ∨ rest.head? = some 'E') := by
    rintro (he | he) <;> exact absurd (hrest _ he).1 (by decide)
  have hnone : ∀ c ∈ ([] : List Char), isName c = true := by simp
  obtain ⟨hname, hafter⟩ := span_append hnone fun c hc => (hrest c hc).1
  rw [List.nil_append] at hname hafter
  simp [numeral, htake, hdrop, hmark, hname, hafter]

theorem numeral_exponent {mantissa rest : List Char} {e : Int}
    (hmantissa : ∀ c ∈ mantissa, isMantissa c = true) (hrest : Delimited rest) :
    numeral (mantissa ++ exponentText e ++ rest) = (mantissa ++ exponentText e, rest) := by
  have hstop : ∀ c ∈ (exponentText e ++ rest).head?, isMantissa c = false := by
    simp [exponentText, show isMantissa 'e' = false from rfl]
  obtain ⟨htake, hdrop⟩ := span_append hmantissa hstop
  have hdigits : ∀ c ∈ twoDigits e.natAbs, isName c = true := by
    intro c hc
    simp [isName, Pattern.alphanumeric, twoDigits_digits hc]
  obtain ⟨hname, hafter⟩ := span_append hdigits fun c hc => (hrest c hc).1
  rw [List.append_assoc, numeral, htake, hdrop]
  unfold exponentText
  split <;> simp_all

theorem significandText_shape {m : Nat} (hlength : (toString m).toList.length = 14) (e : Int) :
    ∃ mantissa, (significandText m e = mantissa ∨
        significandText m e = mantissa ++ exponentText e) ∧
      (∀ c ∈ mantissa, isMantissa c = true) ∧
      ∃ c rest, mantissa = c :: rest ∧ Pattern.digit c = true := by
  have hdigits : ∀ c ∈ (toString m).toList, Pattern.digit c = true :=
    fun c hc => Pattern.digit_toString hc
  have hmantissa : ∀ {whole part : List Char}, (∀ c ∈ whole, Pattern.digit c = true) →
      (∀ c ∈ part, Pattern.digit c = true) → ∀ c ∈ pointed whole part, isMantissa c = true := by
    intro whole part hwhole hpart c hc
    rcases List.mem_append.mp hc with hin | hin
    · simp [isMantissa, hwhole c hin]
    · split at hin
      · simp at hin
      · rcases List.mem_cons.mp hin with rfl | hin
        · rfl
        · simp [isMantissa, hpart c hin]
  have hfirst : ∀ {whole part : List Char}, whole ≠ [] → (∀ c ∈ whole, Pattern.digit c = true) →
      ∃ c rest, pointed whole part = c :: rest ∧ Pattern.digit c = true := by
    intro whole part hne hwhole
    cases whole with
    | nil => exact absurd rfl hne
    | cons c whole => exact ⟨c, _, rfl, hwhole c (by simp)⟩
  have htake : ∀ k, ∀ c ∈ (toString m).toList.take k, Pattern.digit c = true :=
    fun k c hc => hdigits c (List.take_subset k _ hc)
  have hdrop : ∀ k, ∀ c ∈ stripZeros ((toString m).toList.drop k), Pattern.digit c = true :=
    fun k => stripZeros_digits fun c hc => hdigits c (List.drop_subset k _ hc)
  have hne : ∀ k, (toString m).toList.take (k + 1) ≠ [] := fun k hnil => by
    have hzero := congrArg List.length hnil
    rw [List.length_take, hlength] at hzero
    simp at hzero
  unfold significandText
  dsimp only
  split
  · exact ⟨_, .inr rfl, hmantissa (htake 1) (hdrop 1), hfirst (hne 0) (htake 1)⟩
  · split
    · exact ⟨_, .inl rfl, hmantissa (htake _) (hdrop _), hfirst (hne e.toNat) (htake _)⟩
    · have hzero : ∀ c ∈ ['0'], Pattern.digit c = true := by simp; rfl
      refine ⟨_, .inl rfl, hmantissa hzero ?_, hfirst (by simp) hzero⟩
      intro c hc
      rcases List.mem_append.mp hc with hin | hin
      · rw [List.eq_of_mem_replicate hin]
        rfl
      · exact stripZeros_digits hdigits c hin

theorem positiveText_shape {x : ℚ} (h : 0 < x) :
    ∃ mantissa e, (positiveText x = mantissa ∨ positiveText x = mantissa ++ exponentText e) ∧
      (∀ c ∈ mantissa, isMantissa c = true) ∧
      ∃ c rest, mantissa = c :: rest ∧ Pattern.digit c = true := by
  obtain ⟨hlow, hhigh⟩ := significand_range h
  obtain ⟨mantissa, hshape⟩ := significandText_shape (digits_length hlow hhigh) (significand x).2
  exact ⟨mantissa, _, hshape⟩

theorem numeral_positiveText {x : ℚ} (h : 0 < x) {rest : List Char} (hrest : Delimited rest) :
    numeral (positiveText x ++ rest) = (positiveText x, rest) := by
  obtain ⟨mantissa, e, htext | htext, hmantissa, -⟩ := positiveText_shape h
  · rw [htext]
    exact numeral_mantissa hmantissa hrest
  · rw [htext]
    exact numeral_exponent hmantissa hrest

theorem positiveText_cons {x : ℚ} (h : 0 < x) :
    ∃ c rest, positiveText x = c :: rest ∧ Pattern.digit c = true := by
  obtain ⟨mantissa, e, htext, -, c, rest, rfl, hdigit⟩ := positiveText_shape h
  rcases htext with htext | htext
  · exact ⟨c, rest, htext, hdigit⟩
  · exact ⟨c, _, htext, hdigit⟩

/-! ## Reading a number in a text -/

def magnitude (word : List Char) : Option ℚ :=
  ((hexadecimal word).map Nat.cast).or (decimal word)

def readNumber (text : List Char) : Option (ℚ × List Char) :=
  (magnitude (numeral text).1).map fun x => (double x, (numeral text).2)

theorem hexadecimal_eq_none {text : List Char} (h : ∀ c ∈ text, c ≠ 'x' ∧ c ≠ 'X') :
    hexadecimal text = none := by
  unfold hexadecimal
  split
  · rename_i x digits
    have hx := h x (by simp)
    rw [if_neg]
    rintro ⟨rfl | rfl, -⟩
    · exact hx.1 rfl
    · exact hx.2 rfl
  · rfl

theorem positiveText_ne_x {x : ℚ} (h : 0 < x) :
    ∀ c ∈ positiveText x, c ≠ 'x' ∧ c ≠ 'X' := by
  obtain ⟨mantissa, e, htext, hmantissa, -⟩ := positiveText_shape h
  have hplain : ∀ c, isMantissa c = true → c ≠ 'x' ∧ c ≠ 'X' := by
    rintro c hc
    constructor <;> rintro rfl <;> exact absurd hc (by decide)
  have hexponent : ∀ c ∈ exponentText e, c ≠ 'x' ∧ c ≠ 'X' := by
    intro c hc
    rcases List.mem_append.mp hc with hin | hin
    · split at hin <;> simp at hin <;> rcases hin with rfl | rfl <;> decide
    · exact hplain c (by simp [isMantissa, twoDigits_digits hin])
  intro c hc
  rcases htext with htext | htext
  · exact hplain c (hmantissa c (htext ▸ hc))
  · rw [htext, List.mem_append] at hc
    rcases hc with hin | hin
    · exact hplain c (hmantissa c hin)
    · exact hexponent c hin

theorem readNumber_positiveText {x : ℚ} (h : 0 < x) {rest : List Char}
    (hrest : Delimited rest) :
    readNumber (positiveText x ++ rest) = some (double (positiveRounded x), rest) := by
  simp [readNumber, numeral_positiveText h hrest, magnitude,
    hexadecimal_eq_none (positiveText_ne_x h), decimal_positiveText h]

theorem readNumber_zero {rest : List Char} (hrest : Delimited rest) :
    readNumber ('0' :: rest) = some (0, rest) := by
  have hdigit : ∀ c ∈ ['0'], isMantissa c = true := by simp; rfl
  have hword := numeral_mantissa hdigit hrest
  rw [List.singleton_append] at hword
  have hzero : magnitude ['0'] = some 0 := by
    simp [magnitude, hexadecimal, decimal, fraction, exponent, digitsValue,
      show Pattern.digit '0' = true from rfl, Nat.ofDigitChars]
  simp [readNumber, hword, hzero]

end OpenSan.Foundation.Number
