import Mathlib.Data.List.Shortlex
import Mathlib.Order.Fin.Basic
import Mathlib.Tactic.Ring

/-!
# Bijective numeration

Words over `b` digits stand for the natural numbers when the digits count from
1 to `b`.  The first digit of a word is the most significant one, and the words
of one length take the numbers between the first word of that length and the
first word of the next.
-/

namespace OpenSan.Foundation.Numeration

variable {b : Nat}

def value : List (Fin b) → Nat
  | [] => 0
  | digit :: digits => (digit.val + 1) * b ^ digits.length + value digits

def first (b : Nat) : Nat → Nat
  | 0 => 0
  | length + 1 => b ^ length + first b length

theorem value_concat (digits : List (Fin b)) (digit : Fin b) :
    value (digits ++ [digit]) = b * value digits + (digit.val + 1) := by
  induction digits with
  | nil => simp [value]
  | cons top digits ih =>
      rw [List.cons_append, value, ih, value, List.length_append, List.length_singleton,
        pow_succ]
      ring

/-! ## The numbers of one length -/

theorem first_le (digits : List (Fin b)) : first b digits.length ≤ value digits := by
  induction digits with
  | nil => simp [first]
  | cons digit digits ih =>
      have htop : b ^ digits.length ≤ (digit.val + 1) * b ^ digits.length :=
        Nat.le_mul_of_pos_left _ (by omega)
      simp only [List.length_cons, first, value]
      omega

theorem lt_first (digits : List (Fin b)) :
    value digits < first b (digits.length + 1) := by
  induction digits with
  | nil => simp [first, value]
  | cons digit digits ih =>
      have htop : (digit.val + 1) * b ^ digits.length ≤ b ^ (digits.length + 1) := by
        rw [pow_succ, mul_comm]
        exact Nat.mul_le_mul_left _ (by omega)
      simp only [List.length_cons, first, value] at ih ⊢
      omega

theorem first_mono {m n : Nat} (h : m ≤ n) : first b m ≤ first b n := by
  induction h with
  | refl => exact Nat.le_refl _
  | step _ ih =>
      rw [first]
      omega

theorem value_pos {digits : List (Fin b)} (h : digits ≠ []) : 0 < value digits := by
  cases digits with
  | nil => exact absurd rfl h
  | cons digit digits =>
      have hpow : 0 < b ^ digits.length := Nat.pow_pos digit.pos
      simp only [value]
      positivity

/-! ## The order of the words -/

theorem value_lt_of_length {digits digits' : List (Fin b)}
    (h : digits.length < digits'.length) : value digits < value digits' := by
  have hlast := lt_first digits
  have hstep : first b (digits.length + 1) ≤ first b digits'.length := first_mono h
  have hfirst := first_le digits'
  omega

theorem value_lt_of_lex {digits digits' : List (Fin b)}
    (hlength : digits.length = digits'.length) (h : List.Lex (· < ·) digits digits') :
    value digits < value digits' := by
  induction h with
  | nil => simp at hlength
  | cons _ ih =>
      have hlength' := Nat.succ.inj hlength
      simp only [value, hlength']
      have hrest := ih hlength'
      omega
  | @rel digit rest digit' rest' hlt =>
      have hlength' : rest.length = rest'.length := Nat.succ.inj hlength
      have hlast := lt_first rest
      have hfirst := first_le rest'
      have htop : (digit.val + 1) * b ^ rest'.length + b ^ rest'.length ≤
          (digit'.val + 1) * b ^ rest'.length := by
        rw [← Nat.succ_mul]
        exact Nat.mul_le_mul_right _ (Nat.succ_le_succ hlt)
      simp only [value, hlength', first] at hlast ⊢
      omega

theorem value_lt_of_shortlex {digits digits' : List (Fin b)}
    (h : List.Shortlex (· < ·) digits digits') : value digits < value digits' := by
  rcases List.shortlex_def.mp h with hlength | ⟨hlength, hlex⟩
  · exact value_lt_of_length hlength
  · exact value_lt_of_lex hlength hlex

theorem shortlex_total (digits digits' : List (Fin b)) :
    List.Shortlex (· < ·) digits digits' ∨ digits = digits' ∨
      List.Shortlex (· < ·) digits' digits := by
  by_contra hnone
  simp only [not_or] at hnone
  exact hnone.2.1 (Std.Trichotomous.trichotomous (r := List.Shortlex (· < ·)) digits digits'
    hnone.1 hnone.2.2)

theorem value_lt_iff {digits digits' : List (Fin b)} :
    value digits < value digits' ↔ List.Shortlex (· < ·) digits digits' := by
  constructor
  · intro hlt
    rcases shortlex_total digits digits' with h | rfl | h
    · exact h
    · omega
    · have hback := value_lt_of_shortlex h
      omega
  · exact value_lt_of_shortlex

theorem value_injective : Function.Injective (value (b := b)) := by
  intro digits digits' heq
  rcases shortlex_total digits digits' with h | h | h
  · have hlt := value_lt_of_shortlex h
    omega
  · exact h
  · have hlt := value_lt_of_shortlex h
    omega

theorem value_surjective (hb : 0 < b) : Function.Surjective (value (b := b)) := by
  intro number
  induction number using Nat.strong_induction_on with
  | _ number ih =>
      cases number with
      | zero => exact ⟨[], rfl⟩
      | succ number =>
          have hrest : number / b < number + 1 :=
            Nat.lt_succ_of_le (Nat.div_le_self number b)
          obtain ⟨digits, hdigits⟩ := ih (number / b) hrest
          refine ⟨digits ++ [⟨number % b, Nat.mod_lt number hb⟩], ?_⟩
          have hdivmod := Nat.div_add_mod number b
          simp only [value_concat, hdigits]
          omega

end OpenSan.Foundation.Numeration
