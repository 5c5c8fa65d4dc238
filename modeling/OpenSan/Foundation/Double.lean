import Mathlib.Data.List.DropRight
import Mathlib.Data.Nat.Log
import Mathlib.Tactic.Linarith
import Mathlib.Tactic.Ring
import OpenSan.Foundation.Pattern

/-!
# Doubles that are integers

The numbers of the interpreter as far as sums and products of integers go.
A result is rounded to 53 binary digits, to even in the middle, and becomes an
infinity from `2 ^ 1024` on.  `tostring` writes 14 decimal digits, as `%.14g`
does.
-/

namespace OpenSan.Foundation

inductive Double where
  | finite (value : Int)
  | infinity (negative : Bool)
  | nan
  deriving DecidableEq

namespace Double

/-- The multiple of the unit that is nearest, in units. -/
def nearest (n unit : Nat) : Nat :=
  if 2 * (n % unit) < unit ∨ (2 * (n % unit) = unit ∧ n / unit % 2 = 0) then n / unit
  else n / unit + 1

def round (n : Nat) : Nat :=
  let unit := 2 ^ (Nat.log 2 n - 52)
  nearest n unit * unit

def ofInt (value : Int) : Double :=
  let size := round value.natAbs
  if Nat.log 2 size < 1024 then .finite (value.sign * size) else .infinity (value < 0)

def add : Double → Double → Double
  | .finite x, .finite y => ofInt (x + y)
  | .finite _, .infinity negative => .infinity negative
  | .infinity negative, .finite _ => .infinity negative
  | .infinity negative, .infinity negative' =>
      if negative = negative' then .infinity negative else .nan
  | _, _ => .nan

def mul : Double → Double → Double
  | .finite x, .finite y => ofInt (x * y)
  | .finite x, .infinity negative =>
      if x = 0 then .nan else .infinity (negative != decide (x < 0))
  | .infinity negative, .finite x =>
      if x = 0 then .nan else .infinity (negative != decide (x < 0))
  | .infinity negative, .infinity negative' => .infinity (negative != negative')
  | _, _ => .nan

def scientific (n : Nat) : String :=
  let exponent := Nat.log 10 n
  let mantissa := nearest n (10 ^ (exponent - 13))
  let digits := (toString mantissa).toList
  let fraction := digits.tail.rdropWhile (· == '0')
  String.ofList (digits.take 1 ++ (if fraction = [] then [] else '.' :: fraction) ++ ['e', '+'])
    ++ toString (if mantissa = 10 ^ 14 then exponent + 1 else exponent)

def digitsText (n : Nat) : String := if n < 10 ^ 14 then toString n else scientific n

def toText : Double → String
  | .finite value => (if value < 0 then "-" else "") ++ digitsText value.natAbs
  | .infinity negative => if negative then "-inf" else "inf"
  | .nan => "nan"

/-! ## Where the numbers are exact -/

theorem le_nearest (n unit : Nat) : n / unit ≤ nearest n unit := by
  unfold nearest
  split
  · exact Nat.le_refl _
  · exact Nat.le_succ _

theorem round_eq {n : Nat} (h : n < 2 ^ 53) : round n = n := by
  have hlog : Nat.log 2 n ≤ 52 := Nat.le_of_lt_succ (Nat.log_lt_of_lt_pow' (by omega) h)
  have hunit : Nat.log 2 n - 52 = 0 := by omega
  simp [round, nearest, hunit, Nat.mod_one]

theorem le_round {n : Nat} (h : 2 ^ 53 ≤ n) : 2 ^ 53 ≤ round n := by
  have hne : n ≠ 0 := by omega
  have hlog : 53 ≤ Nat.log 2 n := Nat.le_log_of_pow_le (by omega) h
  have hpow : 2 ^ Nat.log 2 n ≤ n := Nat.pow_log_le_self 2 hne
  have hsplit : 2 ^ Nat.log 2 n = 2 ^ 52 * 2 ^ (Nat.log 2 n - 52) := by
    rw [← pow_add]
    congr 1
    omega
  have htop : 2 ^ 52 ≤ nearest n (2 ^ (Nat.log 2 n - 52)) := by
    refine le_trans ?_ (le_nearest _ _)
    rw [Nat.le_div_iff_mul_le (Nat.pow_pos (by decide)), ← hsplit]
    exact hpow
  have hunit : 2 ≤ 2 ^ (Nat.log 2 n - 52) := by
    calc 2 = 2 ^ 1 := rfl
      _ ≤ 2 ^ (Nat.log 2 n - 52) := Nat.pow_le_pow_right (by decide) (by omega)
  calc 2 ^ 53 = 2 ^ 52 * 2 := by decide
    _ ≤ round n := Nat.mul_le_mul htop hunit

def Close (n : Nat) (value : Int) : Prop :=
  n < 2 ^ 53 ∧ value = n ∨ 2 ^ 53 ≤ n ∧ 2 ^ 53 ≤ value

def Tracks (n : Nat) : Double → Prop
  | .finite value => Close n value
  | .infinity negative => 2 ^ 53 ≤ n ∧ negative = false
  | .nan => False

theorem close_self (n : Nat) : Close n n := by
  by_cases h : n < 2 ^ 53
  · exact .inl ⟨h, rfl⟩
  · refine .inr ⟨by omega, ?_⟩
    have hle : 2 ^ 53 ≤ n := by omega
    exact_mod_cast hle

theorem Close.add {m n : Nat} {x y : Int} (hx : Close m x) (hy : Close n y) :
    Close (m + n) (x + y) := by
  unfold Close at *
  omega

theorem Close.pos {n : Nat} {value : Int} (h : Close n value) (hn : 0 < n) : 0 < value := by
  unfold Close at h
  omega

theorem Close.mul {m n : Nat} {x y : Int} (hx : Close m x) (hy : Close n y) (hm : 0 < m)
    (hn : 0 < n) : Close (m * n) (x * y) := by
  have hxpos := hx.pos hm
  have hypos := hy.pos hn
  rcases hx with ⟨-, rfl⟩ | ⟨hmlarge, hxlarge⟩
  · rcases hy with ⟨-, rfl⟩ | ⟨hnlarge, hylarge⟩
    · rw [← Nat.cast_mul]
      exact close_self (m * n)
    · exact .inr ⟨by nlinarith, by nlinarith⟩
  · exact .inr ⟨by nlinarith, by nlinarith⟩

theorem tracks_ofInt {n : Nat} {value : Int} (h : Close n value) :
    Tracks n (ofInt value) := by
  rcases h with ⟨hsmall, rfl⟩ | ⟨hlarge, hvalue⟩
  · have hlog : Nat.log 2 n < 1024 :=
      lt_of_le_of_lt (Nat.le_of_lt_succ (Nat.log_lt_of_lt_pow' (by omega) hsmall)) (by decide)
    have hsize : (n : Int).sign * (n : Int) = n := by
      cases n with
      | zero => rfl
      | succ n => simp
    simp only [ofInt, Int.natAbs_natCast, round_eq hsmall, if_pos hlog, hsize]
    exact close_self n
  · have hround := le_round (n := value.natAbs) (by omega)
    have hsign : value.sign = 1 := Int.sign_eq_one_of_pos (by omega)
    simp only [ofInt, hsign, one_mul]
    split
    · exact .inr ⟨hlarge, by exact_mod_cast hround⟩
    · exact ⟨hlarge, by simpa using (show (0 : Int) ≤ value by omega)⟩

theorem Tracks.add {m n : Nat} {x y : Double} (hx : Tracks m x) (hy : Tracks n y) :
    Tracks (m + n) (add x y) := by
  cases x with
  | finite x =>
      cases y with
      | finite y => exact tracks_ofInt (Close.add hx hy)
      | infinity negative => exact ⟨le_trans hy.1 (Nat.le_add_left n m), hy.2⟩
      | nan => exact absurd hy id
  | infinity negative =>
      cases y with
      | finite y => exact ⟨le_trans hx.1 (Nat.le_add_right m n), hx.2⟩
      | infinity negative' =>
          obtain ⟨hlarge, rfl⟩ := hx
          obtain ⟨-, rfl⟩ := hy
          exact ⟨le_trans hlarge (Nat.le_add_right m n), rfl⟩
      | nan => exact absurd hy id
  | nan => exact absurd hx id

theorem Tracks.mul {m n : Nat} {x y : Double} (hx : Tracks m x) (hy : Tracks n y)
    (hm : 0 < m) (hn : 0 < n) : Tracks (m * n) (mul x y) := by
  cases x with
  | finite x =>
      have hxpos := Close.pos hx hm
      cases y with
      | finite y => exact tracks_ofInt (Close.mul hx hy hm hn)
      | infinity negative =>
          obtain ⟨hlarge, rfl⟩ := hy
          have hmul : Double.mul (.finite x) (.infinity false) = .infinity false := by
            simp [Double.mul, hxpos.ne', hxpos.le]
          rw [hmul]
          exact ⟨le_trans hlarge (Nat.le_mul_of_pos_left n hm), rfl⟩
      | nan => exact absurd hy id
  | infinity negative =>
      obtain ⟨hlarge, rfl⟩ := hx
      have hle : 2 ^ 53 ≤ m * n := le_trans hlarge (Nat.le_mul_of_pos_right m hn)
      cases y with
      | finite y =>
          have hypos := Close.pos hy hn
          have hmul : Double.mul (.infinity false) (.finite y) = .infinity false := by
            simp [Double.mul, hypos.ne', hypos.le]
          rw [hmul]
          exact ⟨hle, rfl⟩
      | infinity negative' =>
          obtain ⟨-, rfl⟩ := hy
          exact ⟨hle, rfl⟩
      | nan => exact absurd hy id
  | nan => exact absurd hx id

/-! ## Their texts -/

theorem e_mem_scientific (n : Nat) : 'e' ∈ (scientific n).toList := by
  simp only [scientific, String.toList_append, String.toList_ofList, List.mem_append]
  exact .inl (.inr List.mem_cons_self)

theorem toText_of_tracks {n : Nat} {x : Double} (hx : Tracks n x) (h : n < 10 ^ 14) :
    x.toText = toString n := by
  cases x with
  | finite value =>
      rcases hx with ⟨-, rfl⟩ | ⟨hlarge, -⟩
      · have hnot : ¬ (n : Int) < 0 := by omega
        simp only [toText, if_neg hnot, Int.natAbs_natCast, digitsText, if_pos h]
        rfl
      · omega
  | infinity negative =>
      have hlarge := hx.1
      omega
  | nan => exact absurd hx id

theorem toText_not_digits {n : Nat} {x : Double} (hx : Tracks n x) (h : 10 ^ 14 ≤ n) :
    ∃ c ∈ x.toText.toList, Pattern.digit c = false := by
  cases x with
  | finite value =>
      have hlarge : ¬ value.natAbs < 10 ^ 14 := by
        unfold Tracks Close at hx
        omega
      refine ⟨'e', ?_, by decide⟩
      simp only [toText, digitsText, if_neg hlarge, String.toList_append, List.mem_append]
      exact .inr (e_mem_scientific _)
  | infinity negative =>
      obtain ⟨-, rfl⟩ := hx
      exact ⟨'i', by decide, by decide⟩
  | nan => exact absurd hx id

end Double

end OpenSan.Foundation
