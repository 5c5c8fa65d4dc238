import Mathlib.Algebra.Order.Field.Power
import Mathlib.Algebra.Order.Ring.Rat
import Mathlib.Data.Int.Log
import Mathlib.Data.Rat.Floor
import Mathlib.Tactic.FieldSimp
import Mathlib.Tactic.Linarith
import Mathlib.Tactic.NormNum
import Mathlib.Tactic.Ring

/-!
# The doubles next to numbers

A number is rounded to the nearest double: to 53 binary digits, fewer below
`2 ^ -1022`, and to even in the middle.  The range has no upper end here, so
that a rounded number is the double as long as that is finite.  Whole numbers up
to `2 ^ 53` are kept, and so is what the floor of a quotient of them is.
-/

namespace OpenSan.Foundation.Number

/-- The nearest whole number, the even one in the middle. -/
def wholeNearest (x : ℚ) : Nat :=
  if x - ⌊x⌋₊ < 1 / 2 ∨ (x - ⌊x⌋₊ = 1 / 2 ∧ ⌊x⌋₊ % 2 = 0) then ⌊x⌋₊ else ⌊x⌋₊ + 1

def unit (x : ℚ) : ℚ := 2 ^ max (Int.log 2 x - 52) (-1074)

def positiveDouble (x : ℚ) : ℚ := wholeNearest (x / unit x) * unit x

def double (x : ℚ) : ℚ := if x < 0 then -positiveDouble (-x) else positiveDouble x

/-- `x % y` of Lua 5.1: each operation of it is rounded, the floor needs none. -/
def remainder (x y : ℚ) : ℚ := double (x - double (⌊double (x / y)⌋ * y))

/-! ## Nearest whole numbers -/

theorem wholeNearest_natCast (n : Nat) : wholeNearest n = n := by simp [wholeNearest]

theorem le_wholeNearest {x : ℚ} {k : Nat} (h : (k : ℚ) ≤ x) : k ≤ wholeNearest x := by
  have hfloor : k ≤ ⌊x⌋₊ := Nat.le_floor h
  unfold wholeNearest
  split
  · exact hfloor
  · exact Nat.le_succ_of_le hfloor

theorem wholeNearest_le {x : ℚ} {k : Nat} (hx : 0 ≤ x) (h : x ≤ k) : wholeNearest x ≤ k := by
  have hfloor : ⌊x⌋₊ ≤ k := Nat.floor_le_of_le h
  unfold wholeNearest
  split
  · exact hfloor
  · rename_i hfraction
    -- Above the middle the number is no whole number, so it is below the bound.
    by_contra hlarge
    obtain rfl : ⌊x⌋₊ = k := by omega
    have hwhole : x = ⌊x⌋₊ := le_antisymm h (Nat.floor_le hx)
    refine hfraction (.inl ?_)
    linarith

theorem abs_wholeNearest_sub_le {x : ℚ} (hx : 0 ≤ x) : |(wholeNearest x : ℚ) - x| ≤ 1 / 2 := by
  have hlow := Nat.floor_le hx
  have hhigh := Nat.lt_floor_add_one x
  unfold wholeNearest
  split
  · rename_i hfraction
    rw [abs_le]
    rcases hfraction with hless | ⟨heq, -⟩
    · exact ⟨by linarith, by linarith⟩
    · exact ⟨by linarith, by linarith⟩
  · rename_i hfraction
    have hmore : 1 / 2 ≤ x - ⌊x⌋₊ := by
      by_contra hless
      exact hfraction (.inl (not_le.mp hless))
    push_cast
    rw [abs_le]
    exact ⟨by linarith, by linarith⟩

/-! ## The grid of the doubles -/

theorem unit_pos (x : ℚ) : 0 < unit x := zpow_pos (by norm_num) _

theorem le_positiveDouble {x : ℚ} {k : Nat} (h : k * unit x ≤ x) :
    k * unit x ≤ positiveDouble x := by
  have hunit := unit_pos x
  have hle := le_wholeNearest ((le_div_iff₀ hunit).mpr h)
  exact mul_le_mul_of_nonneg_right (by exact_mod_cast hle) hunit.le

theorem positiveDouble_le {x : ℚ} {k : Nat} (hx : 0 ≤ x) (h : x ≤ k * unit x) :
    positiveDouble x ≤ k * unit x := by
  have hunit := unit_pos x
  have hle := wholeNearest_le (div_nonneg hx hunit.le) ((div_le_iff₀ hunit).mpr h)
  exact mul_le_mul_of_nonneg_right (by exact_mod_cast hle) hunit.le

theorem abs_positiveDouble_sub_le {x : ℚ} (hx : 0 ≤ x) :
    |positiveDouble x - x| ≤ unit x / 2 := by
  have hunit := unit_pos x
  have hnear := abs_wholeNearest_sub_le (div_nonneg hx hunit.le)
  have hsplit : positiveDouble x - x = (wholeNearest (x / unit x) - x / unit x) * unit x := by
    rw [sub_mul, div_mul_cancel₀ _ hunit.ne']
    rfl
  rw [hsplit, abs_mul, abs_of_pos hunit]
  calc |(wholeNearest (x / unit x) : ℚ) - x / unit x| * unit x ≤ 1 / 2 * unit x :=
        mul_le_mul_of_nonneg_right hnear hunit.le
    _ = unit x / 2 := by ring

theorem positiveDouble_zero : positiveDouble 0 = 0 := by
  have hzero := wholeNearest_natCast 0
  rw [Nat.cast_zero] at hzero
  simp [positiveDouble, hzero]

theorem positiveDouble_nonneg (x : ℚ) : 0 ≤ positiveDouble x :=
  mul_nonneg (Nat.cast_nonneg _) (unit_pos x).le

/-! ## Quotients of whole numbers -/

section Quotient

variable {a b : Nat} (ha : a ≤ 2 ^ 53) (hpos : 0 < a) (hb : 0 < b) (hb' : b ≤ 2 ^ 53)

include ha hpos hb hb'

private theorem quotient_unit :
    unit (a / b) = 2 ^ (Int.log 2 ((a : ℚ) / b) - 52) ∧
      (2 : ℚ) ^ Int.log 2 ((a : ℚ) / b) ≤ a / b ∧ Int.log 2 ((a : ℚ) / b) ≤ 53 := by
  have hquotient : (0 : ℚ) < a / b := by positivity
  have hlow : (2 : ℚ) ^ Int.log 2 ((a : ℚ) / b) ≤ a / b := by
    simpa using Int.zpow_log_le_self (b := 2) (by norm_num) hquotient
  have hhigh : (a : ℚ) / b < 2 ^ (Int.log 2 ((a : ℚ) / b) + 1) := by
    simpa using Int.lt_zpow_succ_log_self (b := 2) (by norm_num) ((a : ℚ) / b)
  have hone : (1 : ℚ) < 2 := by norm_num
  have hleast : (2 : ℚ) ^ (-53 : ℤ) ≤ a / b := by
    rw [zpow_neg, ← one_div]
    exact div_le_div₀ (by positivity) (by exact_mod_cast hpos) (by positivity)
      (by exact_mod_cast hb')
  have hmost : (a : ℚ) / b ≤ 2 ^ (53 : ℤ) := by
    rw [div_le_iff₀ (by positivity)]
    calc (a : ℚ) ≤ 2 ^ (53 : ℤ) * 1 := by rw [mul_one]; exact_mod_cast ha
      _ ≤ 2 ^ (53 : ℤ) * b := by gcongr; exact_mod_cast hb
  have hbelow := (zpow_lt_zpow_iff_right₀ hone).mp (hleast.trans_lt hhigh)
  have habove := (zpow_le_zpow_iff_right₀ hone).mp (hlow.trans hmost)
  refine ⟨?_, hlow, habove⟩
  rw [unit, max_eq_left (by omega)]

/-- A quotient that is a power of two is a double. -/
private theorem positiveDouble_power
    (h : (a : ℚ) / b = 2 ^ Int.log 2 ((a : ℚ) / b)) : positiveDouble (a / b) = a / b := by
  obtain ⟨hunit, -, -⟩ := quotient_unit ha hpos hb hb'
  have hgrid : ((2 ^ 52 : Nat) : ℚ) * unit (a / b) = a / b := by
    rw [hunit, zpow_sub₀ (by norm_num), ← h]
    push_cast
    ring
  have hquotient : (0 : ℚ) ≤ a / b := by positivity
  refine le_antisymm ?_ ?_
  · exact (positiveDouble_le hquotient hgrid.ge).trans_eq hgrid
  · exact hgrid.symm.trans_le (le_positiveDouble hgrid.le)

private theorem exists_grid (hlog : Int.log 2 ((a : ℚ) / b) ≤ 52) (n : Nat) :
    ∃ k : Nat, (n : ℚ) = k * unit (a / b) := by
  obtain ⟨hunit, -, -⟩ := quotient_unit ha hpos hb hb'
  obtain ⟨j, hj⟩ := Int.eq_ofNat_of_zero_le (sub_nonneg.mpr hlog)
  refine ⟨n * 2 ^ j, ?_⟩
  have hexponent : Int.log 2 ((a : ℚ) / b) - 52 = -(j : ℤ) := by
    change 52 - Int.log 2 ((a : ℚ) / b) = (j : ℤ) at hj
    omega
  rw [hunit, hexponent, zpow_neg, zpow_natCast]
  push_cast
  rw [mul_assoc, mul_inv_cancel₀ (by positivity), mul_one]

private theorem log_le_of_ne (h : (a : ℚ) / b ≠ 2 ^ Int.log 2 ((a : ℚ) / b)) :
    (2 : ℚ) ^ Int.log 2 ((a : ℚ) / b) < a / b ∧ Int.log 2 ((a : ℚ) / b) ≤ 52 := by
  obtain ⟨-, hlow, hlog⟩ := quotient_unit ha hpos hb hb'
  have hstrict := lt_of_le_of_ne hlow (Ne.symm h)
  refine ⟨hstrict, ?_⟩
  by_contra hlarge
  have htop : Int.log 2 ((a : ℚ) / b) = 53 := by omega
  rw [htop, lt_div_iff₀ (by positivity)] at hstrict
  have hone : (1 : ℚ) ≤ b := by exact_mod_cast hb
  have hsize : (a : ℚ) ≤ 2 ^ (53 : ℤ) := by exact_mod_cast ha
  nlinarith

/-- Rounding moves a quotient by less than its distance to a whole number. -/
private theorem abs_positiveDouble_sub_lt
    (hstrict : (2 : ℚ) ^ Int.log 2 ((a : ℚ) / b) < a / b) :
    |positiveDouble (a / b) - a / b| < 1 / b := by
  obtain ⟨hunit, -, -⟩ := quotient_unit ha hpos hb hb'
  have hquotient : (0 : ℚ) ≤ a / b := by positivity
  have hsmall : unit (a / b) / 2 < (a : ℚ) / b / 2 ^ 53 := by
    rw [hunit, zpow_sub₀ (by norm_num), lt_div_iff₀ (by positivity)]
    calc (2 : ℚ) ^ Int.log 2 ((a : ℚ) / b) / 2 ^ (52 : ℤ) / 2 * 2 ^ 53 =
        2 ^ Int.log 2 ((a : ℚ) / b) := by rw [zpow_ofNat]; ring
      _ < a / b := hstrict
  refine (abs_positiveDouble_sub_le hquotient).trans_lt (hsmall.trans_le ?_)
  rw [div_div, div_le_div_iff₀ (by positivity) (by positivity), one_mul, mul_comm (b : ℚ)]
  exact mul_le_mul_of_nonneg_right (by exact_mod_cast ha) (by positivity)

omit ha hpos hb' in
private theorem le_abs_natCast_sub {k : Nat} (hne : (a : ℚ) / b ≠ k) :
    1 / (b : ℚ) ≤ |(k : ℚ) - a / b| := by
  have hpositive : (0 : ℚ) < b := by exact_mod_cast hb
  have hscaled : (k : ℚ) - a / b = ((k * b - a : ℤ) : ℚ) / b := by
    push_cast
    field_simp
  have hnonzero : (k * b - a : ℤ) ≠ 0 := by
    intro hzero
    refine hne ?_
    rw [hzero, Int.cast_zero, zero_div] at hscaled
    linarith
  rw [hscaled, abs_div, abs_of_pos hpositive]
  gcongr
  rw [← Int.cast_abs]
  exact_mod_cast Int.one_le_abs hnonzero

private theorem positiveDouble_compare (k : Nat) :
    ((a : ℚ) / b < k → positiveDouble (a / b) < k) ∧
      (k < (a : ℚ) / b → k < positiveDouble (a / b)) ∧
      ((a : ℚ) / b = k → positiveDouble (a / b) = k) := by
  have hquotient : (0 : ℚ) ≤ a / b := by positivity
  by_cases hpower : (a : ℚ) / b = 2 ^ Int.log 2 ((a : ℚ) / b)
  · rw [positiveDouble_power ha hpos hb hb' hpower]
    exact ⟨id, id, id⟩
  · obtain ⟨hstrict, hlog⟩ := log_le_of_ne ha hpos hb hb' hpower
    obtain ⟨j, hj⟩ := exists_grid ha hpos hb hb' hlog k
    have hdiffer (hne : (a : ℚ) / b ≠ k) : positiveDouble (a / b) ≠ k := by
      intro heq
      have hfar := le_abs_natCast_sub hb hne
      rw [← heq] at hfar
      exact absurd (abs_positiveDouble_sub_lt ha hpos hb hb' hstrict) (not_lt.mpr hfar)
    refine ⟨fun hless => ?_, fun hmore => ?_, fun hequal => ?_⟩
    · refine lt_of_le_of_ne ?_ (hdiffer hless.ne)
      rw [hj] at hless ⊢
      exact positiveDouble_le hquotient hless.le
    · refine lt_of_le_of_ne ?_ (Ne.symm (hdiffer hmore.ne'))
      rw [hj] at hmore ⊢
      exact le_positiveDouble hmore.le
    · refine le_antisymm ?_ ?_
      · rw [hj] at hequal ⊢
        exact positiveDouble_le hquotient hequal.le
      · rw [hj] at hequal ⊢
        exact le_positiveDouble hequal.ge

end Quotient

/-- A quotient and its double lie on the same side of each whole number. -/
theorem natCast_le_positiveDouble_iff {a b k : Nat} (ha : a ≤ 2 ^ 53) (hb : 0 < b)
    (hb' : b ≤ 2 ^ 53) :
    ((k : ℚ) ≤ positiveDouble (a / b) ↔ (k : ℚ) ≤ a / b) ∧
      (positiveDouble (a / b) ≤ k ↔ (a : ℚ) / b ≤ k) := by
  rcases Nat.eq_zero_or_pos a with rfl | hpos
  · simp [positiveDouble_zero]
  · obtain ⟨hbelow, habove, hequal⟩ := positiveDouble_compare ha hpos hb hb' k
    rcases lt_trichotomy ((a : ℚ) / b) k with hless | heq | hmore
    · exact ⟨iff_of_false (not_le.mpr (hbelow hless)) (not_le.mpr hless),
        iff_of_true (hbelow hless).le hless.le⟩
    · exact ⟨iff_of_true (hequal heq).ge heq.ge, iff_of_true (hequal heq).le heq.le⟩
    · exact ⟨iff_of_true (habove hmore).le hmore.le,
        iff_of_false (not_le.mpr (habove hmore)) (not_le.mpr hmore)⟩

theorem positiveDouble_natCast {n : Nat} (h : n ≤ 2 ^ 53) : positiveDouble n = n := by
  have hboth := @natCast_le_positiveDouble_iff n 1 n h one_pos (by norm_num)
  rw [Nat.cast_one, div_one] at hboth
  exact le_antisymm (hboth.2.mpr le_rfl) (hboth.1.mpr le_rfl)

theorem double_neg (x : ℚ) : double (-x) = -double x := by
  rcases lt_trichotomy x 0 with hneg | rfl | hpos
  · rw [double, double, if_neg (by linarith), if_pos hneg, neg_neg]
  · simp [double, positiveDouble_zero]
  · rw [double, double, if_pos (by linarith), if_neg (by linarith), neg_neg]

theorem double_of_nonneg {x : ℚ} (h : 0 ≤ x) : double x = positiveDouble x :=
  if_neg (not_lt.mpr h)

@[simp] theorem double_zero : double 0 = 0 :=
  (double_of_nonneg le_rfl).trans positiveDouble_zero

theorem double_intCast {n : ℤ} (h : |n| ≤ 2 ^ 53) : double n = n := by
  have hnat : ∀ m : Nat, m ≤ 2 ^ 53 → double m = m := fun m hm => by
    rw [double_of_nonneg (Nat.cast_nonneg m), positiveDouble_natCast hm]
  obtain ⟨m, rfl | rfl⟩ := n.eq_nat_or_neg
  · rw [Nat.abs_cast] at h
    exact_mod_cast hnat m (by exact_mod_cast h)
  · rw [abs_neg, Nat.abs_cast] at h
    rw [Int.cast_neg, double_neg]
    exact_mod_cast congrArg Neg.neg (hnat m (by exact_mod_cast h))

theorem floor_double_div {x y : ℤ} (hx : |x| ≤ 2 ^ 53) (hy : |y| ≤ 2 ^ 53) (hne : y ≠ 0) :
    ⌊double ((x : ℚ) / y)⌋ = ⌊(x : ℚ) / y⌋ := by
  rw [Int.abs_eq_natAbs] at hx hy
  have hsizeX : x.natAbs ≤ 2 ^ 53 := by exact_mod_cast hx
  have hsizeY : y.natAbs ≤ 2 ^ 53 := by exact_mod_cast hy
  have hpos : 0 < y.natAbs := Int.natAbs_pos.mpr hne
  have hsame := fun k => @natCast_le_positiveDouble_iff x.natAbs y.natAbs k hsizeX hpos hsizeY
  have hquotient : (0 : ℚ) ≤ x.natAbs / y.natAbs := by positivity
  have habs : |(x : ℚ) / y| = x.natAbs / y.natAbs := by
    rw [abs_div, Nat.cast_natAbs, Nat.cast_natAbs, Int.cast_abs, Int.cast_abs]
  refine eq_of_forall_le_iff fun n => ?_
  rw [Int.le_floor, Int.le_floor]
  rcases le_or_gt 0 ((x : ℚ) / y) with hnonneg | hneg
  · rw [abs_of_nonneg hnonneg] at habs
    rw [double_of_nonneg hnonneg, habs]
    rcases le_or_gt 0 n with hn | hn
    · obtain ⟨k, rfl⟩ := Int.eq_ofNat_of_zero_le hn
      exact_mod_cast (hsame k).1
    · have hless : (n : ℚ) < 0 := by exact_mod_cast hn
      exact iff_of_true (hless.le.trans (positiveDouble_nonneg _)) (hless.le.trans hquotient)
  · rw [abs_of_neg hneg] at habs
    have hminus : (x : ℚ) / y = -(x.natAbs / y.natAbs) := by linarith
    have hflip : ∀ t : ℚ, (n : ℚ) ≤ -t ↔ t ≤ -n := fun t => le_neg
    rw [hminus, double_neg, double_of_nonneg hquotient, hflip, hflip]
    rcases le_or_gt n 0 with hn | hn
    · obtain ⟨k, hk⟩ := Int.eq_ofNat_of_zero_le (neg_nonneg.mpr hn)
      have hcast : -(n : ℚ) = k := by exact_mod_cast hk
      rw [hcast]
      exact (hsame k).2
    · have hless : -(n : ℚ) < 0 := by
        rw [neg_lt_zero]
        exact_mod_cast hn
      exact iff_of_false (not_le.mpr (hless.trans_le (positiveDouble_nonneg _)))
        (not_le.mpr (hless.trans_le hquotient))

theorem floor_div {x y : ℤ} (hne : y ≠ 0) : ⌊(x : ℚ) / y⌋ = x.fdiv y := by
  have hcast : (x : ℚ) = y * x.fdiv y + x.fmod y := by
    exact_mod_cast (Int.mul_fdiv_add_fmod x y).symm
  have hne' : (y : ℚ) ≠ 0 := by exact_mod_cast hne
  have hsplit : (x : ℚ) / y = x.fdiv y + x.fmod y / y := by
    rw [hcast]
    field_simp
  rw [hsplit, Int.floor_eq_iff]
  rcases lt_or_gt_of_ne hne with hneg | hpos
  · have hlow := Int.fmod_nonneg_of_pos (-x) (show 0 < -y by omega)
    have hhigh := Int.fmod_lt_of_pos (-x) (show 0 < -y by omega)
    rw [Int.neg_fmod_neg] at hlow hhigh
    have hdivisor : (y : ℚ) < 0 := by exact_mod_cast hneg
    have hfirst : (0 : ℚ) ≤ x.fmod y / y :=
      div_nonneg_of_nonpos (by exact_mod_cast (show x.fmod y ≤ 0 by omega)) hdivisor.le
    have hsecond : (x.fmod y : ℚ) / y < 1 := by
      rw [div_lt_one_of_neg hdivisor]
      exact_mod_cast (show y < x.fmod y by omega)
    exact ⟨by linarith, by linarith⟩
  · have hlow := Int.fmod_nonneg_of_pos x hpos
    have hhigh := Int.fmod_lt_of_pos x hpos
    have hdivisor : (0 : ℚ) < y := by exact_mod_cast hpos
    have hfirst : (0 : ℚ) ≤ x.fmod y / y := div_nonneg (by exact_mod_cast hlow) hdivisor.le
    have hsecond : (x.fmod y : ℚ) / y < 1 := by
      rw [div_lt_one hdivisor]
      exact_mod_cast hhigh
    exact ⟨by linarith, by linarith⟩

theorem remainder_intCast {x y : ℤ} (hx : |x| ≤ 2 ^ 53) (hy : |y| ≤ 2 ^ 53) (hne : y ≠ 0)
    (hproduct : |x.fdiv y * y| ≤ 2 ^ 53) (hremainder : |x.fmod y| ≤ 2 ^ 53) :
    remainder x y = x.fmod y := by
  rw [remainder, floor_double_div hx hy hne, floor_div hne]
  have hexact := double_intCast hproduct
  push_cast at hexact
  rw [hexact]
  have hdifference : ((x : ℚ) - x.fdiv y * y) = (x.fmod y : ℤ) := by
    rw [Int.fmod_def]
    push_cast
    ring
  rw [hdifference, double_intCast hremainder]

end OpenSan.Foundation.Number
