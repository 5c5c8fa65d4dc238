import Mathlib.Algebra.Order.Ring.Abs
import Mathlib.Algebra.Order.Ring.Int
import OpenSan.Foundation.Rounding
import OpenSan.Matrix.Sheet

/-!
# Greatest common divisors

`M.gcd` calls itself with `x % y`, which has the sign of `y`.  The absolute value
of the second argument falls with every call, and the arguments keep their common
divisors.  The layout counts with whole numbers.  The numbers of the interpreter
are doubles: on these the calls do the same as long as each product is exact.
-/

namespace OpenSan.Matrix

open OpenSan.Foundation

/-! ## Whole numbers -/

theorem natAbs_fmod_lt (x : Int) {y : Int} (hy : y ≠ 0) :
    (x.fmod y).natAbs < y.natAbs := by
  rcases lt_or_gt_of_ne hy with hneg | hpos
  · have hlow := Int.fmod_nonneg_of_pos (-x) (show 0 < -y by omega)
    have hhigh := Int.fmod_lt_of_pos (-x) (show 0 < -y by omega)
    rw [Int.neg_fmod_neg] at hlow hhigh
    omega
  · have hlow := Int.fmod_nonneg_of_pos x hpos
    have hhigh := Int.fmod_lt_of_pos x hpos
    omega

theorem gcd_fmod (x y : Int) : Int.gcd y (x.fmod y) = Int.gcd x y := by
  rw [Int.fmod_def, Int.gcd_sub_mul_left_right, Int.gcd_comm]

theorem gcdLoop_eq {fuel : Nat} {x y : Int} (h : y.natAbs < fuel) :
    gcdLoop fuel x y = Int.gcd x y := by
  induction fuel generalizing x y with
  | zero => omega
  | succ fuel ih =>
      unfold gcdLoop
      by_cases hy : y = 0
      · rw [if_pos hy, hy, Int.gcd_zero_right, Int.abs_eq_natAbs]
      · have hless := natAbs_fmod_lt x hy
        rw [if_neg hy, ih (by omega), gcd_fmod]

theorem gcd_eq (x y : Int) : gcd x y = Int.gcd x y := gcdLoop_eq (by omega)

theorem gcd_dvd_abs_mul (x y : Int) : (Int.gcd x y : Int) ∣ |x * y| := by
  rw [dvd_abs]
  exact (Int.gcd_dvd_left x y).mul_right y

theorem abs_mul_div_gcd (x y : Int) : |x * y| / Int.gcd x y = Int.lcm x y := by
  rw [Int.abs_eq_natAbs, ← Int.natCast_div, Int.natAbs_mul]
  rfl

theorem gcd_ne_zero {x y : Int} (hne : ¬ (x = 0 ∧ y = 0)) : Int.gcd x y ≠ 0 := by
  simpa [Int.gcd_eq_zero_iff] using hne

theorem lcm_eq (x y : Int) : lcm x y = Int.lcm x y := by
  unfold lcm
  by_cases h : x = 0 ∧ y = 0
  · simp [h]
  · rw [if_neg h, gcd_eq, abs_mul_div_gcd]

/-! ## Doubles -/

/-- A call of `M.gcd` that returns, with its result. -/
inductive GcdReturns : ℚ → ℚ → ℚ → Prop where
  | stop (x : ℚ) : GcdReturns x 0 |x|
  | call {x y result : ℚ} :
      y ≠ 0 → GcdReturns y (Number.remainder x y) result → GcdReturns x y result

/-- A call of `M.lcm` that returns, with its result. -/
inductive LcmReturns : ℚ → ℚ → ℚ → Prop where
  | zero : LcmReturns 0 0 0
  | divide {x y divisor : ℚ} :
      ¬ (x = 0 ∧ y = 0) → GcdReturns x y divisor →
      LcmReturns x y (Number.double (|Number.double (x * y)| / divisor))

theorem GcdReturns.unique {x y result other : ℚ} (h : GcdReturns x y result)
    (h' : GcdReturns x y other) : result = other := by
  induction h with
  | stop x =>
      cases h' with
      | stop => rfl
      | call hy _ => exact absurd rfl hy
  | call hy _ ih =>
      cases h' with
      | stop => exact absurd rfl hy
      | call _ hrest => exact ih hrest

/-- No product in the calls that follow has more than 53 binary digits. -/
structure Small (x y : Int) : Prop where
  first : |x| ≤ 2 ^ 53
  second : |y| ≤ 2 ^ 53
  product : 0 ≤ x * y ∨ |x| + |y| ≤ 2 ^ 53 + 1

theorem Small.product_le {x y : Int} (h : Small x y) (hy : y ≠ 0) :
    |x.fdiv y * y| ≤ 2 ^ 53 := by
  have hrest := natAbs_fmod_lt x hy
  have hsplit : x.fdiv y * y = x - x.fmod y := by
    have hdivision := Int.mul_fdiv_add_fmod x y
    rw [mul_comm] at hdivision
    omega
  obtain ⟨hx, -, hsigns | hsum⟩ := h
  · rw [Int.abs_eq_natAbs] at hx ⊢
    rcases lt_or_gt_of_ne hy with hneg | hpos
    · have hminus : x ≤ 0 := by
        by_contra hless
        nlinarith
      have hquotient := Int.fdiv_nonneg (show 0 ≤ -x by omega) (show 0 ≤ -y by omega)
      rw [Int.neg_fdiv_neg] at hquotient
      have hsign : x.fdiv y * y ≤ 0 := mul_nonpos_of_nonneg_of_nonpos hquotient hneg.le
      have hlow := Int.fmod_nonneg_of_pos (-x) (show 0 < -y by omega)
      rw [Int.neg_fmod_neg] at hlow
      omega
    · have hplus : 0 ≤ x := by
        by_contra hless
        nlinarith
      have hsign := mul_nonneg (Int.fdiv_nonneg hplus hpos.le) hpos.le
      have hlow := Int.fmod_nonneg_of_pos x hpos
      omega
  · rw [Int.abs_eq_natAbs] at hx ⊢
    rw [Int.abs_eq_natAbs, Int.abs_eq_natAbs] at hsum
    omega

theorem Small.remainder {x y : Int} (h : Small x y) (hy : y ≠ 0) :
    Number.remainder x y = x.fmod y ∧ Small y (x.fmod y) := by
  have hrest := natAbs_fmod_lt x hy
  obtain ⟨hx, hsecond, -⟩ := id h
  have hsmall : |x.fmod y| ≤ 2 ^ 53 := by
    rw [Int.abs_eq_natAbs] at hsecond ⊢
    omega
  refine ⟨Number.remainder_intCast hx hsecond hy (h.product_le hy) hsmall,
    hsecond, hsmall, .inl ?_⟩
  rcases lt_or_gt_of_ne hy with hneg | hpos
  · have hlow := Int.fmod_nonneg_of_pos (-x) (show 0 < -y by omega)
    rw [Int.neg_fmod_neg] at hlow
    exact mul_nonneg_of_nonpos_of_nonpos hneg.le (by omega)
  · exact mul_nonneg hpos.le (Int.fmod_nonneg_of_pos x hpos)

theorem gcdReturns_intCast {x y : Int} (h : Small x y) : GcdReturns x y (Int.gcd x y) := by
  induction hsize : y.natAbs using Nat.strong_induction_on generalizing x y with
  | _ size ih =>
      by_cases hy : y = 0
      · subst hy
        have habs : ((Int.gcd x 0 : Nat) : ℚ) = |(x : ℚ)| := by
          rw [Int.gcd_zero_right, Nat.cast_natAbs, Int.cast_abs]
        rw [habs, Int.cast_zero]
        exact .stop x
      · obtain ⟨hremainder, hnext⟩ := h.remainder hy
        have hcall := ih (x.fmod y).natAbs (by rw [← hsize]; exact natAbs_fmod_lt x hy) hnext rfl
        rw [gcd_fmod, ← hremainder] at hcall
        exact .call (by exact_mod_cast hy) hcall

theorem gcdReturns_iff {x y : Int} (h : Small x y) {result : ℚ} :
    GcdReturns x y result ↔ result = Int.gcd x y := by
  constructor
  · exact fun hreturns => hreturns.unique (gcdReturns_intCast h)
  · rintro rfl
    exact gcdReturns_intCast h

theorem small_of_product {x y : Int} (hx : |x| ≤ 2 ^ 53) (hy : |y| ≤ 2 ^ 53)
    (hproduct : |x * y| ≤ 2 ^ 53) : Small x y := by
  refine ⟨hx, hy, ?_⟩
  by_cases hzero : x * y = 0
  · exact .inl hzero.ge
  · have hfirst : 1 ≤ |x| := Int.one_le_abs (left_ne_zero_of_mul hzero)
    have hsecond : 1 ≤ |y| := Int.one_le_abs (right_ne_zero_of_mul hzero)
    rw [abs_mul] at hproduct
    exact .inr (by nlinarith)

theorem lcmReturns_iff {x y : Int} (hx : |x| ≤ 2 ^ 53) (hy : |y| ≤ 2 ^ 53)
    (hproduct : |x * y| ≤ 2 ^ 53) {result : ℚ} :
    LcmReturns x y result ↔ result = Int.lcm x y := by
  have hsmall := small_of_product hx hy hproduct
  have hquotient : ¬ (x = 0 ∧ y = 0) →
      Number.double (|Number.double (x * y)| / Int.gcd x y) = Int.lcm x y := by
    intro hne
    have hexact := Number.double_intCast hproduct
    rw [Int.cast_mul] at hexact
    have hlcm : ((Int.lcm x y : Int) : ℚ) * (Int.gcd x y : ℚ) = |(x : ℚ) * y| := by
      rw [← abs_mul_div_gcd]
      exact_mod_cast Int.ediv_mul_cancel (gcd_dvd_abs_mul x y)
    have hdivisor : ((Int.gcd x y : Nat) : ℚ) ≠ 0 := by exact_mod_cast gcd_ne_zero hne
    have hbound : |(Int.lcm x y : Int)| ≤ 2 ^ 53 := by
      rw [Nat.abs_cast, ← abs_mul_div_gcd]
      exact (Int.ediv_le_self _ (abs_nonneg _)).trans hproduct
    rw [hexact, ← hlcm, mul_div_cancel_right₀ _ hdivisor]
    exact_mod_cast Number.double_intCast hbound
  constructor
  · intro hreturns
    generalize hfirst : (x : ℚ) = first at hreturns
    generalize hsecond : (y : ℚ) = second at hreturns
    cases hreturns with
    | zero =>
        obtain rfl : x = 0 := by exact_mod_cast hfirst
        simp
    | divide hne hgcd =>
        subst hfirst hsecond
        rw [(gcdReturns_iff hsmall).mp hgcd]
        exact hquotient (by exact_mod_cast hne)
  · rintro rfl
    by_cases hzero : x = 0 ∧ y = 0
    · obtain ⟨rfl, rfl⟩ := hzero
      simpa using LcmReturns.zero
    · rw [← hquotient hzero]
      exact .divide (by exact_mod_cast hzero) (gcdReturns_intCast hsmall)

/-- On doubles `M.gcd` returns the greatest common divisor and `M.lcm` the least common
multiple, with a division that is exact, as long as no product is rounded. -/
theorem gcd_lcm_exact (x y : Int) (hx : |x| ≤ 2 ^ 53) (hy : |y| ≤ 2 ^ 53) :
    (0 ≤ x * y ∨ |x| + |y| ≤ 2 ^ 53 + 1 →
      ∀ result, GcdReturns x y result ↔ result = Int.gcd x y) ∧
    (|x * y| ≤ 2 ^ 53 →
      (∀ result, LcmReturns x y result ↔ result = Int.lcm x y) ∧
      (¬ (x = 0 ∧ y = 0) → GcdReturns x y (Int.gcd x y) ∧ Int.gcd x y ≠ 0 ∧
        Number.double (x * y) = x * y ∧ (Int.gcd x y : Int) ∣ |x * y|)) := by
  refine ⟨fun hsigns _ => gcdReturns_iff ⟨hx, hy, hsigns⟩, fun hproduct =>
    ⟨fun _ => lcmReturns_iff hx hy hproduct, fun hne => ?_⟩⟩
  refine ⟨gcdReturns_intCast (small_of_product hx hy hproduct), gcd_ne_zero hne, ?_,
    gcd_dvd_abs_mul x y⟩
  exact_mod_cast Number.double_intCast hproduct

theorem gcd_lcm_exact_mixed :
    (∀ result, GcdReturns (-6 : Int) (9 : Int) result ↔ result = Int.gcd (-6) 9) ∧
      ∀ result, LcmReturns (-6 : Int) (9 : Int) result ↔ result = Int.lcm (-6) 9 := by
  obtain ⟨hgcd, hlcm⟩ := gcd_lcm_exact (-6) 9 (by decide) (by decide)
  exact ⟨hgcd (.inr (by decide)), (hlcm (by decide)).1⟩

/-- A product that is rounded up to even gives a quotient with a fraction, and one that is
rounded to the dividend a divisor that divides nothing. -/
theorem gcd_lcm_not_exact :
    (∃ result, LcmReturns (104596065 : Int) (128588325 : Int) result ∧
      ∀ n : Int, result ≠ n) ∧
    ∃ result, GcdReturns (-2 ^ 53 : Int) (3 : Int) result ∧
      result ≠ Int.gcd (-2 ^ 53) 3 := by
  constructor
  · have hgcd : GcdReturns (104596065 : Int) (128588325 : Int) (15 : ℚ) := by
      have hreturns := @gcdReturns_intCast 104596065 128588325
        ⟨by decide, by decide, .inl (by decide)⟩
      exact hreturns
    refine ⟨_, .divide (by decide +kernel) hgcd, fun n hn => ?_⟩
    have hvalue : Number.double (|Number.double (((104596065 : Int) : ℚ) * (128588325 : Int))| /
        15) = 7173244159968599 / 8 := by
      decide +kernel
    rw [hvalue, div_eq_iff (by norm_num)] at hn
    have hwhole : (7173244159968599 : Int) = n * 8 := by exact_mod_cast hn
    omega
  · refine ⟨|3|, .call (by decide +kernel) ?_, by decide +kernel⟩
    have hzero : Number.remainder ((-2 ^ 53 : Int) : ℚ) (3 : Int) = 0 := by decide +kernel
    rw [hzero]
    exact .stop 3

end OpenSan.Matrix
