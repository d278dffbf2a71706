import Mathlib.Data.Int.Log
import Mathlib.Data.Rat.Floor

/-!
# Rounding to binary64

The number that a program reads from a decimal literal is the nearest one of the binary64 format,
and of two the one with the even last place. What is too large for the format is infinite.
-/

namespace AgentCockpit.Core.Binary64

/-- The nearest integer, and of two the even one. -/
def roundEven (x : ℚ) : ℤ :=
  if x - ⌊x⌋ < 1 / 2 then ⌊x⌋
  else if 1 / 2 < x - ⌊x⌋ then ⌊x⌋ + 1
  else ⌊x⌋ + ⌊x⌋ % 2

/-- Exponent of the last place: a significand has 53 bits, and no place is below `2 ^ -1074`. -/
def quantum (x : ℚ) : ℤ := max (Int.log 2 |x| - 52) (-1074)

/-- The number that a rational is read as, or `none` if that is infinite. -/
def round (x : ℚ) : Option ℚ :=
  let rounded : ℚ := roundEven (x / 2 ^ quantum x) * 2 ^ quantum x
  if |rounded| < 2 ^ 1024 then some rounded else none

theorem roundEven_intCast (n : ℤ) : roundEven n = n := by
  rw [roundEven, Int.floor_intCast, sub_self, if_pos (by norm_num)]

/-- The last place of such an integer is no place of a fraction. -/
theorem quantum_intCast_le {n : ℤ} (h : |n| < 2 ^ 53) : quantum n ≤ 0 := by
  have hlog : Int.log 2 |(n : ℚ)| < 53 := by
    by_cases hzero : n = 0
    · subst hzero
      rw [Int.cast_zero, abs_zero, Int.log_of_right_le_zero 2 le_rfl]
      norm_num
    · have hpos : (0 : ℚ) < |(n : ℚ)| := abs_pos.mpr (Int.cast_ne_zero.mpr hzero)
      apply (Int.lt_zpow_iff_log_lt (by norm_num) hpos).mp
      exact_mod_cast h
  apply max_le
  · omega
  · norm_num

/-- An integer of at most 53 bits is read exactly. -/
theorem round_intCast {n : ℤ} (h : |n| < 2 ^ 53) : round n = some (n : ℚ) := by
  obtain ⟨k, hk⟩ := Int.eq_ofNat_of_zero_le (neg_nonneg.mpr (quantum_intCast_le h))
  have hquantum : quantum n = -(k : ℤ) := by omega
  have hdivided : (n : ℚ) / 2 ^ quantum n = ((n * 2 ^ k : ℤ) : ℚ) := by
    rw [hquantum, zpow_neg, zpow_natCast, div_inv_eq_mul]
    push_cast
    rfl
  have hrounded : (roundEven ((n : ℚ) / 2 ^ quantum n) : ℚ) * 2 ^ quantum n = n := by
    rw [hdivided, roundEven_intCast, ← hdivided]
    exact div_mul_cancel₀ _ (zpow_ne_zero _ (by norm_num))
  have hfinite : |(n : ℚ)| < 2 ^ 1024 := by
    have hless : |(n : ℚ)| < 2 ^ 53 := by exact_mod_cast h
    exact hless.trans (pow_lt_pow_right₀ one_lt_two (by norm_num))
  unfold round
  dsimp only
  rw [hrounded, if_pos hfinite]

end AgentCockpit.Core.Binary64
