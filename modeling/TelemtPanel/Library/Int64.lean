import Mathlib

/-!
# Signed 64-bit arithmetic on integers

Machine integers are represented by the integers they denote.  Where an
operation may leave the range, the result is reduced by `wrapInt64`.
-/

namespace TelemtPanel.Library

/-- The greatest signed 64-bit integer. -/
def maxInt64 : ℤ := 9223372036854775807

theorem maxInt64_nonneg : 0 ≤ maxInt64 := by decide

/-- The least signed 64-bit integer. -/
def minInt64 : ℤ := -9223372036854775808

/-- The signed 64-bit integer congruent to a given one modulo `2 ^ 64`. -/
def wrapInt64 (value : ℤ) : ℤ := value.bmod 18446744073709551616

theorem wrapInt64_of_range {value : ℤ} (lower : minInt64 ≤ value) (upper : value ≤ maxInt64) :
    wrapInt64 value = value := by
  simp only [minInt64, maxInt64] at lower upper
  simp only [wrapInt64]
  rw [Int.bmod_eq_of_le] <;> omega

/-- Below the range, by less than its half, the result wraps to the upper half. -/
theorem wrapInt64_of_below {value : ℤ} (lower : minInt64 + minInt64 ≤ value)
    (upper : value < minInt64) : wrapInt64 value = value + 18446744073709551616 := by
  simp only [minInt64] at lower upper
  have inside : wrapInt64 (value + 18446744073709551616) = value + 18446744073709551616 := by
    apply wrapInt64_of_range
    · simp only [minInt64]
      omega
    · simp only [maxInt64]
      omega
  rw [← inside]
  exact (Int.add_bmod_right value 18446744073709551616).symm

end TelemtPanel.Library
