import Mathlib

/-!
# Finite double precision numbers

A finite double is the rational number it denotes; the two zeros are one.
Reading a decimal rounds to the nearest double, ties to an even mantissa.
Printing takes the shortest decimal that reads back.
-/

namespace TelemtPanel.Library

namespace Binary64

/-- The nearest integer, ties to even. -/
def halfEven (q : ℚ) : ℤ :=
  if q - ⌊q⌋ < 1 / 2 then ⌊q⌋
  else if 1 / 2 < q - ⌊q⌋ then ⌊q⌋ + 1
  else if ⌊q⌋ % 2 = 0 then ⌊q⌋
  else ⌊q⌋ + 1

/-- The exponent of the last place of a number: 53 bits, down to the subnormal numbers. -/
def lastPlace (q : ℚ) : ℤ :=
  max (Int.log 2 |q| - 52) (-1074)

def onGrid (q : ℚ) : ℚ :=
  halfEven (q / 2 ^ lastPlace q) * 2 ^ lastPlace q

/-- The nearest double, unless it overflows. -/
def nearest (q : ℚ) : Option ℚ :=
  if |onGrid q| < 2 ^ 1024 then some (onGrid q) else none

theorem halfEven_intCast (n : ℤ) : halfEven n = n := by
  simp [halfEven]

theorem abs_halfEven_le {q : ℚ} {bound : ℤ} (small : |q| ≤ bound) : |halfEven q| ≤ bound := by
  rcases abs_le.mp small with ⟨lower, upper⟩
  have floorLe := Int.floor_le q
  have ltFloor := Int.lt_floor_add_one q
  have floorLower : -bound ≤ ⌊q⌋ := Int.le_floor.mpr (by push_cast; exact lower)
  have floorUpper : ⌊q⌋ ≤ bound := by
    have below : ((⌊q⌋ : ℤ) : ℚ) ≤ bound := floorLe.trans upper
    exact_mod_cast below
  rw [halfEven, abs_le]
  by_cases atBound : ⌊q⌋ = bound
  · have exact_ : q - ⌊q⌋ < 1 / 2 := by
      rw [atBound]
      linarith
    rw [if_pos exact_]
    omega
  · split
    · omega
    · split
      · omega
      · split <;> omega

theorem two_zpow_pos (e : ℤ) : (0 : ℚ) < 2 ^ e :=
  zpow_pos (by norm_num) e

theorem onGrid_of_multiple {q : ℚ} {n : ℤ} (multiple : q = n * 2 ^ lastPlace q) : onGrid q = q := by
  have quotient : q / 2 ^ lastPlace q = n := by
    rw [div_eq_iff (two_zpow_pos _).ne']
    exact multiple
  rw [onGrid, quotient, halfEven_intCast]
  exact multiple.symm

theorem abs_lt_lastPlace (q : ℚ) : |q| < 2 ^ (lastPlace q + 53) := by
  have below := Int.lt_zpow_succ_log_self one_lt_two |q|
  refine below.trans_le ?_
  push_cast
  apply zpow_le_zpow_right₀ (by norm_num)
  have := le_max_left (Int.log 2 |q| - 52) (-1074)
  rw [lastPlace]
  omega

theorem lastPlace_le {q : ℚ} (nonzero : q ≠ 0) {e : ℤ} (normal : -1074 ≤ e)
    (small : |q| < 2 ^ (e + 53)) : lastPlace q ≤ e := by
  have positive : 0 < |q| := abs_pos.mpr nonzero
  have logLt := (Int.lt_zpow_iff_log_lt one_lt_two positive).mp (by push_cast; exact small)
  rw [lastPlace]
  omega

/-- A multiple of a power of two is a multiple of every smaller one. -/
theorem multiple_of_le {m : ℤ} {e place : ℤ} (le : place ≤ e) :
    ∃ n : ℤ, (m : ℚ) * 2 ^ e = n * 2 ^ place := by
  refine ⟨m * 2 ^ (e - place).toNat, ?_⟩
  push_cast
  rw [mul_assoc, ← zpow_natCast, ← zpow_add₀ (by norm_num), Int.toNat_of_nonneg (by omega)]
  ring_nf

theorem onGrid_onGrid (q : ℚ) : onGrid (onGrid q) = onGrid q := by
  by_cases zero : onGrid q = 0
  · rw [zero]
    exact @onGrid_of_multiple 0 0 (by simp)
  have normal : -1074 ≤ lastPlace q := le_max_right _ _
  have quotient : |q / 2 ^ lastPlace q| ≤ ((2 ^ 53 : ℤ) : ℚ) := by
    rw [abs_div, abs_of_pos (two_zpow_pos _), div_le_iff₀ (two_zpow_pos _)]
    have below := (abs_lt_lastPlace q).le
    rw [add_comm, zpow_add₀ (by norm_num)] at below
    exact_mod_cast below
  have mantissa := abs_halfEven_le quotient
  have absolute : |onGrid q| = |(halfEven (q / 2 ^ lastPlace q) : ℚ)| * 2 ^ lastPlace q := by
    rw [onGrid, abs_mul, abs_of_pos (two_zpow_pos _)]
  rcases mantissa.lt_or_eq with small | full
  · have place := lastPlace_le zero normal (by
      rw [absolute, add_comm, zpow_add₀ (by norm_num)]
      apply mul_lt_mul_of_pos_right _ (two_zpow_pos _)
      exact_mod_cast small)
    rcases @multiple_of_le (halfEven (q / 2 ^ lastPlace q)) _ _ place with ⟨n, isMultiple⟩
    exact onGrid_of_multiple isMultiple
  · -- the mantissa was rounded up to the next power of two
    have place : lastPlace (onGrid q) = lastPlace q + 1 := by
      have power : |onGrid q| = 2 ^ (lastPlace q + 53) := by
        rw [absolute, add_comm, zpow_add₀ (by norm_num)]
        congr 1
        exact_mod_cast full
      have log : Int.log 2 |onGrid q| = lastPlace q + 53 := by
        rw [power]
        exact_mod_cast @Int.log_zpow ℚ _ _ _ _ 2 one_lt_two (lastPlace q + 53)
      rw [lastPlace, log]
      omega
    have even : (2 : ℤ) ∣ halfEven (q / 2 ^ lastPlace q) := by
      apply (dvd_abs 2 _).mp
      rw [full]
      exact ⟨2 ^ 52, by norm_num⟩
    rcases even with ⟨half, isHalf⟩
    apply @onGrid_of_multiple _ half
    rw [place, onGrid, isHalf, zpow_add₀ (by norm_num)]
    push_cast
    ring

/-- Integers of at most 53 bits are doubles. -/
theorem onGrid_intCast {n : ℤ} (small : |n| ≤ 2 ^ 53) : onGrid n = n := by
  by_cases zero : n = 0
  · rw [zero]
    exact @onGrid_of_multiple _ 0 (by simp)
  rcases small.lt_or_eq with small | full
  · have place : lastPlace n ≤ 0 := by
      apply lastPlace_le (by exact_mod_cast zero) (by norm_num)
      exact_mod_cast small
    rcases @multiple_of_le n 0 _ place with ⟨m, isMultiple⟩
    apply @onGrid_of_multiple _ m
    rw [← isMultiple, zpow_zero, mul_one]
  · have place : lastPlace n ≤ 1 := by
      apply lastPlace_le (by exact_mod_cast zero) (by norm_num)
      have absolute : |(n : ℚ)| = 2 ^ 53 := by exact_mod_cast full
      rw [absolute]
      norm_num
    have even : (2 : ℤ) ∣ n := by
      apply (dvd_abs 2 _).mp
      rw [full]
      exact ⟨2 ^ 52, by norm_num⟩
    rcases even with ⟨half, rfl⟩
    rcases @multiple_of_le half 1 _ place with ⟨m, isMultiple⟩
    apply @onGrid_of_multiple _ m
    rw [← isMultiple, zpow_one]
    push_cast
    ring

end Binary64

/-- A finite double. -/
structure Binary64 where
  value : ℚ
  finite : Binary64.nearest value = some value
  deriving DecidableEq

namespace Binary64

theorem nearest_eq_some {q value : ℚ} :
    nearest q = some value ↔ onGrid q = value ∧ |value| < 2 ^ 1024 := by
  rw [nearest]
  split
  · rename_i small
    simp only [Option.some.injEq, iff_self_and]
    rintro rfl
    exact small
  · rename_i large
    simp only [reduceCtorEq, false_iff, not_and]
    rintro rfl
    exact large

/-- Reading a decimal. -/
def round (q : ℚ) : Option Binary64 :=
  if small : |onGrid q| < 2 ^ 1024 then
    some ⟨onGrid q, nearest_eq_some.mpr ⟨onGrid_onGrid q, small⟩⟩
  else none

def integral (x : Binary64) : Bool :=
  x.value.den == 1

/-- A number rounded to some significant decimal digits. -/
def significant (digits : ℕ) (q : ℚ) : ℚ :=
  halfEven (q / 10 ^ (Int.log 10 |q| + 1 - digits)) * 10 ^ (Int.log 10 |q| + 1 - digits)

/-- The shortest decimal that reads back; for an integer of at most 53 bits that is the integer. -/
def shortest (x : Binary64) : ℚ :=
  if x.integral && decide (|x.value| ≤ 2 ^ 53) then x.value
  else (((List.range 17).map fun digits => significant (digits + 1) x.value).find? fun decimal =>
    decide (round decimal = some x)).getD x.value

end Binary64

end TelemtPanel.Library
