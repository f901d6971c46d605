import Mathlib

/-!
# Months of the proleptic Gregorian calendar

Days are counted from 1 March of year 0, so that the leap day is the last day
of a year and every month has a fixed offset within its year.  Months are
counted from the same origin.  The month of a day is found by dividing by the
400-, 100- and 4-year cycles; `monthStart` is its inverse, and the month of a
day is the unique one whose half-open span of days contains it.
-/

namespace TelemtPanel.Library.Calendar

/-- Year, counted from 1 March, containing a day of a 400-year cycle. -/
def yearOfEra (day : ℤ) : ℤ :=
  let century := min (day / 36524) 3
  let dayOfCentury := day - 36524 * century
  let cycle := dayOfCentury / 1461
  let dayOfCycle := dayOfCentury - 1461 * cycle
  100 * century + 4 * cycle + min (dayOfCycle / 365) 3

/-- Days before a year of a 400-year cycle. -/
def daysBeforeYear (year : ℤ) : ℤ := 365 * year + year / 4 - year / 100

/-- Days before a month of a year which begins in March. -/
def daysBeforeMonth (month : ℤ) : ℤ := (153 * month + 2) / 5

/-- Month, counted from March of year 0, containing a day counted from 1 March of year 0. -/
def monthOfDay (day : ℤ) : ℤ :=
  let era := day / 146097
  let dayOfEra := day % 146097
  let year := yearOfEra dayOfEra
  let dayOfYear := dayOfEra - daysBeforeYear year
  12 * (400 * era + year) + (5 * dayOfYear + 2) / 153

/-- First day of a month. -/
def monthStart (month : ℤ) : ℤ :=
  let year := month / 12
  146097 * (year / 400) + daysBeforeYear (year % 400) + daysBeforeMonth (month % 12)

/-- Calendar year, which begins in January, of a month. -/
def calendarYear (month : ℤ) : ℤ := if month % 12 < 10 then month / 12 else month / 12 + 1

/-- Number from 1 (January) to 12 (December) of a month. -/
def calendarMonth (month : ℤ) : ℤ := if month % 12 < 10 then month % 12 + 3 else month % 12 - 9

/-- Day number of 1 January 1970. -/
def unixEpoch : ℤ := 719468

/-- Month containing a number of seconds since the Unix epoch, in UTC. -/
def monthOfUnix (seconds : ℤ) : ℤ := monthOfDay (seconds / 86400 + unixEpoch)

theorem daysBeforeYear_cycles (century : ℤ) {cycle year : ℤ} (cycleLower : 0 ≤ cycle)
    (cycleUpper : cycle ≤ 24) (yearLower : 0 ≤ year) (yearUpper : year ≤ 3) :
    daysBeforeYear (100 * century + 4 * cycle + year) =
      36524 * century + 1461 * cycle + 365 * year := by
  have quarter : (100 * century + 4 * cycle + year) / 4 = 25 * century + cycle := by omega
  have hundredth : (100 * century + 4 * cycle + year) / 100 = century := by omega
  simp only [daysBeforeYear, quarter, hundredth]
  ring

/-- A day of a 400-year cycle falls into the span of days of its year. -/
theorem yearOfEra_spec (day : ℤ) (lower : 0 ≤ day) (upper : day < 146097) :
    0 ≤ yearOfEra day ∧ yearOfEra day < 400 ∧ daysBeforeYear (yearOfEra day) ≤ day ∧
      day - daysBeforeYear (yearOfEra day) < 366 ∧
      (yearOfEra day < 399 → day < daysBeforeYear (yearOfEra day + 1)) := by
  simp only [yearOfEra]
  generalize centuryEq : min (day / 36524) 3 = century
  have centuryBounds : 0 ≤ century ∧ century ≤ 3 ∧ 36524 * century ≤ day ∧
      day - 36524 * century ≤ 36524 ∧
      (century < 3 → day - 36524 * century < 36524) := by omega
  generalize dayEq : day - 36524 * century = dayOfCentury at centuryBounds
  generalize cycleEq : dayOfCentury / 1461 = cycle
  have cycleBounds : 0 ≤ cycle ∧ cycle ≤ 24 ∧ 1461 * cycle ≤ dayOfCentury ∧
      dayOfCentury - 1461 * cycle < 1461 ∧
      (century < 3 → cycle = 24 → dayOfCentury - 1461 * cycle < 1460) := by omega
  generalize dayOfCycleEq : dayOfCentury - 1461 * cycle = dayOfCycle at cycleBounds
  generalize yearEq : min (dayOfCycle / 365) 3 = year
  have yearBounds : 0 ≤ year ∧ year ≤ 3 ∧ 365 * year ≤ dayOfCycle ∧
      dayOfCycle - 365 * year < 366 ∧ (year < 3 → dayOfCycle - 365 * year < 365) := by omega
  have before := daysBeforeYear_cycles century cycleBounds.1 cycleBounds.2.1
    yearBounds.1 yearBounds.2.1
  refine ⟨by omega, by omega, by omega, by omega, ?_⟩
  intro notLast
  by_cases lastOfCycle : year = 3
  · by_cases lastOfCentury : cycle = 24
    · have next := daysBeforeYear_cycles (century + 1) (show (0 : ℤ) ≤ 0 by omega) (by omega)
        (show (0 : ℤ) ≤ 0 by omega) (by omega)
      have same : 100 * century + 4 * cycle + year + 1 = 100 * (century + 1) + 4 * 0 + 0 := by
        omega
      rw [same, next]
      omega
    · have next := daysBeforeYear_cycles century (show 0 ≤ cycle + 1 by omega) (by omega)
        (show (0 : ℤ) ≤ 0 by omega) (by omega)
      have same : 100 * century + 4 * cycle + year + 1 =
          100 * century + 4 * (cycle + 1) + 0 := by omega
      rw [same, next]
      omega
  · have next := daysBeforeYear_cycles century (show 0 ≤ cycle by omega) (by omega)
      (show 0 ≤ year + 1 by omega) (by omega)
    have same : 100 * century + 4 * cycle + year + 1 =
        100 * century + 4 * cycle + (year + 1) := by omega
    rw [same, next]
    omega

theorem monthStart_eq (era year month : ℤ) (yearLower : 0 ≤ year) (yearUpper : year < 400)
    (monthLower : 0 ≤ month) (monthUpper : month < 12) :
    monthStart (12 * (400 * era + year) + month) =
      146097 * era + daysBeforeYear year + daysBeforeMonth month := by
  have years : (12 * (400 * era + year) + month) / 12 = 400 * era + year := by omega
  have months : (12 * (400 * era + year) + month) % 12 = month := by omega
  have eras : (400 * era + year) / 400 = era := by omega
  have yearOf : (400 * era + year) % 400 = year := by omega
  simp only [monthStart, years, months, eras, yearOf]

/-- The month of a day begins no later than the day. -/
theorem monthStart_monthOfDay_le (day : ℤ) : monthStart (monthOfDay day) ≤ day := by
  have bounds := yearOfEra_spec (day % 146097) (by omega) (by omega)
  simp only [monthOfDay]
  rw [monthStart_eq _ _ _ bounds.1 bounds.2.1 (by omega) (by omega)]
  simp only [daysBeforeMonth]
  omega

/-- The month after the month of a day begins later than the day. -/
theorem lt_monthStart_monthOfDay_succ (day : ℤ) : day < monthStart (monthOfDay day + 1) := by
  have bounds := yearOfEra_spec (day % 146097) (by omega) (by omega)
  have wholeEra : daysBeforeYear 399 = 145731 := by decide
  simp only [monthOfDay]
  generalize yearEq : yearOfEra (day % 146097) = year at bounds ⊢
  generalize monthEq : (5 * (day % 146097 - daysBeforeYear year) + 2) / 153 = month
  by_cases lastMonth : month = 11
  · by_cases lastYear : year = 399
    · have start := monthStart_eq (day / 146097 + 1) 0 0
        (by omega) (by omega) (by omega) (by omega)
      have same : 12 * (400 * (day / 146097) + year) + month + 1 =
          12 * (400 * (day / 146097 + 1) + 0) + 0 := by omega
      have origin : daysBeforeYear 0 = 0 := by decide
      have first : daysBeforeMonth 0 = 0 := by decide
      rw [same, start, origin, first]
      omega
    · have start := monthStart_eq (day / 146097) (year + 1) 0
        (by omega) (by omega) (by omega) (by omega)
      have same : 12 * (400 * (day / 146097) + year) + month + 1 =
          12 * (400 * (day / 146097) + (year + 1)) + 0 := by omega
      have first : daysBeforeMonth 0 = 0 := by decide
      have inside := bounds.2.2.2.2 (by omega)
      rw [same, start, first]
      omega
  · have start := monthStart_eq (day / 146097) year (month + 1)
      (by omega) (by omega) (by omega) (by omega)
    rw [add_assoc, start]
    simp only [daysBeforeMonth]
    omega

theorem monthStart_lt_succ (month : ℤ) : monthStart month < monthStart (month + 1) := by
  have spelled : month = 12 * (400 * (month / 4800) + month % 4800 / 12) + month % 12 := by omega
  rw [spelled, monthStart_eq _ _ _ (by omega) (by omega) (by omega) (by omega)]
  by_cases lastMonth : month % 12 = 11
  · by_cases lastYear : month % 4800 / 12 = 399
    · have start := monthStart_eq (month / 4800 + 1) 0 0
        (by omega) (by omega) (by omega) (by omega)
      have same : 12 * (400 * (month / 4800) + month % 4800 / 12) + month % 12 + 1 =
          12 * (400 * (month / 4800 + 1) + 0) + 0 := by omega
      rw [same, start, lastMonth, lastYear]
      simp only [daysBeforeYear, daysBeforeMonth]
      omega
    · have start := monthStart_eq (month / 4800) (month % 4800 / 12 + 1) 0
        (by omega) (by omega) (by omega) (by omega)
      have same : 12 * (400 * (month / 4800) + month % 4800 / 12) + month % 12 + 1 =
          12 * (400 * (month / 4800) + (month % 4800 / 12 + 1)) + 0 := by omega
      rw [same, start, lastMonth]
      generalize month % 4800 / 12 = year
      simp only [daysBeforeYear, daysBeforeMonth]
      omega
  · have start := monthStart_eq (month / 4800) (month % 4800 / 12) (month % 12 + 1)
      (by omega) (by omega) (by omega) (by omega)
    have same : 12 * (400 * (month / 4800) + month % 4800 / 12) + month % 12 + 1 =
        12 * (400 * (month / 4800) + month % 4800 / 12) + (month % 12 + 1) := by omega
    rw [same, start]
    simp only [daysBeforeMonth]
    omega

theorem monthStart_strictMono : StrictMono monthStart :=
  strictMono_int_of_lt_succ monthStart_lt_succ

/-- Later days never fall into earlier months. -/
theorem monthOfDay_mono : Monotone monthOfDay := by
  intro day later dayLe
  by_contra reversed
  have nextLe : monthStart (monthOfDay later + 1) ≤ monthStart (monthOfDay day) :=
    monthStart_strictMono.monotone (by omega)
  have laterBefore := lt_monthStart_monthOfDay_succ later
  have dayAfter := monthStart_monthOfDay_le day
  omega

theorem monthOfUnix_mono : Monotone monthOfUnix := by
  intro seconds later le
  apply monthOfDay_mono
  have := Int.ediv_le_ediv (show (0 : ℤ) < 86400 by omega) le
  omega

end TelemtPanel.Library.Calendar
