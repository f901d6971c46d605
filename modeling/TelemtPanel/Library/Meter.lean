import Mathlib

/-!
# Metering a counter by samples

A counter grows in runs.  A new run starts at zero, and the counter may also drop
back to zero within a run.  A meter only sees samples: the run and the value at
some moments.  It adds up the growth from one sample to the next, where a sample
of another run, or one that went backwards, is taken to have started at zero.

Between two samples we keep the movements of the counter.  The growth seen by the
meter and the bytes it misses then add up to what was really counted.
-/

namespace TelemtPanel.Library

universe u

/-- What a sample shows. -/
structure Reading (Epoch : Type u) where
  epoch : Epoch
  value : ℕ
deriving DecidableEq, Repr

/-- What can happen to a counter between two samples. -/
inductive Movement where
  | count (amount : ℕ)
  | drop
  | restart
deriving DecidableEq, Repr

namespace Movement

/-- Everything counted.  Lists of movements start with the latest one. -/
def transferred : List Movement → ℕ
  | [] => 0
  | .count amount :: earlier => amount + transferred earlier
  | .drop :: earlier => transferred earlier
  | .restart :: earlier => transferred earlier

/-- Counted since the last time the counter went back to zero. -/
def sinceReset : List Movement → ℕ
  | [] => 0
  | .count amount :: earlier => amount + sinceReset earlier
  | .drop :: _ => 0
  | .restart :: _ => 0

/-- Counted before the last time the counter went back to zero. -/
def beforeReset : List Movement → ℕ
  | [] => 0
  | .count _ :: earlier => beforeReset earlier
  | .drop :: earlier => transferred earlier
  | .restart :: earlier => transferred earlier

/-- Counted before the first time the counter went back to zero. -/
def beforeFirstReset : List Movement → ℕ
  | [] => 0
  | .count amount :: earlier =>
      if .drop ∈ earlier ∨ .restart ∈ earlier then beforeFirstReset earlier
      else amount + beforeFirstReset earlier
  | .drop :: earlier => beforeFirstReset earlier
  | .restart :: earlier => beforeFirstReset earlier

theorem sinceReset_add_beforeReset (movements : List Movement) :
    sinceReset movements + beforeReset movements = transferred movements := by
  induction movements with
  | nil => rfl
  | cons movement earlier ih =>
      cases movement with
      | count amount =>
          simp only [sinceReset, beforeReset, transferred]
          omega
      | drop => simp only [sinceReset, beforeReset, transferred, zero_add]
      | restart => simp only [sinceReset, beforeReset, transferred, zero_add]

theorem beforeReset_of_steady {movements : List Movement} (noDrop : .drop ∉ movements)
    (noRestart : .restart ∉ movements) : beforeReset movements = 0 := by
  induction movements with
  | nil => rfl
  | cons movement earlier ih =>
      simp only [List.mem_cons, not_or] at noDrop noRestart
      cases movement with
      | count amount => exact ih noDrop.2 noRestart.2
      | drop => exact absurd rfl noDrop.1
      | restart => exact absurd rfl noRestart.1

end Movement

section Reading

variable {Epoch : Type u} [DecidableEq Epoch]

/-- Growth from one reading to another, judged from the readings alone. -/
def Reading.growth (last next : Reading Epoch) : ℕ :=
  if last.epoch ≠ next.epoch then next.value
  else if next.value < last.value then next.value
  else next.value - last.value

end Reading

/-- The movements since a reading. -/
structure Interval (Epoch : Type u) where
  opening : Reading Epoch
  movements : List Movement
deriving DecidableEq, Repr

namespace Interval

variable {Epoch : Type u}

def transferred (interval : Interval Epoch) : ℕ := Movement.transferred interval.movements

/-- The counter never went back to zero. -/
def Steady (interval : Interval Epoch) : Prop :=
  .drop ∉ interval.movements ∧ .restart ∉ interval.movements

/-- What a meter cannot see of an interval: all that was counted before the last reset,
and as much as the opening value if a drop was made up for within the run. -/
def missed (interval : Interval Epoch) : ℕ :=
  Movement.beforeReset interval.movements +
    if .drop ∈ interval.movements ∧ .restart ∉ interval.movements ∧
        interval.opening.value ≤ Movement.sinceReset interval.movements then
      interval.opening.value
    else 0

def append (movement : Movement) (interval : Interval Epoch) : Interval Epoch :=
  { interval with movements := movement :: interval.movements }

/-- The movements of the interval lead from its opening to a given reading. -/
structure Leads (interval : Interval Epoch) (current : Reading Epoch) : Prop where
  restarted : .restart ∈ interval.movements ↔ interval.opening.epoch ≠ current.epoch
  value : current.value = Movement.sinceReset interval.movements +
    if .drop ∈ interval.movements ∨ .restart ∈ interval.movements then 0
    else interval.opening.value

variable {interval : Interval Epoch} {current : Reading Epoch}

theorem Leads.refl (opening : Reading Epoch) : (⟨opening, []⟩ : Interval Epoch).Leads opening := by
  refine ⟨?_, ?_⟩
  · simp
  · simp [Movement.sinceReset]

theorem Leads.count (leads : interval.Leads current) (amount : ℕ) :
    (interval.append (.count amount)).Leads ⟨current.epoch, current.value + amount⟩ := by
  refine ⟨?_, ?_⟩
  · simpa [append] using leads.restarted
  · have value := leads.value
    simp only [append, List.mem_cons, reduceCtorEq, false_or, Movement.sinceReset]
    omega

theorem Leads.drop (leads : interval.Leads current) :
    (interval.append .drop).Leads ⟨current.epoch, 0⟩ := by
  refine ⟨?_, ?_⟩
  · simpa [append] using leads.restarted
  · simp [append, Movement.sinceReset]

/-- Runs are told apart by their epochs. -/
theorem Leads.restart {epoch : Epoch} (fresh : interval.opening.epoch ≠ epoch) :
    (interval.append .restart).Leads ⟨epoch, 0⟩ := by
  refine ⟨?_, ?_⟩
  · simpa [append] using fresh
  · simp [append, Movement.sinceReset]

theorem missed_of_steady (steady : interval.Steady) : interval.missed = 0 := by
  rcases steady with ⟨noDrop, noRestart⟩
  simp [missed, noDrop, Movement.beforeReset_of_steady noDrop noRestart]

variable [DecidableEq Epoch]

/-- What the meter sees and what it misses is what was counted. -/
theorem Leads.growth_add_missed (leads : interval.Leads current) :
    interval.opening.growth current + interval.missed = interval.transferred := by
  have split := Movement.sinceReset_add_beforeReset interval.movements
  have value := leads.value
  simp only [Reading.growth, missed, transferred]
  by_cases restarted : .restart ∈ interval.movements
  · rw [if_pos (leads.restarted.mp restarted)]
    simp only [restarted, or_true, ↓reduceIte, not_true_eq_false, false_and, and_false] at value ⊢
    omega
  have sameRun : interval.opening.epoch = current.epoch := by
    simpa [restarted] using leads.restarted
  rw [if_neg (not_not.mpr sameRun)]
  by_cases dropped : .drop ∈ interval.movements
  · simp only [dropped, restarted, or_false, ↓reduceIte, not_false_eq_true, true_and] at value ⊢
    split <;> split <;> omega
  · simp only [dropped, restarted, or_false, ↓reduceIte, false_and] at value ⊢
    split <;> omega

end Interval

/-- What happened to a counter since a meter was attached to it: the intervals between
samples, the latest one first, and the interval since the last sample. -/
structure Audit (Epoch : Type u) where
  past : List (Interval Epoch)
  present : Interval Epoch
deriving DecidableEq, Repr

namespace Audit

variable {Epoch : Type u}

/-- Counted up to the last sample. -/
def transferred (audit : Audit Epoch) : ℕ := (audit.past.map (·.transferred)).sum

/-- Missed by the meter up to the last sample. -/
def missed (audit : Audit Epoch) : ℕ := (audit.past.map (·.missed)).sum

/-- Counted after a sample and before the next reset. -/
def beforeNextReset (audit : Audit Epoch) : ℕ :=
  (audit.past.map fun interval => Movement.beforeFirstReset interval.movements).sum

def start (reading : Reading Epoch) : Audit Epoch := ⟨[], ⟨reading, []⟩⟩

def move (movement : Movement) (audit : Audit Epoch) : Audit Epoch :=
  { audit with present := audit.present.append movement }

/-- A sample closes the present interval. -/
def sample (reading : Reading Epoch) (audit : Audit Epoch) : Audit Epoch :=
  ⟨audit.present :: audit.past, ⟨reading, []⟩⟩

/-- The meter shows what was counted less what it missed. -/
def Balanced (audit : Audit Epoch) (total : ℕ) : Prop :=
  total + audit.missed = audit.transferred

variable {audit : Audit Epoch} {reading : Reading Epoch} {total : ℕ}

theorem balanced_start (reading : Reading Epoch) : (start reading).Balanced 0 := rfl

theorem Balanced.move (balanced : audit.Balanced total) (movement : Movement) :
    (audit.move movement).Balanced total := balanced

theorem Balanced.sample [DecidableEq Epoch] (balanced : audit.Balanced total)
    (leads : audit.present.Leads reading) :
    (audit.sample reading).Balanced (total + audit.present.opening.growth reading) := by
  have last := leads.growth_add_missed
  simp only [Balanced, missed, transferred, Audit.sample, List.map_cons, List.sum_cons] at *
  omega

theorem Balanced.le (balanced : audit.Balanced total) : total ≤ audit.transferred := by
  simp only [Balanced] at balanced
  omega

/-- Without resets nothing is missed. -/
theorem Balanced.exact (balanced : audit.Balanced total)
    (steady : ∀ interval ∈ audit.past, interval.Steady) : total = audit.transferred := by
  have nothing : audit.missed = 0 := by
    apply List.sum_eq_zero
    intro bytes mem
    rcases List.mem_map.mp mem with ⟨interval, present, rfl⟩
    exact Interval.missed_of_steady (steady interval present)
  simpa [Balanced, nothing] using balanced

end Audit

end TelemtPanel.Library
