import Mathlib

/-!
# One-shot timers

The timers that have been set and have neither fired nor been cleared.  A program keeps the
number of a timer in a variable, its slot, and clears the slot before it uses it again.  A slot
*holds* a callback when no other timer has that callback: clearing the slot then leaves no timer
with the callback, and at most one is pending at any time.
-/

namespace TelemtPanel.Library

universe u

structure Timer (γ : Type u) where
  id : ℕ
  callback : γ
  delay : ℚ
deriving DecidableEq

/-- Pending timers in the order in which they were set; a number is given out once. -/
structure Timers (γ : Type u) where
  pending : List (Timer γ)
  next : ℕ
  ordered : pending.Pairwise fun earlier later => earlier.id < later.id
  fresh : ∀ timer ∈ pending, timer.id < next

namespace Timers

variable {γ : Type u}

def empty : Timers γ where
  pending := []
  next := 0
  ordered := List.Pairwise.nil
  fresh := by simp

/-- The timer that is set has the number `timers.next`. -/
def set (timers : Timers γ) (callback : γ) (delay : ℚ) : Timers γ where
  pending := timers.pending ++ [⟨timers.next, callback, delay⟩]
  next := timers.next + 1
  ordered := by
    apply List.pairwise_append.mpr
    refine ⟨timers.ordered, List.pairwise_singleton _ _, ?_⟩
    intro timer mem last isLast
    rw [List.mem_singleton.mp isLast]
    exact timers.fresh timer mem
  fresh := by
    intro timer mem
    rcases List.mem_append.mp mem with old | new
    · exact Nat.lt_succ_of_lt (timers.fresh timer old)
    · simp [List.mem_singleton.mp new]

/-- Removes a timer, because it fires or is cleared. -/
def clear (timers : Timers γ) (id : ℕ) : Timers γ where
  pending := timers.pending.filter fun timer => timer.id ≠ id
  next := timers.next
  ordered := timers.ordered.filter _
  fresh := fun timer mem => timers.fresh timer (List.mem_of_mem_filter mem)

/-- Clears the timer of a slot, if there is one. -/
def clearSlot (timers : Timers γ) : Option ℕ → Timers γ
  | none => timers
  | some id => timers.clear id

/-- The slot knows the timer of the callback, if there is one, and its number was given out for
the callback. -/
structure Holds (timers : Timers γ) (slot : Option ℕ) (callback : γ) : Prop where
  known : ∀ timer ∈ timers.pending, timer.callback = callback → slot = some timer.id
  below : ∀ id, slot = some id → id < timers.next
  own : ∀ timer ∈ timers.pending, slot = some timer.id → timer.callback = callback

def Silent (timers : Timers γ) (callback : γ) : Prop :=
  ∀ timer ∈ timers.pending, timer.callback ≠ callback

variable {timers : Timers γ} {slot other : Option ℕ} {callback : γ}

theorem mem_set {set : γ} {delay : ℚ} {timer : Timer γ} :
    timer ∈ (timers.set set delay).pending ↔
      timer ∈ timers.pending ∨ timer = ⟨timers.next, set, delay⟩ := by
  simp [Timers.set]

theorem mem_clear {id : ℕ} {timer : Timer γ} :
    timer ∈ (timers.clear id).pending ↔ timer ∈ timers.pending ∧ timer.id ≠ id := by
  simp [clear]

theorem mem_of_mem_clearSlot {timer : Timer γ} (mem : timer ∈ (timers.clearSlot slot).pending) :
    timer ∈ timers.pending := by
  cases slot with
  | none => exact mem
  | some id => exact (mem_clear.mp mem).1

theorem silent_empty : (empty : Timers γ).Silent callback := by
  simp [Silent, empty]

theorem Silent.holds (silent : timers.Silent callback) : timers.Holds none callback where
  known timer mem same := absurd same (silent timer mem)
  below _ none_ := nomatch none_
  own _ _ none_ := nomatch none_

theorem Silent.clear (silent : timers.Silent callback) (id : ℕ) :
    (timers.clear id).Silent callback :=
  fun timer mem => silent timer (mem_clear.mp mem).1

theorem Silent.clearSlot (silent : timers.Silent callback) (slot : Option ℕ) :
    (timers.clearSlot slot).Silent callback :=
  fun timer mem => silent timer (mem_of_mem_clearSlot mem)

theorem Silent.set (silent : timers.Silent callback) {set : γ} (ne : set ≠ callback) (delay : ℚ) :
    (timers.set set delay).Silent callback := by
  intro timer mem
  rcases mem_set.mp mem with old | rfl
  · exact silent timer old
  · exact ne

theorem Silent.set_holds (silent : timers.Silent callback) (delay : ℚ) :
    (timers.set callback delay).Holds (some timers.next) callback where
  known timer mem same := by
    rcases mem_set.mp mem with old | rfl
    · exact absurd same (silent timer old)
    · rfl
  below id same := by
    cases same
    exact Nat.lt_succ_self _
  own timer mem same := by
    rcases mem_set.mp mem with old | rfl
    · exact absurd (Option.some.inj same).symm (Nat.ne_of_lt (timers.fresh timer old))
    · rfl

theorem Holds.clear (holds : timers.Holds slot callback) (id : ℕ) :
    (timers.clear id).Holds slot callback where
  known timer mem := holds.known timer (mem_clear.mp mem).1
  below := holds.below
  own timer mem := holds.own timer (mem_clear.mp mem).1

theorem Holds.clearSlot (holds : timers.Holds slot callback) (other : Option ℕ) :
    (timers.clearSlot other).Holds slot callback := by
  cases other with
  | none => exact holds
  | some id => exact holds.clear id

theorem Holds.set (holds : timers.Holds slot callback) {set : γ} (ne : set ≠ callback)
    (delay : ℚ) : (timers.set set delay).Holds slot callback where
  known timer mem same := by
    rcases mem_set.mp mem with old | rfl
    · exact holds.known timer old same
    · exact absurd same ne
  below id same := Nat.lt_succ_of_lt (holds.below id same)
  own timer mem same := by
    rcases mem_set.mp mem with old | rfl
    · exact holds.own timer old same
    · exact absurd (holds.below _ same) (Nat.lt_irrefl _)

/-- Clearing the slot spares the timers of other callbacks. -/
theorem Holds.mem_clearSlot (holds : timers.Holds slot callback) {timer : Timer γ}
    (mem : timer ∈ timers.pending) (ne : timer.callback ≠ callback) :
    timer ∈ (timers.clearSlot slot).pending := by
  cases slot with
  | none => exact mem
  | some id =>
      refine mem_clear.mpr ⟨mem, ?_⟩
      intro same
      exact ne (holds.own timer mem (congrArg some same.symm))

/-- Clearing the slot leaves no timer of the callback. -/
theorem Holds.silent_clearSlot (holds : timers.Holds slot callback) :
    (timers.clearSlot slot).Silent callback := by
  intro timer mem same
  have known := holds.known timer (mem_of_mem_clearSlot mem) same
  rw [known] at mem
  exact (mem_clear.mp mem).2 rfl

/-- Of a callback that a slot holds at most one timer is pending. -/
theorem Holds.atMostOne [DecidableEq γ] (holds : timers.Holds slot callback) :
    (timers.pending.filter fun timer => timer.callback = callback).length ≤ 1 := by
  have distinct := timers.ordered.filter fun timer => decide (timer.callback = callback)
  have known : ∀ timer ∈ timers.pending.filter fun timer => timer.callback = callback,
      slot = some timer.id := by
    intro timer mem
    rcases List.mem_filter.mp mem with ⟨pending, same⟩
    exact holds.known timer pending (of_decide_eq_true same)
  match listed : timers.pending.filter fun timer => timer.callback = callback with
  | [] => simp [listed]
  | [_] => simp [listed]
  | first :: second :: rest =>
      rw [listed] at distinct known
      have lt := (List.pairwise_cons.mp distinct).1 second List.mem_cons_self
      have firstKnown := known first List.mem_cons_self
      have secondKnown := known second (List.mem_cons_of_mem _ List.mem_cons_self)
      rw [firstKnown] at secondKnown
      exact absurd (Option.some.inj secondKnown) (Nat.ne_of_lt lt)

theorem pending_eq_nil (silent : ∀ callback, timers.Silent callback) : timers.pending = [] := by
  apply List.eq_nil_iff_forall_not_mem.mpr
  intro timer mem
  exact silent timer.callback timer mem rfl

theorem silent_of_nil (none_ : timers.pending = []) : timers.Silent callback := by
  intro timer mem
  rw [none_] at mem
  cases mem

end Timers

end TelemtPanel.Library
