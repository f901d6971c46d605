import TelemtPanel.Library.Run

/-!
# Moments of a run

A moment of a run is the number of calls made so far.  What happened at a moment does not
change when the run goes on, so that a fact about the past, once established, is kept by
every later call.
-/

namespace TelemtPanel.Library

universe u v

variable {State : Type u} {Call : Type v} {step : State → Call → State}

/-- State at a moment of a run. -/
def stateAt (step : State → Call → State) (state : State) (calls : List Call) (moment : ℕ) :
    State :=
  after step state (calls.take moment)

variable {state : State} {calls : List Call} {moment : ℕ}

@[simp]
theorem stateAt_zero : stateAt step state calls 0 = state := by
  simp [stateAt]

@[simp]
theorem stateAt_length : stateAt step state calls calls.length = after step state calls := by
  simp [stateAt]

theorem stateAt_append (le : moment ≤ calls.length) (later : List Call) :
    stateAt step state (calls ++ later) moment = stateAt step state calls moment := by
  simp [stateAt, List.take_append_of_le_length le]

theorem after_concat (last : Call) :
    after step state (calls ++ [last]) = step (after step state calls) last := by
  rw [after_append]
  rfl

theorem stateAt_succ (lt : moment < calls.length) :
    stateAt step state calls (moment + 1) =
      step (stateAt step state calls moment) (calls.get ⟨moment, lt⟩) := by
  simp only [stateAt, List.take_succ_eq_append_getElem lt, after_concat, List.get_eq_getElem]

theorem stateAt_step {call : Call} (made : calls[moment]? = some call) :
    stateAt step state calls (moment + 1) = step (stateAt step state calls moment) call := by
  rcases List.getElem?_eq_some_iff.mp made with ⟨lt, rfl⟩
  exact stateAt_succ lt

/-- What every call keeps holds at every moment. -/
theorem stateAt_always {kept : State → Prop} (preserved : ∀ state call, kept state →
    kept (step state call)) (initially : kept state) (moment : ℕ) :
    kept (stateAt step state calls moment) :=
  always_after preserved initially _

/-- What holds initially and is kept by every call of the run holds at every moment. -/
theorem stateAt_induction {recorded : ℕ → State → Prop} (initially : recorded 0 state)
    (extends_ : ∀ moment call, calls[moment]? = some call →
      recorded moment (stateAt step state calls moment) →
      recorded (moment + 1) (step (stateAt step state calls moment) call))
    (le : moment ≤ calls.length) : recorded moment (stateAt step state calls moment) := by
  induction moment with
  | zero => exact initially
  | succ moment ih =>
      have made := List.getElem?_eq_getElem (Nat.lt_of_succ_le le)
      rw [stateAt_step made]
      exact extends_ moment _ made (ih (Nat.le_of_succ_le le))

/-- What holds initially and of a run with one more call holds after every run. -/
theorem history_after {recorded : List Call → State → Prop} (initially : recorded [] state)
    (extends_ : ∀ calls last, recorded calls (after step state calls) →
      recorded (calls ++ [last]) (step (after step state calls) last)) (calls : List Call) :
    recorded calls (after step state calls) := by
  induction calls using List.reverseRecOn with
  | nil => exact initially
  | append_singleton calls last ih =>
      rw [after_concat]
      exact extends_ calls last ih

/-- What every call keeps is kept from a moment to each later one. -/
theorem stateAt_mono {kept : State → Prop} (preserved : ∀ state call, kept state →
    kept (step state call)) {later : ℕ} (le : moment ≤ later)
    (holds : kept (stateAt step state calls moment)) : kept (stateAt step state calls later) := by
  have split : calls.take later = calls.take moment ++ (calls.take later).drop moment := by
    conv_lhs => rw [← List.take_append_drop moment (calls.take later)]
    rw [List.take_take, min_eq_left le]
  unfold stateAt
  rw [split, after_append]
  exact always_after preserved holds _

end TelemtPanel.Library
