import Mathlib

/-!
# Runs of a machine

A machine answers every call with an output and a next state.  This file
packages the two inductions used throughout the development: an invariant which
every permitted call preserves holds after every permitted run, and a
simulation between two machines makes them answer a whole run alike.

The permission of a call may depend on the state in which it is made; that is
how the environment assumptions of a run are stated.
-/

namespace TelemtPanel.Library

universe u v w

/-- State after a run of calls. -/
def after {State : Type u} {Call : Type v} (step : State → Call → State)
    (state : State) (calls : List Call) : State :=
  calls.foldl step state

/-- Every call of a run is permitted in the state in which it is made. -/
def Permitted {State : Type u} {Call : Type v} (step : State → Call → State)
    (allowed : State → Call → Prop) : State → List Call → Prop
  | _, [] => True
  | state, call :: calls => allowed state call ∧ Permitted step allowed (step state call) calls

/-- Outputs of a run of calls, in order. -/
def outputs {State : Type u} {Call : Type v} {Output : Type w}
    (answer : State → Call → Output × State) : State → List Call → List Output
  | _, [] => []
  | state, call :: calls =>
      (answer state call).1 :: outputs answer (answer state call).2 calls

section Invariant

variable {State : Type u} {Call : Type v} {step : State → Call → State}
  {allowed : State → Call → Prop}

@[simp]
theorem after_nil (state : State) : after step state [] = state := rfl

@[simp]
theorem after_cons (state : State) (call : Call) (calls : List Call) :
    after step state (call :: calls) = after step (step state call) calls := rfl

theorem after_append (state : State) (calls later : List Call) :
    after step state (calls ++ later) = after step (after step state calls) later :=
  List.foldl_append

/-- A permission may be strengthened by what holds of every call of the run. -/
theorem Permitted.and_of_forall {state : State} {calls : List Call}
    (permitted : Permitted step allowed state calls) {known : Call → Prop}
    (all : ∀ call ∈ calls, known call) :
    Permitted step (fun state call => allowed state call ∧ known call) state calls := by
  induction calls generalizing state with
  | nil => trivial
  | cons call calls ih =>
      rcases List.forall_mem_cons.mp all with ⟨first, rest⟩
      exact ⟨⟨permitted.1, first⟩, ih permitted.2 rest⟩

/-- A permission that does not look at the state. -/
theorem permitted_of_forall {state : State} {calls : List Call} {known : Call → Prop}
    (all : ∀ call ∈ calls, known call) :
    Permitted step (fun _ call => known call) state calls := by
  induction calls generalizing state with
  | nil => trivial
  | cons call calls ih =>
      rcases List.forall_mem_cons.mp all with ⟨first, rest⟩
      exact ⟨first, ih rest⟩

/-- A permission that only looks at a part of the state, which the calls change on their own. -/
theorem Permitted.lift {Whole : Type*} {stepWhole : Whole → Call → Whole} (part : Whole → State)
    (commutes : ∀ whole call, part (stepWhole whole call) = step (part whole) call)
    {whole : Whole} {calls : List Call} (permitted : Permitted step allowed (part whole) calls) :
    Permitted stepWhole (fun whole call => allowed (part whole) call) whole calls := by
  induction calls generalizing whole with
  | nil => trivial
  | cons call calls ih =>
      refine ⟨permitted.1, ih ?_⟩
      rw [commutes]
      exact permitted.2

/-- Permission can be checked call by call. -/
instance decidablePermitted [∀ state call, Decidable (allowed state call)] :
    (state : State) → (calls : List Call) → Decidable (Permitted step allowed state calls)
  | _, [] => .isTrue trivial
  | state, call :: calls =>
      haveI := decidablePermitted (step state call) calls
      inferInstanceAs (Decidable (_ ∧ _))

/-- An invariant preserved by every permitted call holds after every permitted run. -/
theorem invariant_after {invariant : State → Prop}
    (preserved : ∀ state call, invariant state → allowed state call →
      invariant (step state call))
    {state : State} (initially : invariant state) {calls : List Call}
    (permitted : Permitted step allowed state calls) :
    invariant (after step state calls) := by
  induction calls generalizing state with
  | nil => exact initially
  | cons call calls ih =>
      exact ih (preserved state call initially permitted.1) permitted.2

/-- An invariant preserved by every call holds after every run. -/
theorem always_after {invariant : State → Prop}
    (preserved : ∀ state call, invariant state → invariant (step state call))
    {state : State} (initially : invariant state) (calls : List Call) :
    invariant (after step state calls) := by
  induction calls generalizing state with
  | nil => exact initially
  | cons call calls ih => exact ih (preserved state call initially)

end Invariant

section Simulation

variable {Left : Type u} {Right : Type v} {Call : Type w} {Output : Type*}
  {left : Left → Call → Output × Left} {right : Right → Call → Output × Right}
  {allowed : Left → Call → Prop} {related : Left → Right → Prop}

/-- Machines whose related states answer alike and stay related produce the same
outputs on a permitted run and end in related states. -/
theorem simulation_after
    (simulates : ∀ l r call, related l r → allowed l call →
      (left l call).1 = (right r call).1 ∧ related (left l call).2 (right r call).2)
    {l : Left} {r : Right} (initially : related l r) {calls : List Call}
    (permitted : Permitted (fun state call => (left state call).2) allowed l calls) :
    outputs left l calls = outputs right r calls ∧
      related (after (fun state call => (left state call).2) l calls)
        (after (fun state call => (right state call).2) r calls) := by
  induction calls generalizing l r with
  | nil => exact ⟨rfl, initially⟩
  | cons call calls ih =>
      rcases simulates l r call initially permitted.1 with ⟨sameOutput, stillRelated⟩
      rcases ih stillRelated permitted.2 with ⟨sameOutputs, finallyRelated⟩
      exact ⟨by simp only [outputs, sameOutput, sameOutputs], finallyRelated⟩

end Simulation

end TelemtPanel.Library
