import Mathlib

/-!
# Loops over distinct keys

A loop that handles a batch item by item often owns, for each item, the row of
one key: it reads and replaces that row, adds to a common gauge, and stops at
the first item it cannot accept.  When the keys of the batch are distinct, every
row is still the initial one when its turn comes.  The effect of the whole loop
can then be read off row by row, and the loop succeeds exactly when every item
is acceptable on its initial row and the gauge stays within its limit.
-/

namespace TelemtPanel.Library

universe u v w

theorem mem_toOption_iff {Refusal : Type u} {Value : Type v} {result : Except Refusal Value}
    {value : Value} : value ∈ result.toOption ↔ result = .ok value := by
  cases result <;> simp [Except.toOption]

/-- A sequence succeeds when both parts do. -/
theorem bind_eq_ok {Refusal : Type u} {Value : Type v} {Outcome : Type v}
    {first : Except Refusal Value} {next : Value → Except Refusal Outcome} {outcome : Outcome} :
    first >>= next = .ok outcome ↔ ∃ value, first = .ok value ∧ next value = .ok outcome := by
  cases first <;> simp [bind, Except.bind]

/-- A fallible loop body that owns the row of one key. -/
structure KeyedLoop (State : Type u) (Item : Type v) (Key : Type w) [DecidableEq Key]
    (Row : Type*) (Refusal : Type*) where
  step : State → Item → Except Refusal State
  key : Item → Key
  row : State → Key → Row
  /-- What the body makes of the row of its key. -/
  change : Item → Row → Row
  gauge : State → ℤ
  /-- What the body adds to the gauge. -/
  gain : Item → Row → ℤ
  row_step : ∀ {state next : State} {item : Item}, step state item = .ok next →
    row next = Function.update (row state) (key item) (change item (row state (key item)))
  gauge_step : ∀ {state next : State} {item : Item}, step state item = .ok next →
    gauge next = gauge state + gain item (row state (key item))

namespace KeyedLoop

variable {State : Type u} {Item : Type v} {Key : Type w} [DecidableEq Key]
  {Row Refusal : Type*} (loop : KeyedLoop State Item Key Row Refusal)

/-- The whole loop. -/
def run (state : State) (items : List Item) : Except Refusal State :=
  items.foldlM loop.step state

variable {loop} {state final : State} {items : List Item}

theorem run_nil : loop.run state [] = .ok state := rfl

theorem run_cons (item : Item) :
    loop.run state (item :: items) = (loop.step state item).bind fun next =>
      loop.run next items := rfl

/-- The first iteration of a successful loop. -/
theorem exists_of_run_cons {item : Item} (done : loop.run state (item :: items) = .ok final) :
    ∃ next, loop.step state item = .ok next ∧ loop.run next items = .ok final := by
  rw [run_cons] at done
  cases stepped : loop.step state item with
  | error refusal =>
      rw [stepped] at done
      cases done
  | ok next =>
      rw [stepped] at done
      exact ⟨next, rfl, done⟩

theorem row_step_other {next : State} {item : Item} (stepped : loop.step state item = .ok next)
    {key : Key} (other : key ≠ loop.key item) : loop.row next key = loop.row state key := by
  rw [loop.row_step stepped, Function.update_of_ne other]

/-- Rows of keys outside the batch are untouched. -/
theorem row_run_of_notMem (loop : KeyedLoop State Item Key Row Refusal)
    (done : loop.run state items = .ok final) {key : Key}
    (absent : key ∉ items.map loop.key) : loop.row final key = loop.row state key := by
  induction items generalizing state with
  | nil =>
      cases done
      rfl
  | cons item items ih =>
      rcases exists_of_run_cons done with ⟨next, stepped, rest⟩
      simp only [List.map_cons, List.mem_cons, not_or] at absent
      rw [ih rest absent.2, row_step_other stepped absent.1]

/-- The row of an item's key is changed by that item alone. -/
theorem row_run_of_mem (loop : KeyedLoop State Item Key Row Refusal)
    (done : loop.run state items = .ok final)
    (distinct : (items.map loop.key).Nodup) {item : Item} (mem : item ∈ items) :
    loop.row final (loop.key item) = loop.change item (loop.row state (loop.key item)) := by
  induction items generalizing state with
  | nil => cases mem
  | cons first items ih =>
      rcases exists_of_run_cons done with ⟨next, stepped, rest⟩
      rcases List.nodup_cons.mp distinct with ⟨apart, distinctRest⟩
      rcases List.mem_cons.mp mem with rfl | later
      · rw [loop.row_run_of_notMem rest apart, loop.row_step stepped, Function.update_self]
      · have other : loop.key item ≠ loop.key first := by
          intro same
          exact apart (same ▸ List.mem_map_of_mem later)
        rw [ih rest distinctRest later, row_step_other stepped other]

/-- While the rows of the remaining items are untouched, so are their gains. -/
theorem map_gain_step {next : State} {item : Item} (stepped : loop.step state item = .ok next)
    (apart : loop.key item ∉ items.map loop.key) :
    items.map (fun later => loop.gain later (loop.row next (loop.key later))) =
      items.map fun later => loop.gain later (loop.row state (loop.key later)) := by
  apply List.map_congr_left
  intro later mem
  have other : loop.key later ≠ loop.key item := by
    intro same
    exact apart (same ▸ List.mem_map_of_mem mem)
  rw [row_step_other stepped other]

/-- What every iteration preserves holds after the loop. -/
theorem invariant_run (loop : KeyedLoop State Item Key Row Refusal) (invariant : State → Prop)
    (preserved : ∀ {state next item}, loop.step state item = .ok next → invariant state →
      invariant next)
    (done : loop.run state items = .ok final) (initially : invariant state) :
    invariant final := by
  induction items generalizing state with
  | nil =>
      cases done
      exact initially
  | cons item items ih =>
      rcases exists_of_run_cons done with ⟨next, stepped, rest⟩
      exact ih rest (preserved stepped initially)

/-- The gauge grows by the gains on the initial rows. -/
theorem gauge_run (loop : KeyedLoop State Item Key Row Refusal)
    (done : loop.run state items = .ok final)
    (distinct : (items.map loop.key).Nodup) :
    loop.gauge final = loop.gauge state +
      (items.map fun item => loop.gain item (loop.row state (loop.key item))).sum := by
  induction items generalizing state with
  | nil =>
      cases done
      simp
  | cons item items ih =>
      rcases exists_of_run_cons done with ⟨next, stepped, rest⟩
      rcases List.nodup_cons.mp distinct with ⟨apart, distinctRest⟩
      rw [ih rest distinctRest, map_gain_step stepped apart, loop.gauge_step stepped]
      simp only [List.map_cons, List.sum_cons]
      ring

/-- A loop with non-negative gains whose body accepts an item exactly when the item fits
its row and the gauge stays within the limit succeeds exactly when all items fit their
initial rows and the final gauge is within the limit. -/
theorem run_ok_iff (loop : KeyedLoop State Item Key Row Refusal) (limit : ℤ)
    (fits : Item → Row → Prop) (sound : Row → Prop)
    (nonneg : ∀ item row, sound row → 0 ≤ loop.gain item row)
    (accepts : ∀ {state item}, loop.gauge state ≤ limit →
      sound (loop.row state (loop.key item)) →
      ((∃ next, loop.step state item = .ok next) ↔
        fits item (loop.row state (loop.key item)) ∧
          loop.gauge state + loop.gain item (loop.row state (loop.key item)) ≤ limit))
    (within : loop.gauge state ≤ limit)
    (initially : ∀ item ∈ items, sound (loop.row state (loop.key item)))
    (distinct : (items.map loop.key).Nodup) :
    (∃ final, loop.run state items = .ok final) ↔
      (∀ item ∈ items, fits item (loop.row state (loop.key item))) ∧
        loop.gauge state +
          (items.map fun item => loop.gain item (loop.row state (loop.key item))).sum ≤
            limit := by
  induction items generalizing state with
  | nil => simpa [run_nil] using within
  | cons item items ih =>
      rcases List.nodup_cons.mp distinct with ⟨apart, distinctRest⟩
      have rest_nonneg : 0 ≤ (items.map fun later =>
          loop.gain later (loop.row state (loop.key later))).sum := by
        apply List.sum_nonneg
        intro gain mem
        rcases List.mem_map.mp mem with ⟨later, laterMem, rfl⟩
        exact nonneg later _ (initially later (List.mem_cons_of_mem _ laterMem))
      have first := accepts within (initially item List.mem_cons_self)
      have unchanged : ∀ {next}, loop.step state item = .ok next → ∀ later ∈ items,
          loop.row next (loop.key later) = loop.row state (loop.key later) := by
        intro next stepped later mem
        apply row_step_other stepped
        intro same
        exact apart (same ▸ List.mem_map_of_mem mem)
      have tail : ∀ {next}, loop.step state item = .ok next →
          ((∃ final, loop.run next items = .ok final) ↔
            (∀ later ∈ items, fits later (loop.row state (loop.key later))) ∧
              loop.gauge state + loop.gain item (loop.row state (loop.key item)) +
                (items.map fun later =>
                  loop.gain later (loop.row state (loop.key later))).sum ≤ limit) := by
        intro next stepped
        have gauged := loop.gauge_step stepped
        have stillWithin : loop.gauge next ≤ limit := by
          rw [gauged]
          exact (first.mp ⟨next, stepped⟩).2
        rw [ih stillWithin _ distinctRest, map_gain_step stepped apart, gauged]
        · refine and_congr_left' (forall₂_congr fun later mem => ?_)
          rw [unchanged stepped later mem]
        · intro later mem
          rw [unchanged stepped later mem]
          exact initially later (List.mem_cons_of_mem _ mem)
      simp only [List.forall_mem_cons, List.map_cons, List.sum_cons, ← add_assoc]
      constructor
      · rintro ⟨final, done⟩
        rcases exists_of_run_cons done with ⟨next, stepped, rest⟩
        rcases (tail stepped).mp ⟨final, rest⟩ with ⟨restFits, total⟩
        exact ⟨⟨(first.mp ⟨next, stepped⟩).1, restFits⟩, total⟩
      · rintro ⟨⟨itemFits, restFits⟩, total⟩
        rcases first.mpr ⟨itemFits, by omega⟩ with ⟨next, stepped⟩
        rcases (tail stepped).mpr ⟨restFits, total⟩ with ⟨final, done⟩
        refine ⟨final, ?_⟩
        rw [run_cons, stepped]
        exact done

end KeyedLoop

end TelemtPanel.Library
