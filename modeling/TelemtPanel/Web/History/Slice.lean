import TelemtPanel.Web.History.Runs

/-!
# Slices of a sorted series

A slice keeps the observations inside a window.  Of an aggregate that the window cuts,
the observation at its inner end remains as a raw sample.  As long as the observations
of the series follow each other, the slice has exactly the steps inside the window.
-/

namespace TelemtPanel.Web.History

/-- The points are observations one after the other, and raw ones carry no times of their own. -/
def Separate (points : List Point) : Prop :=
  (∃ run : List Entry, points.map entryOf = run.map some ∧
    run.Pairwise fun entry next => entry.seen.last < next.seen.first) ∧
  ∀ point ∈ points, point.tier = none →
    point.firstObservedEpochSecs = none ∧ point.lastObservedEpochSecs = none

/-- A raw sample. -/
def sample (ts value : ℚ) : Entry where
  seen := { first := ts, last := ts, firstValue := value, value := value, ordered := le_rfl }
  step := none
  bounds := by rintro own ⟨⟩

/-- What a slice keeps of an entry. -/
def cut (lower upper : ℚ) (entry : Entry) : List Entry :=
  if entry.seen.last < lower ∨ upper < entry.seen.first then []
  else if lower ≤ entry.seen.first ∧ entry.seen.last ≤ upper then [entry]
  else if lower ≤ entry.seen.first then [sample entry.seen.first entry.seen.firstValue]
  else if entry.seen.last ≤ upper then [sample entry.seen.last entry.seen.value]
  else []

theorem entryOf_sample (ts value : ℚ) :
    entryOf { ts := .finite ts, v := .finite value } = some (sample ts value) := by
  simp [entryOf, observed, counterObservation, measured, sample]

/-- The interval of an observed point is the one that is charted. -/
theorem observed_interval {point : Point} {seen : Observed} (found : observed point = some seen)
    (raw : point.tier = none →
      point.firstObservedEpochSecs = none ∧ point.lastObservedEpochSecs = none) :
    historyPointStart point = .finite seen.first ∧ historyPointEnd point = .finite seen.last ∧
      point.v = .finite seen.value ∧
      counterObservation point = some { first := .finite seen.first, last := .finite seen.last,
                                        firstValue := .finite seen.firstValue } := by
  unfold observed at found
  split at found
  · cases found
  · rename_i observation isObservation
    split at found
    · rename_i value first last firstValue isValue isFirst isLast isFirstValue
      split at found
      · cases found
        have parts : observation = { first := .finite first, last := .finite last,
                                     firstValue := .finite firstValue } := by
          rw [← isFirst, ← isLast, ← isFirstValue]
        rw [isObservation, parts]
        rw [parts, counterObservation] at isObservation
        split at isObservation
        · rename_i isRaw
          rcases raw isRaw with ⟨noFirst, noLast⟩
          rw [Option.some_inj, Observation.mk.injEq] at isObservation
          refine ⟨?_, ?_, isValue, rfl⟩
          · rw [historyPointStart, noFirst]
            exact isObservation.1
          · rw [historyPointEnd, noLast, isRaw]
            exact isObservation.2.1
        · split at isObservation
          · rename_i sameFirst sameLast
            rcases Option.map_eq_some_iff.mp isObservation with ⟨_, -, same⟩
            rw [Observation.mk.injEq] at same
            refine ⟨?_, ?_, isValue, rfl⟩
            · rw [historyPointStart, sameFirst]
              exact same.1
            · rw [historyPointEnd, sameLast]
              exact same.2.1
          · cases isObservation
      · cases found
    · cases found

theorem slicePoint_entries {point : Point} {entry : Entry} (read : entryOf point = some entry)
    (raw : point.tier = none →
      point.firstObservedEpochSecs = none ∧ point.lastObservedEpochSecs = none)
    (lower upper : ℚ) :
    (slicePoint true (.finite lower) (.finite upper) point).map entryOf =
      (cut lower upper entry).map some := by
  rcases observed_interval (entryOf_eq_some read).1 raw with ⟨start, stop, value, found⟩
  have ordered := entry.seen.ordered
  simp only [slicePoint, start, stop, found, value, Number.lt_finite, Number.le_finite,
    Bool.or_eq_true, Bool.and_eq_true, decide_eq_true_eq, if_true, cut]
  split
  · rfl
  · rename_i meets
    split
    · simp [read]
    · rename_i cuts
      rw [not_or, not_lt, not_lt] at meets
      by_cases left : lower ≤ entry.seen.first
      · rw [if_pos ⟨left, meets.2⟩, if_neg fun inside => cuts ⟨left, inside.2⟩, if_pos left]
        simp [entryOf_sample]
      · rw [if_neg fun inside => left inside.1, if_neg left]
        by_cases right : entry.seen.last ≤ upper
        · rw [if_pos ⟨meets.1, right⟩, if_pos right]
          simp [entryOf_sample]
        · rw [if_neg fun inside => right inside.2, if_neg right]
          rfl

theorem flatMap_slicePoint {points : List Point} {run : List Entry}
    (same : points.map entryOf = run.map some)
    (raw : ∀ point ∈ points, point.tier = none →
      point.firstObservedEpochSecs = none ∧ point.lastObservedEpochSecs = none)
    (lower upper : ℚ) :
    (points.flatMap (slicePoint true (.finite lower) (.finite upper))).map entryOf =
      (run.flatMap (cut lower upper)).map some := by
  induction points generalizing run with
  | nil =>
      rw [List.map_nil, eq_comm, List.map_eq_nil_iff] at same
      subst same
      rfl
  | cons point points ih =>
      rcases run with _ | ⟨entry, run⟩
      · cases same
      · rw [List.map_cons, List.map_cons, List.cons_eq_cons] at same
        rw [List.flatMap_cons, List.flatMap_cons, List.map_append, List.map_append,
          slicePoint_entries same.1 (raw point List.mem_cons_self),
          ih same.2 fun other mem => raw other (List.mem_cons_of_mem _ mem)]

section Window

variable {lower upper : ℚ} {entry : Entry} {run : List Entry} {previous kept : Option Previous}

/-- The step lies inside the window. -/
def Inside (lower upper : ℚ) (step : CounterStep) : Prop := lower ≤ step.start ∧ step.stop ≤ upper

instance decidableInside (lower upper : ℚ) (step : CounterStep) :
    Decidable (Inside lower upper step) := inferInstanceAs (Decidable (_ ∧ _))

def inside (lower upper : ℚ) (steps : List CounterStep) : List CounterStep :=
  steps.filter fun step => Inside lower upper step

theorem inside_eq_nil {steps : List CounterStep}
    (outside : ∀ step ∈ steps, ¬Inside lower upper step) : inside lower upper steps = [] := by
  rw [inside, List.filter_eq_nil_iff]
  simpa using outside

theorem inside_eq_self {steps : List CounterStep}
    (within : ∀ step ∈ steps, Inside lower upper step) : inside lower upper steps = steps := by
  rw [inside, List.filter_eq_self]
  simpa using within

/-- What the slice remembers of the memory of the series: nothing of what lies before the window,
the same inside it, and it does not matter behind it. -/
inductive Carries (lower upper : ℚ) : Option Previous → Option Previous → Prop where
  | start : Carries lower upper none none
  | before {previous : Previous} (early : previous.ts < lower) :
      Carries lower upper (some previous) none
  | within {previous : Previous} (from_ : lower ≤ previous.ts) (to_ : previous.ts ≤ upper) :
      Carries lower upper (some previous) (some previous)
  | beyond {previous : Previous} {kept : Option Previous} (late : upper < previous.ts) :
      Carries lower upper (some previous) kept

/-- Steps of an entry that does not begin before the memory. -/
def bridges (previous : Option Previous) (entry : Entry) : List CounterStep :=
  match previous with
  | none => []
  | some previous => if Bridged previous entry then [bridgeStep previous entry] else []

theorem emitted_follows (follows : ∀ before ∈ previous, before.ts ≤ entry.seen.first) :
    emitted previous entry = bridges previous entry ++ entry.own ∧
      nextPrevious previous entry = entry.ending := by
  cases previous with
  | none => exact ⟨rfl, rfl⟩
  | some previous =>
      have later : ¬entry.seen.first < previous.ts := not_lt.mpr (follows previous rfl)
      exact ⟨by rw [emitted, if_neg later, bridges], if_neg fun behind => later behind.1⟩

theorem mem_bridges {step : CounterStep} (mem : step ∈ bridges previous entry) :
    ∃ before, previous = some before ∧ step.start = before.ts ∧ step.stop = entry.seen.first := by
  cases previous with
  | none => cases mem
  | some previous =>
      simp only [bridges] at mem
      split at mem
      · rw [List.mem_singleton.mp mem]
        exact ⟨previous, rfl, rfl, rfl⟩
      · cases mem

/-- Behind the window there are no steps, and nothing is kept. -/
theorem beyond_window {memory : Previous} (late : upper < memory.ts)
    (follows : ∀ other ∈ run, memory.ts ≤ other.seen.first) :
    run.flatMap (cut lower upper) = [] ∧
      inside lower upper (stepsFrom (some memory) (run.map some)) = [] := by
  constructor
  · rw [List.flatMap_eq_nil_iff]
    intro other mem
    exact if_pos (.inr (late.trans_le (follows other mem)))
  · refine inside_eq_nil ?_
    rintro step mem ⟨-, ends⟩
    have bounds := (run_inTime (some memory) run).2 step mem
    exact absurd ends (not_le.mpr (late.trans_le ((bounds.1 memory rfl).trans bounds.2.1.le)))

/-- One entry in the series and in the slice. -/
theorem cut_step (carries : Carries lower upper previous kept)
    (near : ∀ before ∈ previous, before.ts ≤ upper)
    (follows : ∀ before ∈ previous, before.ts ≤ entry.seen.first) :
    ∃ kept', Carries lower upper (some entry.ending) kept' ∧
      ∀ rest, stepsFrom kept ((cut lower upper entry).map some ++ rest) =
        inside lower upper (emitted previous entry) ++ stepsFrom kept' rest := by
  have ordered := entry.seen.ordered
  rcases emitted_follows follows with ⟨same, -⟩
  have split : inside lower upper (emitted previous entry) =
      inside lower upper (bridges previous entry) ++ inside lower upper entry.own := by
    rw [same, inside, List.filter_append, inside, inside]
  have ownOutside (out : ¬(lower ≤ entry.seen.first ∧ entry.seen.last ≤ upper)) :
      inside lower upper entry.own = [] := by
    refine inside_eq_nil ?_
    rintro step mem ⟨begins, ends⟩
    rcases mem_own mem with ⟨-, -, start, stop, -⟩
    exact out ⟨start ▸ begins, stop ▸ ends⟩
  have bridgeEarly (early : entry.seen.first < lower) :
      inside lower upper (bridges previous entry) = [] := by
    refine inside_eq_nil ?_
    rintro step mem ⟨begins, -⟩
    rcases mem_bridges mem with ⟨before, isBefore, start, -⟩
    rw [start] at begins
    exact absurd (begins.trans (follows before isBefore)) (not_le.mpr early)
  have noneEarly (early : entry.seen.first < lower) : kept = none := by
    cases carries with
    | start => rfl
    | before _ => rfl
    | within from_ _ =>
        exact absurd (from_.trans (follows _ rfl)) (not_le.mpr early)
    | beyond late => exact absurd (near _ rfl) (not_le.mpr late)
  have bridgeLate (late : upper < entry.seen.first) :
      inside lower upper (bridges previous entry) = [] := by
    refine inside_eq_nil ?_
    rintro step mem ⟨-, ends⟩
    rcases mem_bridges mem with ⟨before, -, -, stop⟩
    exact absurd (stop ▸ ends) (not_le.mpr late)
  have bridgeWithin (early : lower ≤ entry.seen.first) (late : entry.seen.first ≤ upper)
      (other : Entry) (sameFirst : other.seen.first = entry.seen.first)
      (sameValue : other.seen.firstValue = entry.seen.firstValue) :
      inside lower upper (bridges previous entry) = bridges kept other ∧
        ∀ before ∈ kept, before.ts ≤ other.seen.first := by
    cases carries with
    | start => exact ⟨rfl, by rintro before ⟨⟩⟩
    | before behind =>
        refine ⟨?_, by rintro before ⟨⟩⟩
        refine inside_eq_nil ?_
        rintro step mem ⟨begins, -⟩
        rcases mem_bridges mem with ⟨before, isBefore, start, -⟩
        cases isBefore
        exact absurd (start ▸ begins) (not_le.mpr behind)
    | @within memory from_ to_ =>
        have sameBridge : Bridged memory other ↔ Bridged memory entry := by
          rw [Bridged, Bridged, sameFirst, sameValue]
        have sameStep : bridgeStep memory other = bridgeStep memory entry := by
          rw [bridgeStep, bridgeStep, sameFirst, sameValue]
        constructor
        · rw [inside_eq_self]
          · simp only [bridges, sameBridge, sameStep]
          · intro step mem
            rcases mem_bridges mem with ⟨before, isBefore, start, stop⟩
            cases isBefore
            exact ⟨start ▸ from_, stop ▸ late⟩
        · rw [sameFirst]
          exact follows
    | beyond far => exact absurd (near _ rfl) (not_le.mpr far)
  rw [split]
  by_cases before : entry.seen.last < lower
  · have early := ordered.trans_lt before
    refine ⟨none, .before before, fun rest => ?_⟩
    rw [cut, if_pos (.inl before), bridgeEarly early,
      ownOutside fun within => absurd within.1 (not_le.mpr early), noneEarly early]
    rfl
  by_cases after : upper < entry.seen.first
  · refine ⟨kept, .beyond (after.trans_le ordered), fun rest => ?_⟩
    rw [cut, if_pos (.inr after), bridgeLate after,
      ownOutside fun within => absurd (ordered.trans within.2) (not_le.mpr after)]
    rfl
  rw [not_lt] at before after
  have meets : ¬(entry.seen.last < lower ∨ upper < entry.seen.first) := by
    rw [not_or, not_lt, not_lt]
    exact ⟨before, after⟩
  by_cases left : lower ≤ entry.seen.first
  · by_cases right : entry.seen.last ≤ upper
    · rcases bridgeWithin left after entry rfl rfl with ⟨bridge, follows'⟩
      refine ⟨some entry.ending, .within before right, fun rest => ?_⟩
      rcases emitted_follows follows' with ⟨emits, next⟩
      rw [cut, if_neg meets, if_pos ⟨left, right⟩, List.map_singleton, List.singleton_append,
        stepsFrom, emits, next, bridge, inside_eq_self]
      intro step mem
      rcases mem_own mem with ⟨-, -, start, stop, -⟩
      exact ⟨start ▸ left, stop ▸ right⟩
    · rcases bridgeWithin left after (sample entry.seen.first entry.seen.firstValue) rfl rfl with
        ⟨bridge, follows'⟩
      refine ⟨some (sample entry.seen.first entry.seen.firstValue).ending,
        .beyond (not_le.mp right), fun rest => ?_⟩
      rcases emitted_follows follows' with ⟨emits, next⟩
      rw [cut, if_neg meets, if_neg fun within => right within.2, if_pos left,
        List.map_singleton, List.singleton_append, stepsFrom, emits, next, bridge,
        ownOutside fun within => right within.2]
      simp [Entry.own, sample]
  · have early := not_le.mp left
    rw [bridgeEarly early, ownOutside fun within => left within.1]
    by_cases right : entry.seen.last ≤ upper
    · refine ⟨some entry.ending, .within before right, fun rest => ?_⟩
      rw [cut, if_neg meets, if_neg fun within => left within.1, if_neg left, if_pos right,
        noneEarly early, List.map_singleton, List.singleton_append, stepsFrom]
      simp [emitted, Entry.own, sample, nextPrevious, Entry.ending]
    · refine ⟨none, .beyond (not_le.mp right), fun rest => ?_⟩
      rw [cut, if_neg meets, if_neg fun within => left within.1, if_neg left, if_neg right,
        noneEarly early]
      rfl

/-- The steps of the slice are the steps inside the window. -/
theorem cut_steps (carries : Carries lower upper previous kept)
    (follows : ∀ before ∈ previous, ∀ other ∈ run, before.ts ≤ other.seen.first)
    (separate : run.Pairwise fun entry next => entry.seen.last < next.seen.first) :
    stepsFrom kept ((run.flatMap (cut lower upper)).map some) =
      inside lower upper (stepsFrom previous (run.map some)) := by
  induction run generalizing previous kept with
  | nil => rfl
  | cons entry run ih =>
      rcases List.pairwise_cons.mp separate with ⟨later, separate'⟩
      by_cases far : ∃ memory ∈ previous, upper < memory.ts
      · rcases far with ⟨memory, isMemory, late⟩
        cases isMemory
        rcases @beyond_window lower _ _ _ late (follows memory rfl) with ⟨nothing, none⟩
        rw [nothing, none]
        rfl
      · have near : ∀ before ∈ previous, before.ts ≤ upper := fun before isBefore =>
          not_lt.mp fun late => far ⟨before, isBefore, late⟩
        have first : ∀ before ∈ previous, before.ts ≤ entry.seen.first := fun before isBefore =>
          follows before isBefore entry List.mem_cons_self
        rcases cut_step carries near first with ⟨kept', carries', step⟩
        have rest := ih carries' (by rintro before ⟨⟩ other mem; exact (later other mem).le)
          separate'
        rw [List.flatMap_cons, List.map_append, step, rest, List.map_cons, stepsFrom,
          (emitted_follows first).2, inside, inside, inside, List.filter_append]

end Window

/-- A slice of a separate series has the steps of the series that lie inside it. -/
theorem slice_steps {series : HistorySeries} (counter : isCounter series = true)
    (separate : Separate series.points) (lower upper : ℚ) :
    (counterSteps (sliceHistory series (.finite lower) (.finite upper)).points).1 =
      inside lower upper (counterSteps series.points).1 := by
  rcases separate with ⟨⟨run, same, apart⟩, raw⟩
  rw [counterSteps_steps, counterSteps_steps, sliceHistory, counter]
  simp only
  rw [flatMap_slicePoint same raw, same]
  exact cut_steps .start (by rintro before ⟨⟩) apart

end TelemtPanel.Web.History
