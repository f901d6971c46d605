import TelemtPanel.Web.History.Intervals

/-!
# Runs of observations

A point that is refused clears the memory of the loop, so that a list of points falls
into runs of observations.  Within a run the memory is the latest observation, and what
a point adds depends on it alone: nothing when the point begins before the latest
observation, otherwise the bridge from there and the movement inside the point.
-/

namespace TelemtPanel.Web.History

/-- An observation with the movement that was measured inside it. -/
structure Entry where
  seen : Observed
  step : Option CounterStep
  bounds : ∀ own, step = some own →
    own.start = seen.first ∧ own.stop = seen.last ∧ 0 ≤ own.delta

theorem measured_bounds (point : Point) (seen : Observed) (own : CounterStep)
    (found : measured point seen = some own) :
    own.start = seen.first ∧ own.stop = seen.last ∧ 0 ≤ own.delta := by
  unfold measured at found
  split at found
  · split at found
    · rename_i possible
      cases found
      exact ⟨rfl, rfl, possible.1⟩
    · cases found
  · cases found

/-- What the loop reads of a point. -/
def entryOf (point : Point) : Option Entry :=
  (observed point).map fun seen =>
    { seen := seen, step := measured point seen, bounds := measured_bounds point seen }

/-- The observation that an entry ends with. -/
def Entry.ending (entry : Entry) : Previous :=
  { ts := entry.seen.last, value := entry.seen.value }

/-- The movement inside an entry that takes time. -/
def Entry.own (entry : Entry) : List CounterStep :=
  if entry.seen.first < entry.seen.last then entry.step.toList else []

/-- The entry is close enough behind an observation, and the counter has not gone back. -/
def Bridged (previous : Previous) (entry : Entry) : Prop :=
  previous.ts < entry.seen.first ∧ entry.seen.first - previous.ts ≤ observationGap ∧
    previous.value ≤ entry.seen.firstValue

instance decidableBridged (previous : Previous) (entry : Entry) :
    Decidable (Bridged previous entry) := inferInstanceAs (Decidable (_ ∧ _))

def bridgeStep (previous : Previous) (entry : Entry) : CounterStep :=
  { start := previous.ts, stop := entry.seen.first,
    delta := entry.seen.firstValue - previous.value,
    seconds := entry.seen.first - previous.ts, complete := true }

/-- What an entry adds behind an observation. -/
def emitted (previous : Option Previous) (entry : Entry) : List CounterStep :=
  match previous with
  | none => entry.own
  | some previous =>
      if entry.seen.first < previous.ts then []
      else (if Bridged previous entry then [bridgeStep previous entry] else []) ++ entry.own

/-- The latest observation after an entry. -/
def nextPrevious (previous : Option Previous) (entry : Entry) : Previous :=
  match previous with
  | none => entry.ending
  | some previous =>
      if entry.seen.first < previous.ts ∧ entry.seen.last ≤ previous.ts then previous
      else entry.ending

/-- The entry leaves nothing unknown behind an observation. -/
def Continues (previous : Option Previous) (entry : Entry) : Prop :=
  (∀ before ∈ previous, Bridged before entry ∨
    (entry.seen.first = before.ts ∧ entry.seen.firstValue = before.value)) ∧
  (entry.seen.first < entry.seen.last → ∃ own ∈ entry.step, own.complete = true)

theorem entryOf_eq_some {point : Point} {entry : Entry} (read : entryOf point = some entry) :
    observed point = some entry.seen ∧ measured point entry.seen = entry.step := by
  rcases Option.map_eq_some_iff.mp read with ⟨seen, isSeen, rfl⟩
  exact ⟨isSeen, rfl⟩

theorem own_entry (state : CounterState) {point : Point} {entry : Entry}
    (same : measured point entry.seen = entry.step) :
    (state.own point entry.seen).steps = state.steps ++ entry.own ∧
    (state.own point entry.seen).previous = some entry.ending ∧
    ((state.own point entry.seen).incomplete = false ↔ state.incomplete = false ∧
      (entry.seen.first < entry.seen.last → ∃ own ∈ entry.step, own.complete = true)) := by
  unfold CounterState.own Entry.own Entry.ending
  by_cases long : entry.seen.first < entry.seen.last
  · rw [same]
    cases entry.step <;> simp [long]
  · simp [long]

/-- One turn of the loop in terms of what it reads. -/
theorem read_entry (state : CounterState) {point : Point} {entry : Entry}
    (read : entryOf point = some entry) :
    (state.read point).steps = state.steps ++ emitted state.previous entry ∧
    (state.read point).previous = some (nextPrevious state.previous entry) ∧
    ((state.read point).incomplete = false ↔
      state.incomplete = false ∧ Continues state.previous entry) := by
  rcases entryOf_eq_some read with ⟨isSeen, same⟩
  rw [CounterState.read, isSeen]
  simp only
  cases known : state.previous with
  | none => simpa [emitted, nextPrevious, Continues] using own_entry state same
  | some previous =>
      simp only [emitted, nextPrevious, Continues, Option.mem_some_iff, forall_eq']
      by_cases bridged : Bridged previous entry
      · have later : ¬entry.seen.first < previous.ts := not_lt.mpr bridged.1.le
        rw [if_pos (show _ ∧ _ ∧ _ from ⟨sub_pos.mpr bridged.1, bridged.2.1,
          sub_nonneg.mpr bridged.2.2⟩)]
        simpa [known, later, bridged, bridgeStep] using own_entry { state with
          steps := state.steps ++ [bridgeStep previous entry] } same
      · rw [if_neg (show ¬(_ ∧ _ ∧ _) from fun close => bridged ⟨sub_pos.mp close.1, close.2.1,
          sub_nonneg.mp close.2.2⟩)]
        by_cases equal : entry.seen.first = previous.ts ∧ entry.seen.firstValue = previous.value
        · rw [if_neg (by simp [equal.1, equal.2])]
          simpa [equal, bridged] using own_entry state same
        · have apart : entry.seen.first - previous.ts ≠ 0 ∨
              entry.seen.firstValue - previous.value ≠ 0 := by
            rw [sub_ne_zero, sub_ne_zero, ← not_and_or]
            exact equal
          rw [if_pos apart]
          by_cases earlier : entry.seen.first < previous.ts
          · rw [if_pos (sub_neg.mpr earlier)]
            by_cases longer : previous.ts < entry.seen.last
            · simp [earlier, longer, bridged, equal, Entry.ending, not_le.mpr longer]
            · simp [earlier, longer, bridged, equal, not_lt.mp longer]
          · rw [if_neg (by rw [sub_neg]; exact earlier)]
            simpa [known, earlier, bridged, equal] using own_entry { state with incomplete := true } same

theorem read_refused (state : CounterState) {point : Point} (refused : entryOf point = none) :
    state.read point = { state with incomplete := true, previous := none } := by
  rw [CounterState.read, Option.map_eq_none_iff.mp refused]

/-- The steps that a list of entries adds behind an observation; a refused point clears it. -/
def stepsFrom (previous : Option Previous) : List (Option Entry) → List CounterStep
  | [] => []
  | none :: rest => stepsFrom none rest
  | some entry :: rest => emitted previous entry ++ stepsFrom (nextPrevious previous entry) rest

/-- Nothing is unknown in a list of entries behind an observation. -/
def ContinuesFrom (previous : Option Previous) : List (Option Entry) → Prop
  | [] => True
  | none :: _ => False
  | some entry :: rest =>
      Continues previous entry ∧ ContinuesFrom (nextPrevious previous entry) rest

theorem foldl_read (state : CounterState) (points : List Point) :
    (points.foldl CounterState.read state).steps =
      state.steps ++ stepsFrom state.previous (points.map entryOf) ∧
    ((points.foldl CounterState.read state).incomplete = false ↔
      state.incomplete = false ∧ ContinuesFrom state.previous (points.map entryOf)) := by
  induction points generalizing state with
  | nil => simp [stepsFrom, ContinuesFrom]
  | cons point points ih =>
      rw [List.foldl_cons, List.map_cons]
      cases read : entryOf point with
      | none =>
          rw [read_refused state read]
          simpa [stepsFrom, ContinuesFrom] using
            ih { state with incomplete := true, previous := none }
      | some entry =>
          rcases read_entry state read with ⟨steps, previous, complete⟩
          rcases ih (state.read point) with ⟨steps', complete'⟩
          rw [steps', steps, previous, complete', complete, previous, stepsFrom, ContinuesFrom,
            List.append_assoc, and_assoc]
          exact ⟨rfl, Iff.rfl⟩

theorem counterSteps_steps (points : List Point) :
    (counterSteps points).1 = stepsFrom none (points.map entryOf) :=
  (foldl_read .initial points).1

theorem counterSteps_complete (points : List Point) :
    (counterSteps points).2 = false ↔ ContinuesFrom none (points.map entryOf) := by
  have complete := (foldl_read .initial points).2
  exact complete.trans (and_iff_right rfl)

/-- The maximal runs of points that are not refused. -/
def runs (entries : List (Option Entry)) : List (List Entry) :=
  (entries.splitOnP Option.isNone).map List.reduceOption

@[simp]
theorem runs_nil : runs [] = [[]] := rfl

@[simp]
theorem runs_none (rest : List (Option Entry)) : runs (none :: rest) = [] :: runs rest := by
  simp [runs, List.splitOnP_cons_eq_if_modifyHead]

@[simp]
theorem runs_some (entry : Entry) (rest : List (Option Entry)) :
    runs (some entry :: rest) = (runs rest).modifyHead (List.cons entry) := by
  rw [runs, List.splitOnP_cons_eq_if_modifyHead, if_neg (by simp), runs]
  cases rest.splitOnP Option.isNone with
  | nil => rfl
  | cons run others => simp

theorem exists_run (entries : List (Option Entry)) :
    ∃ run others, runs entries = run :: others := by
  induction entries with
  | nil => exact ⟨[], [], rfl⟩
  | cons entry entries ih =>
      cases entry with
      | none => exact ⟨[], runs entries, runs_none entries⟩
      | some entry =>
          rcases ih with ⟨run, others, same⟩
          exact ⟨entry :: run, others, by rw [runs_some, same, List.modifyHead_cons]⟩

/-- Every run begins without memory but the first one. -/
theorem stepsFrom_runs (previous : Option Previous) {entries : List (Option Entry)}
    {run : List Entry} {others : List (List Entry)} (same : runs entries = run :: others) :
    stepsFrom previous entries = stepsFrom previous (run.map some) ++
      others.flatMap fun run => stepsFrom none (run.map some) := by
  induction entries generalizing previous run others with
  | nil =>
      cases same
      rfl
  | cons entry entries ih =>
      rcases exists_run entries with ⟨run', others', same'⟩
      cases entry with
      | none =>
          rw [runs_none, same', List.cons_eq_cons] at same
          rcases same with ⟨rfl, rfl⟩
          rw [stepsFrom, ih none same']
          rfl
      | some entry =>
          rw [runs_some, same', List.modifyHead_cons, List.cons_eq_cons] at same
          rcases same with ⟨rfl, rfl⟩
          rw [stepsFrom, ih _ same', List.map_cons, stepsFrom, List.append_assoc]

theorem steps_eq_runs (entries : List (Option Entry)) : stepsFrom none entries =
    (runs entries).flatMap fun run => stepsFrom none (run.map some) := by
  rcases exists_run entries with ⟨run, others, same⟩
  rw [stepsFrom_runs none same, same, List.flatMap_cons]

/-- The latest observation of a run: an observation that begins before it and ends no later does
not count as newer. -/
def latest (before : List Entry) : Option Previous :=
  before.foldl (fun previous entry => some (nextPrevious previous entry)) none

theorem latest_append (before : List Entry) (entry : Entry) :
    latest (before ++ [entry]) = some (nextPrevious (latest before) entry) := by
  rw [latest, List.foldl_append]
  rfl

theorem le_nextPrevious (previous : Previous) (entry : Entry) :
    previous.ts ≤ (nextPrevious (some previous) entry).ts ∧
      entry.seen.last ≤ (nextPrevious (some previous) entry).ts ∧
      ((nextPrevious (some previous) entry).ts = previous.ts ∨
        (nextPrevious (some previous) entry).ts = entry.seen.last) := by
  have ordered := entry.seen.ordered
  simp only [nextPrevious]
  split
  · rename_i inside
    exact ⟨le_rfl, inside.2, .inl rfl⟩
  · rename_i newer
    refine ⟨?_, le_rfl, .inr rfl⟩
    by_contra older
    have shorter : entry.seen.last < previous.ts := not_le.mp older
    exact newer ⟨ordered.trans_lt shorter, shorter.le⟩

/-- The latest observation is where the last of the run ends. -/
theorem latest_spec (before : List Entry) :
    (latest before = none → before = []) ∧ ∀ previous ∈ latest before,
      (∀ entry ∈ before, entry.seen.last ≤ previous.ts) ∧
        ∃ entry ∈ before, entry.seen.last = previous.ts := by
  induction before using List.reverseRecOn with
  | nil => exact ⟨fun _ => rfl, by rintro previous ⟨⟩⟩
  | append_singleton before entry ih =>
      rw [latest_append]
      refine ⟨(by rintro ⟨⟩), ?_⟩
      rintro _ ⟨⟩
      cases known : latest before with
      | none =>
          rw [ih.1 known]
          simp [nextPrevious, Entry.ending]
      | some previous =>
          rcases ih.2 previous known with ⟨above, witness, isMember, attained⟩
          rcases le_nextPrevious previous entry with ⟨further, covers, which⟩
          refine ⟨?_, ?_⟩
          · intro other mem
            rcases List.mem_append.mp mem with mem | mem
            · exact (above other mem).trans further
            · rw [List.mem_singleton.mp mem]
              exact covers
          · rcases which with same | same
            · exact ⟨witness, List.mem_append_left _ isMember, by rw [same, attained]⟩
            · exact ⟨entry, by simp, same.symm⟩

/-- The stretches of time that an entry counts behind the entries of its run. -/
inductive Counted (before : List Entry) (entry : Entry) : ℚ → ℚ → Prop where
  | own (clear : ∀ earlier ∈ before, earlier.seen.last ≤ entry.seen.first)
      (long : entry.seen.first < entry.seen.last) (known : entry.step.isSome = true) :
      Counted before entry entry.seen.first entry.seen.last
  | bridge {previous : Previous} (behind : latest before = some previous)
      (bridged : Bridged previous entry) : Counted before entry previous.ts entry.seen.first

theorem mem_own {entry : Entry} {step : CounterStep} (mem : step ∈ entry.own) :
    entry.seen.first < entry.seen.last ∧ step ∈ entry.step ∧ step.start = entry.seen.first ∧
      step.stop = entry.seen.last ∧ 0 ≤ step.delta := by
  unfold Entry.own at mem
  split at mem
  · rename_i long
    rw [Option.mem_toList] at mem
    exact ⟨long, mem, entry.bounds step mem⟩
  · cases mem

theorem exists_own_iff {entry : Entry} {start stop : ℚ} :
    (∃ step ∈ entry.own, step.start = start ∧ step.stop = stop) ↔
      entry.seen.first < entry.seen.last ∧ entry.step.isSome = true ∧
        entry.seen.first = start ∧ entry.seen.last = stop := by
  constructor
  · rintro ⟨step, mem, rfl, rfl⟩
    rcases mem_own mem with ⟨long, found, begins, ends, -⟩
    exact ⟨long, Option.isSome_of_mem found, begins.symm, ends.symm⟩
  · rintro ⟨long, known, rfl, rfl⟩
    rcases Option.isSome_iff_exists.mp known with ⟨step, found⟩
    have bounds := entry.bounds step found
    exact ⟨step, by simp [Entry.own, long, found], bounds.1, bounds.2.1⟩

/-- What an entry adds is what it counts. -/
theorem exists_emitted_iff {before : List Entry} {entry : Entry} {start stop : ℚ} :
    (∃ step ∈ emitted (latest before) entry, step.start = start ∧ step.stop = stop) ↔
      Counted before entry start stop := by
  cases known : latest before with
  | none =>
      have empty := (latest_spec before).1 known
      subst empty
      rw [emitted, exists_own_iff]
      constructor
      · rintro ⟨long, measured, rfl, rfl⟩
        exact .own (by simp) long measured
      · intro counted
        cases counted with
        | own _ long measured => exact ⟨long, measured, rfl, rfl⟩
        | bridge behind => cases behind
  | some previous =>
      rcases (latest_spec before).2 previous known with ⟨above, witness, isMember, attained⟩
      rw [emitted]
      split
      · rename_i earlier
        refine iff_of_false (by simp) ?_
        intro counted
        cases counted with
        | own clear _ _ =>
            have behind := clear witness isMember
            rw [attained] at behind
            exact absurd earlier (not_lt.mpr behind)
        | bridge behind bridged =>
            rw [known, Option.some_inj] at behind
            subst behind
            exact absurd earlier (not_lt.mpr bridged.1.le)
      · rename_i later
        constructor
        · rintro ⟨step, mem, rfl, rfl⟩
          rcases List.mem_append.mp mem with mem | mem
          · split at mem
            · rename_i bridged
              rw [List.mem_singleton.mp mem]
              exact .bridge known bridged
            · cases mem
          · rcases mem_own mem with ⟨long, found, begins, ends, -⟩
            rw [begins, ends]
            exact .own (fun other mem => (above other mem).trans (not_lt.mp later)) long
              (Option.isSome_of_mem found)
        · intro counted
          cases counted with
          | own _ long measured =>
              rcases exists_own_iff.mpr ⟨long, measured, rfl, rfl⟩ with ⟨step, mem, bounds⟩
              exact ⟨step, List.mem_append_right _ mem, bounds⟩
          | bridge behind bridged =>
              rw [known, Option.some_inj] at behind
              subst behind
              exact ⟨bridgeStep previous entry, by simp [bridged], rfl, rfl⟩

/-- A stretch of time that some entry of a run counts. -/
def Stretch (run : List Entry) (start stop : ℚ) : Prop :=
  ∃ before entry after, run = before ++ entry :: after ∧ Counted before entry start stop

/-- The steps of a run are its stretches. -/
theorem exists_step_iff {run : List Entry} {start stop : ℚ} :
    (∃ step ∈ stepsFrom none (run.map some), step.start = start ∧ step.stop = stop) ↔
      Stretch run start stop := by
  have further : ∀ before, (∃ step ∈ stepsFrom (latest before) (run.map some),
      step.start = start ∧ step.stop = stop) ↔
        ∃ passed entry after, run = passed ++ entry :: after ∧
          Counted (before ++ passed) entry start stop := by
    induction run with
    | nil => simp [stepsFrom]
    | cons entry run ih =>
        intro before
        have next := ih (before ++ [entry])
        rw [latest_append] at next
        simp only [List.map_cons, stepsFrom, List.mem_append, or_and_right, exists_or,
          exists_emitted_iff, next]
        constructor
        · rintro (counted | ⟨passed, other, after, rfl, counted⟩)
          · exact ⟨[], entry, run, rfl, by rwa [List.append_nil]⟩
          · exact ⟨entry :: passed, other, after, rfl, by simpa using counted⟩
        · rintro ⟨passed, other, after, same, counted⟩
          cases passed with
          | nil =>
              rw [List.nil_append, List.cons_eq_cons] at same
              rcases same with ⟨rfl, rfl⟩
              exact .inl (by rwa [List.append_nil] at counted)
          | cons first passed =>
              rw [List.cons_append, List.cons_eq_cons] at same
              rcases same with ⟨rfl, rfl⟩
              exact .inr ⟨passed, other, after, rfl, by simpa using counted⟩
  exact further []

/-- Steps one after the other. -/
def InTime (steps : List CounterStep) : Prop :=
  steps.Pairwise fun step next => step.stop ≤ next.start

/-- What an entry adds lies between the latest observation before it and the one after it. -/
theorem emitted_spec (previous : Option Previous) (entry : Entry) :
    InTime (emitted previous entry) ∧ ∀ step ∈ emitted previous entry,
      (∀ before ∈ previous, before.ts ≤ step.start) ∧ step.start < step.stop ∧
        step.stop ≤ (nextPrevious previous entry).ts ∧ 0 ≤ step.delta := by
  have ownInTime : InTime entry.own := by
    unfold Entry.own InTime
    split
    · cases entry.step <;> simp
    · exact .nil
  cases previous with
  | none =>
      refine ⟨ownInTime, ?_⟩
      intro step mem
      rcases mem_own mem with ⟨long, -, begins, ends, positive⟩
      refine ⟨(by rintro before ⟨⟩), begins ▸ ends ▸ long, ?_, positive⟩
      rw [ends]
      rfl
  | some previous =>
      simp only [emitted]
      split
      · exact ⟨.nil, by simp⟩
      · rename_i later
        have next : nextPrevious (some previous) entry = entry.ending :=
          if_neg fun inside => later inside.1
        have ownBounds : ∀ step ∈ entry.own, step.start = entry.seen.first ∧
            step.start < step.stop ∧ step.stop = entry.seen.last ∧ 0 ≤ step.delta := by
          intro step mem
          rcases mem_own mem with ⟨long, -, begins, ends, positive⟩
          exact ⟨begins, begins ▸ ends ▸ long, ends, positive⟩
        rw [next]
        split
        · rename_i bridged
          refine ⟨?_, ?_⟩
          · rw [List.singleton_append]
            refine .cons ?_ ownInTime
            intro step mem
            exact (ownBounds step mem).1.ge
          · intro step mem
            rcases List.mem_cons.mp mem with rfl | mem
            · refine ⟨?_, bridged.1, entry.seen.ordered, sub_nonneg.mpr bridged.2.2⟩
              rintro before ⟨⟩
              exact le_rfl
            · rcases ownBounds step mem with ⟨begins, proper, ends, positive⟩
              refine ⟨?_, proper, ends.le, positive⟩
              rintro before ⟨⟩
              exact begins ▸ bridged.1.le
        · rw [List.nil_append]
          refine ⟨ownInTime, ?_⟩
          intro step mem
          rcases ownBounds step mem with ⟨begins, proper, ends, positive⟩
          refine ⟨?_, proper, ends.le, positive⟩
          rintro before ⟨⟩
          exact begins ▸ not_lt.mp later

/-- The steps of a run are in time, each of them takes time, and none goes back. -/
theorem run_inTime (previous : Option Previous) (run : List Entry) :
    InTime (stepsFrom previous (run.map some)) ∧ ∀ step ∈ stepsFrom previous (run.map some),
      (∀ before ∈ previous, before.ts ≤ step.start) ∧ step.start < step.stop ∧ 0 ≤ step.delta := by
  induction run generalizing previous with
  | nil => exact ⟨.nil, by simp [stepsFrom]⟩
  | cons entry run ih =>
      rcases emitted_spec previous entry with ⟨inTime, bounds⟩
      rcases ih (some (nextPrevious previous entry)) with ⟨inTime', bounds'⟩
      rw [List.map_cons, stepsFrom]
      refine ⟨List.pairwise_append.mpr ⟨inTime, inTime', ?_⟩, ?_⟩
      · intro step mem next mem'
        exact (bounds step mem).2.2.1.trans ((bounds' next mem').1 _ rfl)
      · intro step mem
        rcases List.mem_append.mp mem with mem | mem
        · have bound := bounds step mem
          exact ⟨bound.1, bound.2.1, bound.2.2.2⟩
        · rcases bounds' step mem with ⟨later, proper, positive⟩
          refine ⟨?_, proper, positive⟩
          rintro before ⟨⟩
          exact (le_nextPrevious before entry).1.trans (later _ rfl)

/-- A stretch of time that some of the points counts. -/
def Counts (entries : List (Option Entry)) (start stop : ℚ) : Prop :=
  ∃ run ∈ runs entries, Stretch run start stop

/-- The steps are the stretches that are counted. -/
theorem exists_steps_iff {entries : List (Option Entry)} {start stop : ℚ} :
    (∃ step ∈ stepsFrom none entries, step.start = start ∧ step.stop = stop) ↔
      Counts entries start stop := by
  rw [steps_eq_runs]
  constructor
  · rintro ⟨step, mem, bounds⟩
    rcases List.mem_flatMap.mp mem with ⟨run, isRun, mem⟩
    exact ⟨run, isRun, exists_step_iff.mp ⟨step, mem, bounds⟩⟩
  · rintro ⟨run, isRun, stretch⟩
    rcases exists_step_iff.mpr stretch with ⟨step, mem, bounds⟩
    exact ⟨step, List.mem_flatMap.mpr ⟨run, isRun, mem⟩, bounds⟩

/-- A refused point forgets what was counted before it. -/
theorem stepsFrom_refused (previous : Option Previous) (before after : List (Option Entry)) :
    stepsFrom previous (before ++ none :: after) =
      stepsFrom previous before ++ stepsFrom none after := by
  induction before generalizing previous with
  | nil => rfl
  | cons entry before ih =>
      cases entry with
      | none => exact ih none
      | some entry =>
          rw [List.cons_append, stepsFrom, ih, stepsFrom, List.append_assoc]

/-- What is counted behind a refused point is counted. -/
theorem Counts.behind {after : List (Option Entry)} {start stop : ℚ}
    (counts : Counts after start stop) (before : List (Option Entry)) :
    Counts (before ++ none :: after) start stop := by
  rcases exists_steps_iff.mpr counts with ⟨step, mem, bounds⟩
  apply exists_steps_iff.mp
  rw [stepsFrom_refused]
  exact ⟨step, List.mem_append_right _ mem, bounds⟩

/-- Points without a refused one, or the points in front of the first refused one. -/
theorem first_refused (entries : List (Option Entry)) : ∃ run : List Entry,
    entries = run.map some ∨ ∃ rest, entries = run.map some ++ none :: rest := by
  induction entries with
  | nil => exact ⟨[], .inl rfl⟩
  | cons entry entries ih =>
      cases entry with
      | none => exact ⟨[], .inr ⟨entries, rfl⟩⟩
      | some entry =>
          rcases ih with ⟨run, rfl | ⟨rest, rfl⟩⟩
          · exact ⟨entry :: run, .inl rfl⟩
          · exact ⟨entry :: run, .inr ⟨rest, rfl⟩⟩

/-- The steps are in time exactly when nothing that is counted behind a refused point begins before
something that is counted in front of it has ended. -/
theorem steps_inTime_iff (entries : List (Option Entry)) :
    InTime (stepsFrom none entries) ↔ ∀ before after, entries = before ++ none :: after →
      ∀ start stop start' stop', Counts before start stop → Counts after start' stop' →
        stop ≤ start' := by
  constructor
  · rintro inTime before after rfl start stop start' stop' counts counts'
    rw [stepsFrom_refused] at inTime
    rcases exists_steps_iff.mpr counts with ⟨step, mem, -, rfl⟩
    rcases exists_steps_iff.mpr counts' with ⟨next, mem', rfl, -⟩
    exact (List.pairwise_append.mp inTime).2.2 step mem next mem'
  · intro across
    induction many : entries.length using Nat.strongRecOn generalizing entries with
    | ind many_ ih =>
        rcases first_refused entries with ⟨run, rfl | ⟨rest, rfl⟩⟩
        · exact (run_inTime none run).1
        · rw [stepsFrom_refused]
          refine List.pairwise_append.mpr ⟨(run_inTime none run).1, ?_, ?_⟩
          · apply ih rest.length _ rest _ rfl
            · rw [← many, List.length_append, List.length_cons]
              omega
            · rintro before after rfl start stop start' stop' counts counts'
              exact across (run.map some ++ none :: before) after (by simp) start stop start' stop'
                (counts.behind _) counts'
          · intro step mem next mem'
            exact across _ rest rfl _ _ _ _ (exists_steps_iff.mp ⟨step, mem, rfl, rfl⟩)
              (exists_steps_iff.mp ⟨next, mem', rfl, rfl⟩)

theorem steps_grow {entries : List (Option Entry)} {step : CounterStep}
    (mem : step ∈ stepsFrom none entries) : step.start < step.stop ∧ 0 ≤ step.delta := by
  rw [steps_eq_runs, List.mem_flatMap] at mem
  rcases mem with ⟨run, -, mem⟩
  exact ((run_inTime none run).2 step mem).2

end TelemtPanel.Web.History
