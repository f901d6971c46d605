import TelemtPanel.Web.History.Slice

/-!
# Growth is counted once

The steps of a series tile the time it was observed when nothing is missing, and their
growth is then the growth of the counter, but for aggregates whose observations all fall
on one moment.  A slice of a sorted series has the steps of the series that lie inside
it.  What the loop does not keep is the order across a refused point: its memory is
cleared there, and points that go back in time behind it are counted a second time.
-/

namespace TelemtPanel.Web.History

/-- Steps that cover the time from one moment to another without a gap. -/
def Tiles : ℚ → List CounterStep → ℚ → Prop
  | start, [], stop => start = stop
  | start, step :: rest, stop => step.start = start ∧ Tiles step.stop rest stop

theorem Tiles.append {start middle stop : ℚ} {steps more : List CounterStep}
    (first : Tiles start steps middle) (second : Tiles middle more stop) :
    Tiles start (steps ++ more) stop := by
  induction steps generalizing start with
  | nil =>
      cases first
      exact second
  | cons step steps ih => exact ⟨first.1, ih first.2⟩

/-- Sum of the growth of steps. -/
def growth (steps : List CounterStep) : ℚ := (steps.map CounterStep.delta).sum

@[simp]
theorem growth_append (steps more : List CounterStep) :
    growth (steps ++ more) = growth steps + growth more := by
  rw [growth, List.map_append, List.sum_append, growth, growth]

/-- The entry follows another one without anything unknown in between. -/
def Adjoins (entry next : Entry) : Prop :=
  Bridged entry.ending next ∨
    (next.seen.first = entry.seen.last ∧ next.seen.firstValue = entry.seen.value)

/-- The movement inside an entry is completely known. -/
def Known (entry : Entry) : Prop :=
  entry.seen.first < entry.seen.last → ∃ own ∈ entry.step, own.complete = true

/-- Points of which none is refused, each adjoining the one before and completely known. -/
def Continuous (points : List Point) : Prop :=
  ∃ run : List Entry, points.map entryOf = run.map some ∧ run.IsChain Adjoins ∧
    ∀ entry ∈ run, Known entry

/-- The delta of every aggregate is its last value less its first one. -/
def Matched (points : List Point) : Prop :=
  ∀ point ∈ points, point.tier ≠ none → ∀ seen, observed point = some seen →
    point.observedDelta = some (.finite (seen.value - seen.firstValue))

/-- Change of value inside an observation that takes no time. -/
def Observed.jump (seen : Observed) : ℚ :=
  if seen.first < seen.last then 0 else seen.value - seen.firstValue

/-- Changes of value inside the observations that take no time. -/
def jumps (points : List Point) : ℚ :=
  (points.map fun point => ((observed point).map Observed.jump).getD 0).sum

/-- An entry that adjoins the memory becomes the memory. -/
theorem Adjoins.continues {entry next : Entry} (adjoins : Adjoins entry next)
    (known : Known next) : Continues (some entry.ending) next ∧
      nextPrevious (some entry.ending) next = next.ending := by
  have later : ¬next.seen.first < entry.ending.ts := by
    rcases adjoins with bridged | ⟨same, -⟩
    · exact not_lt.mpr bridged.1.le
    · exact not_lt.mpr same.ge
  refine ⟨⟨?_, known⟩, if_neg fun inside => later inside.1⟩
  rintro before ⟨⟩
  exact adjoins

theorem continuesFrom_iff (entry : Entry) (entries : List (Option Entry)) :
    ContinuesFrom (some entry.ending) entries ↔ ∃ run : List Entry, entries = run.map some ∧
      (entry :: run).IsChain Adjoins ∧ ∀ other ∈ run, Known other := by
  induction entries generalizing entry with
  | nil =>
      refine iff_of_true trivial ⟨[], rfl, ?_, by simp⟩
      exact List.isChain_singleton entry
  | cons next entries ih =>
      cases next with
      | none =>
          refine iff_of_false (fun impossible => impossible) ?_
          rintro ⟨run, same, -⟩
          cases run <;> cases same
      | some next =>
          constructor
          · rintro ⟨⟨joined, known⟩, further⟩
            have adjoins : Adjoins entry next := joined _ rfl
            rw [(adjoins.continues known).2] at further
            rcases (ih next).mp further with ⟨run, rfl, chain, others⟩
            refine ⟨next :: run, rfl, .cons_cons adjoins chain, ?_⟩
            intro other mem
            rcases List.mem_cons.mp mem with rfl | mem
            · exact known
            · exact others other mem
          · rintro ⟨run, same, chain, others⟩
            rcases run with _ | ⟨first, run⟩
            · cases same
            · rw [List.map_cons, List.cons_eq_cons, Option.some_inj] at same
              rcases same with ⟨rfl, rfl⟩
              rw [List.isChain_cons_cons] at chain
              have continues := chain.1.continues (others next List.mem_cons_self)
              refine ⟨continues.1, ?_⟩
              rw [continues.2, ih next]
              exact ⟨run, rfl, chain.2, fun other mem => others other (List.mem_cons_of_mem _ mem)⟩

/-- Nothing is missing exactly when the points are continuous. -/
theorem complete_iff (points : List Point) :
    (counterSteps points).2 = false ↔ Continuous points := by
  rw [counterSteps_complete, Continuous]
  cases points.map entryOf with
  | nil => exact iff_of_true trivial ⟨[], rfl, .nil, by simp⟩
  | cons first entries =>
      cases first with
      | none =>
          refine iff_of_false (fun impossible => impossible) ?_
          rintro ⟨run, same, -⟩
          cases run <;> cases same
      | some entry =>
          have rest := continuesFrom_iff entry entries
          rw [ContinuesFrom, nextPrevious, rest]
          constructor
          · rintro ⟨⟨-, known⟩, run, rfl, chain, others⟩
            refine ⟨entry :: run, rfl, chain, ?_⟩
            intro other mem
            rcases List.mem_cons.mp mem with rfl | mem
            · exact known
            · exact others other mem
          · rintro ⟨run, same, chain, others⟩
            rcases run with _ | ⟨head, run⟩
            · cases same
            · rw [List.map_cons, List.cons_eq_cons, Option.some_inj] at same
              rcases same with ⟨rfl, rfl⟩
              exact ⟨⟨(by rintro before ⟨⟩), others entry List.mem_cons_self⟩, run, rfl, chain,
                fun other mem => others other (List.mem_cons_of_mem _ mem)⟩

/-- The movement inside an entry is its change of value. -/
def Entry.Fits (entry : Entry) : Prop :=
  ∀ own ∈ entry.own, own.delta = entry.seen.value - entry.seen.firstValue

theorem own_tiles {entry : Entry} (known : Known entry) :
    Tiles entry.seen.first entry.own entry.seen.last ∧
      (entry.Fits → growth entry.own =
        entry.seen.value - entry.seen.firstValue - entry.seen.jump) := by
  by_cases long : entry.seen.first < entry.seen.last
  · rcases known long with ⟨own, found, -⟩
    have isOwn : entry.own = [own] := by simp [Entry.own, long, Option.mem_def.mp found]
    have bounds := entry.bounds own found
    refine ⟨?_, fun fits => ?_⟩
    · rw [isOwn]
      exact ⟨bounds.1, bounds.2.1⟩
    · have delta := fits own (by rw [isOwn]; exact List.mem_singleton_self own)
      simp [growth, isOwn, Observed.jump, long, delta]
  · have isNone : entry.own = [] := by simp [Entry.own, long]
    refine ⟨?_, fun _ => ?_⟩
    · rw [isNone]
      exact le_antisymm entry.seen.ordered (not_lt.mp long)
    · simp [growth, isNone, Observed.jump, long]

/-- Entries that adjoin each other are tiled from the memory to the end of the last one. -/
theorem run_tiles (entry : Entry) {run : List Entry} (chain : (entry :: run).IsChain Adjoins)
    (known : ∀ other ∈ run, Known other) :
    Tiles entry.seen.last (stepsFrom (some entry.ending) (run.map some))
        ((entry :: run).getLast (by simp)).seen.last ∧
      ((∀ other ∈ run, other.Fits) →
        growth (stepsFrom (some entry.ending) (run.map some)) =
          ((entry :: run).getLast (by simp)).seen.value - entry.seen.value -
            (run.map fun other => other.seen.jump).sum) := by
  induction run generalizing entry with
  | nil => simp [stepsFrom, Tiles, growth]
  | cons next run ih =>
      rw [List.isChain_cons_cons] at chain
      have isKnown := known next List.mem_cons_self
      have continues := chain.1.continues isKnown
      rcases ih next chain.2 fun other mem => known other (List.mem_cons_of_mem _ mem) with
        ⟨tiles, sum⟩
      rcases own_tiles isKnown with ⟨ownTiles, ownSum⟩
      have later : ¬next.seen.first < entry.ending.ts := by
        rcases chain.1 with bridged | ⟨same, -⟩
        · exact not_lt.mpr bridged.1.le
        · exact not_lt.mpr same.ge
      have bridge : Tiles entry.seen.last
            (if Bridged entry.ending next then [bridgeStep entry.ending next] else [])
            next.seen.first ∧
          growth (if Bridged entry.ending next then [bridgeStep entry.ending next] else []) =
            next.seen.firstValue - entry.seen.value := by
        by_cases bridged : Bridged entry.ending next
        · rw [if_pos bridged]
          exact ⟨⟨rfl, rfl⟩, by simp [growth, bridgeStep, Entry.ending]⟩
        · rcases chain.1 with bridged' | ⟨same, sameValue⟩
          · exact absurd bridged' bridged
          · rw [if_neg bridged]
            exact ⟨same.symm, by simp [growth, sameValue]⟩
      rw [List.map_cons, stepsFrom, emitted, if_neg later, continues.2, List.getLast_cons_cons]
      refine ⟨(bridge.1.append ownTiles).append tiles, ?_⟩
      intro fits
      rw [growth_append, growth_append, bridge.2, ownSum (fits next List.mem_cons_self),
        sum fun other mem => fits other (List.mem_cons_of_mem _ mem), List.map_cons, List.sum_cons]
      ring

theorem jumps_eq {points : List Point} {run : List Entry}
    (same : points.map entryOf = run.map some) :
    jumps points = (run.map fun entry => entry.seen.jump).sum := by
  have pointwise (point : Point) : ((observed point).map Observed.jump).getD 0 =
      ((entryOf point).map fun entry => entry.seen.jump).getD 0 := by
    rw [entryOf, Option.map_map]
    rfl
  have mapped := congrArg (List.map fun entry : Option Entry =>
    (entry.map fun entry => entry.seen.jump).getD 0) same
  rw [List.map_map, List.map_map] at mapped
  rw [jumps, List.map_congr_left fun point _ => pointwise point]
  exact congrArg List.sum mapped

theorem observed_raw {point : Point} {seen : Observed} (raw : point.tier = none)
    (found : observed point = some seen) : seen.first = seen.last := by
  rw [observed, counterObservation, raw] at found
  simp only at found
  split at found
  · rename_i first last _ sameFirst sameLast _
    rw [sameFirst, Number.finite.injEq] at sameLast
    split at found
    · cases found
      exact sameLast
    · cases found
  · cases found

theorem measured_delta {point : Point} {seen : Observed} {own : CounterStep}
    (found : measured point seen = some own) : point.observedDelta = some (.finite own.delta) := by
  unfold measured at found
  split at found
  · rename_i delta seconds isDelta _
    split at found
    · cases found
      exact isDelta
    · cases found
  · cases found

theorem Matched.fits {points : List Point} {run : List Entry} (matched : Matched points)
    (same : points.map entryOf = run.map some) {entry : Entry} (mem : entry ∈ run) :
    entry.Fits := by
  have inEntries : some entry ∈ points.map entryOf := same ▸ List.mem_map_of_mem mem
  rcases List.mem_map.mp inEntries with ⟨point, isPoint, read⟩
  rcases entryOf_eq_some read with ⟨isSeen, isMeasured⟩
  intro own isOwn
  rcases mem_own isOwn with ⟨long, found, -⟩
  have aggregate : point.tier ≠ none := fun raw =>
    absurd (observed_raw raw isSeen) long.ne
  have delta := matched point isPoint aggregate _ isSeen
  rw [measured_delta (isMeasured.trans found), Option.some_inj, Number.finite.injEq] at delta
  exact delta

/-- When nothing is missing, the steps tile the observed span, and their growth is the growth of
the counter when the aggregates say so. -/
def TilesSpan (points : List Point) : Prop :=
  (counterSteps points).2 = false → points = [] ∨ ∃ first last,
    points.head?.bind observed = some first ∧ points.getLast?.bind observed = some last ∧
    Tiles first.first (counterSteps points).1 last.last ∧
    (Matched points → growth (counterSteps points).1 = last.value - first.firstValue)

/-- The growth of continuous points, up to the observations that take no time. -/
theorem continuous_spec {points : List Point} (continuous : Continuous points)
    (nonempty : points ≠ []) : ∃ first last,
    points.head?.bind observed = some first ∧ points.getLast?.bind observed = some last ∧
    Tiles first.first (counterSteps points).1 last.last ∧
    (Matched points → growth (counterSteps points).1 =
      last.value - first.firstValue - jumps points) := by
  rcases continuous with ⟨run, same, chain, known⟩
  rcases run with _ | ⟨entry, run⟩
  · exact absurd (List.map_eq_nil_iff.mp same) nonempty
  have seenOf (point : Point) : observed point = (entryOf point).map Entry.seen := by
    rw [entryOf, Option.map_map]
    exact (Option.map_id' (x := observed point)).symm
  have head : points.head?.bind observed = some entry.seen := by
    have isHead := congrArg List.head? same
    rw [List.head?_map, List.map_cons, List.head?_cons] at isHead
    rcases Option.map_eq_some_iff.mp isHead with ⟨point, isPoint, read⟩
    rw [isPoint, Option.bind_some, seenOf, read, Option.map_some]
  have last : points.getLast?.bind observed = some ((entry :: run).getLast (by simp)).seen := by
    have isLast := congrArg List.getLast? same
    rw [List.getLast?_map, List.getLast?_map,
      List.getLast?_eq_some_getLast (List.cons_ne_nil entry run), Option.map_some] at isLast
    rcases Option.map_eq_some_iff.mp isLast with ⟨point, isPoint, read⟩
    rw [isPoint, Option.bind_some, seenOf, read, Option.map_some]
  have isKnown := known entry List.mem_cons_self
  rcases own_tiles isKnown with ⟨ownTiles, ownSum⟩
  rcases run_tiles entry chain fun other mem => known other (List.mem_cons_of_mem _ mem) with
    ⟨tiles, sum⟩
  refine ⟨_, _, head, last, ?_, ?_⟩
  · rw [counterSteps_steps, same, List.map_cons, stepsFrom]
    exact ownTiles.append tiles
  · intro matched
    have fits {other : Entry} (mem : other ∈ entry :: run) : other.Fits := matched.fits same mem
    have rest : growth (stepsFrom (some (nextPrevious none entry)) (run.map some)) = _ :=
      sum fun other mem => fits (List.mem_cons_of_mem _ mem)
    rw [counterSteps_steps, same, List.map_cons, stepsFrom, growth_append, emitted,
      ownSum (fits List.mem_cons_self), rest, jumps_eq same, List.map_cons, List.sum_cons]
    ring

theorem tilesSpan_iff (points : List Point) :
    TilesSpan points ↔ (Continuous points → Matched points → jumps points = 0) := by
  rw [TilesSpan, complete_iff]
  constructor
  · intro spans continuous matched
    rcases spans continuous with rfl | ⟨first, last, isFirst, isLast, -, sum⟩
    · rfl
    · have nonempty : points ≠ [] := by
        rintro rfl
        cases isFirst
      rcases continuous_spec continuous nonempty with ⟨first', last', isFirst', isLast', -, sum'⟩
      rw [isFirst', Option.some_inj] at isFirst
      rw [isLast', Option.some_inj] at isLast
      have total := (sum matched).symm.trans (sum' matched)
      rw [isFirst, isLast] at total
      linarith
  · intro flat continuous
    by_cases nonempty : points = []
    · exact .inl nonempty
    · rcases continuous_spec continuous nonempty with ⟨first, last, isFirst, isLast, tiles, sum⟩
      refine .inr ⟨first, last, isFirst, isLast, tiles, fun matched => ?_⟩
      rw [sum matched, flat continuous matched, sub_zero]

/-- The growth of a series is counted once: the steps are in time and grow, they tile the span when
nothing is missing, and a slice has the steps of the series inside its window. -/
structure CountsOnce (series : HistorySeries) : Prop where
  inTime : InTime (counterSteps series.points).1
  grows : ∀ step ∈ (counterSteps series.points).1, step.start < step.stop ∧ 0 ≤ step.delta
  spans : TilesSpan series.points
  slices : isCounter series = true → Separate series.points → ∀ lower upper, lower ≤ upper →
    (counterSteps (sliceHistory series (.finite lower) (.finite upper)).points).1 =
      inside lower upper (counterSteps series.points).1

/-- Nothing that is counted behind a refused point begins before something that is counted in front
of it has ended. -/
def RunsInTime (points : List Point) : Prop :=
  ∀ before refused after, points = before ++ refused :: after → observed refused = none →
    ∀ start stop start' stop', Counts (before.map entryOf) start stop →
      Counts (after.map entryOf) start' stop' → stop ≤ start'

theorem runsInTime_iff (points : List Point) :
    RunsInTime points ↔ InTime (counterSteps points).1 := by
  rw [counterSteps_steps, steps_inTime_iff]
  constructor
  · intro inTime before after same
    rcases List.map_eq_append_iff.mp same with ⟨front, back, rfl, rfl, isBack⟩
    rcases List.map_eq_cons_iff.mp isBack with ⟨refused, back, rfl, isRefused, rfl⟩
    exact inTime front refused back rfl (Option.map_eq_none_iff.mp isRefused)
  · rintro inTime before refused after rfl isRefused
    apply inTime
    rw [List.map_append, List.map_cons, entryOf, isRefused]
    rfl

/-- Growth is counted once exactly when the points behind a refused one count nothing that was
already counted, and continuous points with matching deltas do not jump within one moment. -/
theorem growth_counted_once_iff (series : HistorySeries) :
    CountsOnce series ↔ RunsInTime series.points ∧
      (Continuous series.points → Matched series.points → jumps series.points = 0) := by
  constructor
  · intro once
    refine ⟨?_, (tilesSpan_iff _).mp once.spans⟩
    exact (runsInTime_iff _).mpr once.inTime
  · rintro ⟨inTime, flat⟩
    refine { inTime := ?_, grows := ?_, spans := (tilesSpan_iff _).mpr flat, slices := ?_ }
    · exact (runsInTime_iff _).mp inTime
    · intro step mem
      rw [counterSteps_steps] at mem
      exact steps_grow mem
    · intro counter separate lower upper _
      exact slice_steps counter separate lower upper

/-- Two samples, a legacy aggregate without observations, and the same two samples again. -/
def repeatedSeries : HistorySeries where
  metric := "traffic"
  state := .ready
  requestedFromEpochSecs := .finite 0
  points := [{ ts := .finite 0, v := .finite 0 }, { ts := .finite 5, v := .finite 50 },
    { ts := .finite 0, v := .finite 0, tier := some .oneMinute },
    { ts := .finite 0, v := .finite 0 }, { ts := .finite 5, v := .finite 50 }]

/-- An aggregate that saw two values within one second. -/
def jumpSeries : HistorySeries where
  metric := "traffic"
  state := .ready
  requestedFromEpochSecs := .finite 0
  points := [
    { ts := .finite 0, v := .finite 9, tier := some .fiveMinutes,
      firstObservedEpochSecs := some (.finite 7), firstObservedValue := some (.finite 4),
      lastObservedEpochSecs := some (.finite 7), observedDelta := some (.finite 5),
      observedSeconds := some (.finite 0), gaps := some (.finite 0) }]

/-- The growth from the first sample to the second one is counted twice, and the movement within a
second is left out though nothing is marked as missing. -/
theorem growth_not_counted_once : ¬CountsOnce repeatedSeries ∧ ¬CountsOnce jumpSeries := by
  constructor
  · intro once
    have twice : (counterSteps repeatedSeries.points).1 =
        [{ start := 0, stop := 5, delta := 50, seconds := 5, complete := true },
          { start := 0, stop := 5, delta := 50, seconds := 5, complete := true }] := by
      decide +kernel
    have inTime := once.inTime
    rw [twice, InTime, List.pairwise_pair] at inTime
    exact absurd inTime (by decide +kernel)
  · intro once
    have complete : (counterSteps jumpSeries.points).2 = false := by decide +kernel
    have nothing : (counterSteps jumpSeries.points).1 = [] := by decide +kernel
    rcases once.spans complete with none | ⟨first, last, isFirst, isLast, -, sum⟩
    · cases none
    · have seen : jumpSeries.points.head?.bind observed = some
          { first := 7, last := 7, firstValue := 4, value := 9, ordered := le_rfl } := by
        decide +kernel
      have matched : Matched jumpSeries.points := by
        intro point mem _ seen' isSeen
        rw [List.mem_singleton.mp mem] at isSeen ⊢
        have same : seen' =
            { first := 7, last := 7, firstValue := 4, value := 9, ordered := le_rfl } :=
          Option.some_inj.mp (isSeen.symm.trans seen)
        rw [same]
        decide +kernel
      rw [seen, Option.some_inj] at isFirst
      have same : last = first := by
        rw [← isFirst]
        exact Option.some_inj.mp (isLast.symm.trans seen)
      have total := sum matched
      rw [nothing, same, ← isFirst] at total
      exact absurd total (by decide +kernel)

end TelemtPanel.Web.History
