import Mathlib

/-!
# Observed intervals of history points

A history series mixes raw samples and aggregates of several samples.  An aggregate
tells when its first and last samples were taken and, for a counter, the value at the
first one and the movement that was observed in between.  Growth of a counter is read
in steps: the movement inside an aggregate, and the difference from one observation to
the next when the two are close enough.
-/

namespace TelemtPanel.Web.History

/-- A number of the language; the finite ones are exact. -/
inductive Number where
  | finite (x : ℚ)
  | infinity (negative : Bool)
  | nan
  deriving DecidableEq, Repr

namespace Number

def lt : Number → Number → Bool
  | .finite x, .finite y => x < y
  | .finite _, .infinity negative => !negative
  | .infinity negative, .finite _ => negative
  | .infinity negative, .infinity negative' => negative && !negative'
  | .nan, _ => false
  | _, .nan => false

def le : Number → Number → Bool
  | .finite x, .finite y => x ≤ y
  | .finite _, .infinity negative => !negative
  | .infinity negative, .finite _ => negative
  | .infinity negative, .infinity negative' => negative || !negative'
  | .nan, _ => false
  | _, .nan => false

def add : Number → Number → Number
  | .finite x, .finite y => .finite (x + y)
  | .finite _, .infinity negative => .infinity negative
  | .infinity negative, .finite _ => .infinity negative
  | .infinity negative, .infinity negative' =>
      if negative = negative' then .infinity negative else .nan
  | .nan, _ => .nan
  | _, .nan => .nan

def neg : Number → Number
  | .finite x => .finite (-x)
  | .infinity negative => .infinity !negative
  | .nan => .nan

def sub (x y : Number) : Number := x.add y.neg

@[simp]
theorem lt_finite (x y : ℚ) : (finite x).lt (finite y) = decide (x < y) := rfl

@[simp]
theorem le_finite (x y : ℚ) : (finite x).le (finite y) = decide (x ≤ y) := rfl

end Number

/-- Resolution of an aggregate. -/
inductive Tier where
  | oneMinute
  | fiveMinutes
  | quarterHour
  | hour
  | day
  deriving DecidableEq, Repr

/-- `TIER_SECONDS`. -/
def tierSeconds : Tier → ℚ
  | .oneMinute => 60
  | .fiveMinutes => 300
  | .quarterHour => 900
  | .hour => 3600
  | .day => 86400

/-- `OBSERVATION_GAP`. -/
def observationGap : ℚ := 120

/-- The fields of a history point that intervals are read from. -/
structure Point where
  ts : Number
  v : Number
  tier : Option Tier := none
  firstObservedEpochSecs : Option Number := none
  firstObservedValue : Option Number := none
  lastObservedEpochSecs : Option Number := none
  observedDelta : Option Number := none
  observedSeconds : Option Number := none
  gaps : Option Number := none
  deriving DecidableEq, Repr

inductive SeriesState where
  | ready
  | disabled
  | empty
  | partialData
  deriving DecidableEq, Repr

structure HistorySeries where
  metric : String
  state : SeriesState
  requestedFromEpochSecs : Number
  points : List Point
  deriving DecidableEq, Repr

/-- Growth of a counter from one observation to another. -/
structure CounterStep where
  start : ℚ
  stop : ℚ
  delta : ℚ
  seconds : ℚ
  complete : Bool
  deriving DecidableEq, Repr

def historyPointStart (point : Point) : Number := point.firstObservedEpochSecs.getD point.ts

def historyPointEnd (point : Point) : Number :=
  point.lastObservedEpochSecs.getD (match point.tier with
    | some tier => point.ts.add (.finite (tierSeconds tier))
    | none => point.ts)

def isCounter (series : HistorySeries) : Bool :=
  series.metric ∈ ["traffic", "attempts", "refusals"]

/-- What `counterObservation` returns. -/
structure Observation where
  first : Number
  last : Number
  firstValue : Number
  deriving DecidableEq, Repr

def counterObservation (point : Point) : Option Observation :=
  match point.tier with
  | none => some { first := point.ts, last := point.ts, firstValue := point.v }
  | some _ =>
      match point.firstObservedEpochSecs, point.lastObservedEpochSecs with
      | some first, some last =>
          let recovered :=
            if point.gaps = some (.finite 0) then point.observedDelta.map point.v.sub else none
          (point.firstObservedValue.or recovered).map fun firstValue =>
            { first := first, last := last, firstValue := firstValue }
      | _, _ => none

/-- An observation that counts: its numbers are finite and it does not end before it begins. -/
structure Observed where
  first : ℚ
  last : ℚ
  firstValue : ℚ
  value : ℚ
  ordered : first ≤ last
  deriving DecidableEq, Repr

/-- The observation of a point unless the point is refused. -/
def observed (point : Point) : Option Observed :=
  match counterObservation point with
  | none => none
  | some observation =>
      match point.v, observation.first, observation.last, observation.firstValue with
      | .finite value, .finite first, .finite last, .finite firstValue =>
          if ordered : first ≤ last then
            some { first := first, last := last, firstValue := firstValue, value := value,
                   ordered := ordered }
          else none
      | _, _, _, _ => none

/-- The movement that an aggregate has observed, when its delta and its duration are possible; a
number that is not finite is not. -/
def measured (point : Point) (seen : Observed) : Option CounterStep :=
  match point.observedDelta, point.observedSeconds with
  | some (.finite delta), some (.finite seconds) =>
      if 0 ≤ delta ∧ 0 < seconds ∧ seconds ≤ seen.last - seen.first then
        some { start := seen.first, stop := seen.last, delta := delta, seconds := seconds,
               complete := decide (point.gaps = some (.finite 0)) &&
                 decide (seconds = seen.last - seen.first) }
      else none
  | _, _ => none

/-- The remembered observation. -/
structure Previous where
  ts : ℚ
  value : ℚ
  deriving DecidableEq, Repr

/-- Variables of the loop of `counterSteps`. -/
structure CounterState where
  steps : List CounterStep
  previous : Option Previous
  incomplete : Bool
  deriving DecidableEq, Repr

def CounterState.initial : CounterState := { steps := [], previous := none, incomplete := false }

/-- The part of the loop behind the bridge: the aggregate's own step, and the new memory. -/
def CounterState.own (state : CounterState) (point : Point) (seen : Observed) : CounterState :=
  let state :=
    if seen.first < seen.last then
      match measured point seen with
      | some step =>
          { state with
            steps := state.steps ++ [step]
            incomplete := state.incomplete || !step.complete }
      | none => { state with incomplete := true }
    else state
  { state with previous := some { ts := seen.last, value := seen.value } }

/-- One turn of the loop of `counterSteps`. -/
def CounterState.read (state : CounterState) (point : Point) : CounterState :=
  match observed point with
  | none => { state with incomplete := true, previous := none }
  | some seen =>
      match state.previous with
      | none => state.own point seen
      | some previous =>
          let seconds := seen.first - previous.ts
          let delta := seen.firstValue - previous.value
          if 0 < seconds ∧ seconds ≤ observationGap ∧ 0 ≤ delta then
            let bridge : CounterStep :=
              { start := previous.ts, stop := seen.first, delta := delta, seconds := seconds,
                complete := true }
            CounterState.own { state with steps := state.steps ++ [bridge] } point seen
          else if seconds ≠ 0 ∨ delta ≠ 0 then
            if seconds < 0 then
              -- overlapping aggregates cannot be split into independent deltas
              { state with
                incomplete := true
                previous := some (if previous.ts < seen.last then
                  { ts := seen.last, value := seen.value } else previous) }
            else CounterState.own { state with incomplete := true } point seen
          else state.own point seen

/-- `counterSteps`: the steps, and whether something is missing between them. -/
def counterSteps (points : List Point) : List CounterStep × Bool :=
  let final := points.foldl CounterState.read .initial
  (final.steps, final.incomplete)

/-- The points that a slice keeps of one point. -/
def slicePoint (counter : Bool) (lower upper : Number) (point : Point) : List Point :=
  let first := historyPointStart point
  let last := historyPointEnd point
  if last.lt lower || upper.lt first then []
  else if lower.le first && last.le upper then [point]
  else if counter then
    match counterObservation point with
    | none => []
    | some seen =>
        (if lower.le first && first.le upper then
          [({ ts := first, v := seen.firstValue } : Point)] else []) ++
        if lower.le last && last.le upper then [({ ts := last, v := point.v } : Point)] else []
  else []

/-- Whether a slice cuts a point. -/
def cutsPoint (lower upper : Number) (point : Point) : Bool :=
  let first := historyPointStart point
  let last := historyPointEnd point
  !(last.lt lower || upper.lt first) && !(lower.le first && last.le upper) &&
    ((first.lt lower && lower.lt last) || (first.lt upper && upper.lt last))

def sliceHistory (series : HistorySeries) (lower upper : Number) : HistorySeries :=
  let points := series.points.flatMap (slicePoint (isCounter series) lower upper)
  let cut := series.points.any (cutsPoint lower upper)
  let missing := cut || (isCounter series && (counterSteps points).2)
  { series with
    requestedFromEpochSecs := lower
    points := points
    state := if missing && series.state == .ready then .partialData else series.state }

end TelemtPanel.Web.History
