import TelemtPanel.Library.Segments
import TelemtPanel.Store.Metric.Live

/-!
# Aggregates of metric samples

A row of the history aggregates the samples of a bucket: how many there are, the
first and the last one, the extrema, the mean or the last value, and for a counter
how far it moved.  What lies between two samples is observed time, unless the
distance is too great or the counter was reset; then it is a gap.

`mergeMetricAggregates` computes the aggregate of two segments from theirs.  The
summary of a sequence says what an aggregate of its samples is, and merging the
summaries of two segments in order gives the summary of both.
-/

namespace TelemtPanel.Store

open TelemtPanel.Library

/-- The rational number of a finite value; other values are not kept. -/
def Double.rational : Double → ℚ
  | .finite value => value
  | _ => 0

/-- The value of a sample, taken exactly. -/
def MetricPoint.number (point : MetricPoint) : ℚ := point.value.rational

/-- A `MetricPoint` of the history, with exact values. -/
structure MetricAggregate where
  ts : ℤ
  value : ℚ
  tier : MetricTier
  max : ℚ
  samples : ℤ
  min : Option ℚ
  firstTS : ℤ
  lastTS : ℤ
  firstValue : ℚ
  delta : Option ℚ
  observedSeconds : ℤ
  gaps : ℤ
deriving DecidableEq, Repr

attribute [ext] MetricAggregate

/-- `MetricPoint{}`: no samples. -/
def MetricAggregate.zero : MetricAggregate where
  ts := 0
  value := 0
  tier := .metricTierRaw
  max := 0
  samples := 0
  min := none
  firstTS := 0
  lastTS := 0
  firstValue := 0
  delta := none
  observedSeconds := 0
  gaps := 0

/-- `metricObservationGap`, in seconds. -/
def metricObservationGap : ℤ := 120

def isCounterMetric (name : String) : Bool :=
  name = "traffic" || name = "attempts" || name = "refusals"

def metricBucketUsesLast (name : String) : Bool := isCounterMetric name || name = "mode.route"

/-- `mergeMetricAggregates` from the point where the earlier aggregate is the first one. -/
def joinMetricAggregates (name : String) (a b : MetricAggregate) : MetricAggregate :=
  let known := a.min.isSome && b.min.isSome
  let samples := a.samples + b.samples
  let max := Max.max a.max b.max
  let min := a.min.bind fun first => b.min.map fun second => Min.min first second
  let mean := a.value * ((a.samples : ℚ) / samples) + b.value * ((b.samples : ℚ) / samples)
  let earlier := known && decide (b.firstTS < a.firstTS)
  let gap := b.firstTS - a.lastTS
  let delta := a.delta.bind fun first => b.delta.map fun second => first + second
  let out : MetricAggregate :=
    { a with
      samples := samples
      max := max
      min := min
      value :=
        if metricBucketUsesLast name then if a.lastTS ≤ b.lastTS then b.value else a.value
        else min.elim mean fun least => Max.max least (Min.min max mean)
      firstTS := if earlier then b.firstTS else a.firstTS
      firstValue := if earlier then b.firstValue else a.firstValue
      lastTS := Max.max a.lastTS b.lastTS
      gaps := a.gaps + b.gaps
      observedSeconds := a.observedSeconds + b.observedSeconds
      delta := delta }
  if !known || decide (gap ≤ 0) then
    { out with gaps := out.gaps + 1, delta := none, observedSeconds := 0 }
  else if decide (metricObservationGap < gap) ||
      isCounterMetric name && decide (b.firstValue < a.value) then
    { out with gaps := out.gaps + 1 }
  else
    { out with
      observedSeconds := out.observedSeconds + gap
      delta := out.delta.map fun moved => moved + (b.firstValue - a.value) }

/-- `mergeMetricAggregates`. -/
def mergeMetricAggregates (name : String) (a b : MetricAggregate) : MetricAggregate :=
  if a.samples = 0 then b
  else if b.samples = 0 then a
  else if decide (b.lastTS < a.firstTS) && a.min.isSome && b.min.isSome then
    joinMetricAggregates name b a
  else joinMetricAggregates name a b

/-- The aggregate of one sample. -/
def sampleAggregate (name : String) (sample : MetricPoint) : MetricAggregate where
  ts := sample.ts
  value := sample.number
  tier := .metricTierRaw
  max := sample.number
  samples := 1
  min := some sample.number
  firstTS := sample.ts
  lastTS := sample.ts
  firstValue := sample.number
  delta := if isCounterMetric name then some 0 else none
  observedSeconds := 0
  gaps := 0

def aggregateMetricSamples (name : String) (samples : List MetricPoint) : MetricAggregate :=
  samples.foldl (fun out sample => mergeMetricAggregates name out (sampleAggregate name sample)) .zero

/-! ## Summaries -/

/-- No time is observed between two samples: they are too far apart, or the counter was reset. -/
def apart (name : String) (a b : MetricPoint) : Bool :=
  decide (metricObservationGap < b.ts - a.ts) ||
    isCounterMetric name && decide (b.number < a.number)

def observedBetween (name : String) (a b : MetricPoint) : ℤ :=
  if apart name a b then 0 else b.ts - a.ts

def movedBetween (name : String) (a b : MetricPoint) : ℚ :=
  if apart name a b then 0 else b.number - a.number

def gapBetween (name : String) (a b : MetricPoint) : ℤ := if apart name a b then 1 else 0

/-- What the aggregate of samples in order is. -/
def summary (name : String) : List MetricPoint → MetricAggregate
  | [] => .zero
  | first :: rest =>
      { ts := first.ts
        value :=
          if metricBucketUsesLast name then (rest.getLastD first).number
          else ((first :: rest).map MetricPoint.number).sum / (first :: rest).length
        tier := .metricTierRaw
        max := totalOf max MetricPoint.number first rest
        samples := (first :: rest).length
        min := some (totalOf min MetricPoint.number first rest)
        firstTS := first.ts
        lastTS := (rest.getLastD first).ts
        firstValue := first.number
        delta := if isCounterMetric name then some (linkSum (movedBetween name) (first :: rest))
          else none
        observedSeconds := linkSum (observedBetween name) (first :: rest)
        gaps := linkSum (gapBetween name) (first :: rest) }

variable {name : String}

theorem summary_singleton (name : String) (sample : MetricPoint) :
    summary name [sample] = sampleAggregate name sample := by
  simp [summary, sampleAggregate, totalOf]

/-- The mean lies between the extrema. -/
theorem mean_bounds (first : MetricPoint) (rest : List MetricPoint) :
    totalOf min MetricPoint.number first rest ≤
        ((first :: rest).map MetricPoint.number).sum / (first :: rest).length ∧
      ((first :: rest).map MetricPoint.number).sum / (first :: rest).length ≤
        totalOf max MetricPoint.number first rest := by
  have positive : (0 : ℚ) < (first :: rest).length := by
    rw [List.length_cons]
    positivity
  constructor
  · rw [le_div_iff₀ positive]
    have bound := List.card_nsmul_le_sum ((first :: rest).map MetricPoint.number)
      (totalOf min MetricPoint.number first rest) (by
        intro value mem
        rcases List.mem_map.mp mem with ⟨item, isItem, rfl⟩
        exact totalOf_min_le _ _ _ isItem)
    rw [List.length_map, nsmul_eq_mul] at bound
    linarith
  · rw [div_le_iff₀ positive]
    have bound := List.sum_le_card_nsmul ((first :: rest).map MetricPoint.number)
      (totalOf max MetricPoint.number first rest) (by
        intro value mem
        rcases List.mem_map.mp mem with ⟨item, isItem, rfl⟩
        exact le_totalOf_max _ _ _ isItem)
    rw [List.length_map, nsmul_eq_mul] at bound
    linarith

/-- The link between two segments is the one between the last sample and the next. -/
theorem apart_last (name : String) (x : MetricPoint) (front : List MetricPoint) (y : MetricPoint)
    (rest : List MetricPoint) :
    (decide (metricObservationGap < (summary name (y :: rest)).firstTS -
        (summary name (x :: front)).lastTS) ||
      isCounterMetric name && decide ((summary name (y :: rest)).firstValue <
        (summary name (x :: front)).value)) = apart name (front.getLastD x) y := by
  unfold apart
  cases counter : isCounterMetric name with
  | false => simp [summary]
  | true => simp [summary, metricBucketUsesLast, counter]

/-- The mean of two segments is the mean of both. -/
theorem mean_append (x : MetricPoint) (front : List MetricPoint) (y : MetricPoint)
    (rest : List MetricPoint) :
    ((x :: front).map MetricPoint.number).sum / (x :: front).length *
        (((x :: front).length : ℚ) / ((x :: front).length + (y :: rest).length)) +
      ((y :: rest).map MetricPoint.number).sum / (y :: rest).length *
        (((y :: rest).length : ℚ) / ((x :: front).length + (y :: rest).length)) =
      ((x :: (front ++ y :: rest)).map MetricPoint.number).sum /
        (x :: (front ++ y :: rest)).length := by
  have some : ((x :: front).length : ℚ) ≠ 0 := by
    rw [List.length_cons]
    positivity
  have others : ((y :: rest).length : ℚ) ≠ 0 := by
    rw [List.length_cons]
    positivity
  have all : ((x :: front).length + (y :: rest).length : ℚ) ≠ 0 := by
    rw [List.length_cons, List.length_cons]
    positivity
  have whole : ((x :: (front ++ y :: rest)).length : ℚ) =
      (x :: front).length + (y :: rest).length := by
    simp only [List.length_cons, List.length_append]
    push_cast
    ring
  have sums : ((x :: (front ++ y :: rest)).map MetricPoint.number).sum =
      ((x :: front).map MetricPoint.number).sum + ((y :: rest).map MetricPoint.number).sum := by
    rw [← List.cons_append, List.map_append, List.sum_append]
  rw [whole, sums]
  field_simp

/-- The value of two segments: the last one, or the mean, which the extrema do not change. -/
theorem value_append {x y : MetricPoint} {front rest : List MetricPoint}
    (ends : (front.getLastD x).ts ≤ (rest.getLastD y).ts) :
    (if metricBucketUsesLast name then
        if (summary name (x :: front)).lastTS ≤ (summary name (y :: rest)).lastTS then
          (summary name (y :: rest)).value
        else (summary name (x :: front)).value
      else
        (((summary name (x :: front)).min.bind fun first =>
          (summary name (y :: rest)).min.map fun second => min first second).elim
          ((summary name (x :: front)).value * (((summary name (x :: front)).samples : ℚ) /
              ((summary name (x :: front)).samples + (summary name (y :: rest)).samples : ℤ)) +
            (summary name (y :: rest)).value * (((summary name (y :: rest)).samples : ℚ) /
              ((summary name (x :: front)).samples + (summary name (y :: rest)).samples : ℤ)))
          fun least => max least (min
            (max (summary name (x :: front)).max (summary name (y :: rest)).max)
            ((summary name (x :: front)).value * (((summary name (x :: front)).samples : ℚ) /
              ((summary name (x :: front)).samples + (summary name (y :: rest)).samples : ℤ)) +
            (summary name (y :: rest)).value * (((summary name (y :: rest)).samples : ℚ) /
              ((summary name (x :: front)).samples + (summary name (y :: rest)).samples : ℤ)))))) =
      (summary name (x :: (front ++ y :: rest))).value := by
  cases last : metricBucketUsesLast name with
  | true => simp only [summary, last, if_true, ends, getLastD_append_cons]
  | false =>
      have mean := mean_append x front y rest
      rcases mean_bounds x (front ++ y :: rest) with ⟨lower, upper⟩
      rw [totalOf_append] at lower upper
      simp only [summary, last, Bool.false_eq_true, if_false, Option.bind_some, Option.map_some,
        Option.elim_some, Int.cast_natCast, Int.cast_add]
      rw [mean, min_eq_right upper, max_eq_right lower]

theorem join_summary {x y : MetricPoint} {front rest : List MetricPoint}
    (between : (front.getLastD x).ts < y.ts) (begins : x.ts < y.ts)
    (ends : (front.getLastD x).ts ≤ (rest.getLastD y).ts) :
    joinMetricAggregates name (summary name (x :: front)) (summary name (y :: rest)) =
      summary name (x :: (front ++ y :: rest)) := by
  have ordered : ¬(!((summary name (x :: front)).min.isSome &&
      (summary name (y :: rest)).min.isSome) || decide ((summary name (y :: rest)).firstTS -
      (summary name (x :: front)).lastTS ≤ 0)) = true := by
    simp only [summary, Option.isSome_some, Bool.and_true, Bool.not_true, Bool.false_or]
    exact fun known => absurd (of_decide_eq_true known) (not_le.mpr (sub_pos.mpr between))
  have value := @value_append name x y front rest ends
  have first : ((summary name (x :: front)).min.isSome && (summary name (y :: rest)).min.isSome &&
      decide ((summary name (y :: rest)).firstTS < (summary name (x :: front)).firstTS)) = false := by
    simp [summary, begins.le]
  have lastTS : max (summary name (x :: front)).lastTS (summary name (y :: rest)).lastTS =
      (summary name (x :: (front ++ y :: rest))).lastTS := by
    simp only [summary, max_eq_right ends, getLastD_append_cons]
  have samples : (summary name (x :: front)).samples + (summary name (y :: rest)).samples =
      (summary name (x :: (front ++ y :: rest))).samples := by
    simp only [summary, List.length_cons, List.length_append]
    omega
  have isMax := (totalOf_append max MetricPoint.number x front y rest).symm
  have isMin := congrArg some (totalOf_append min MetricPoint.number x front y rest).symm
  have gaps := linkSum_append (gapBetween name) x front y rest
  have observed := linkSum_append (observedBetween name) x front y rest
  have moved := linkSum_append (movedBetween name) x front y rest
  have isApart := apart_last name x front y rest
  unfold joinMetricAggregates
  simp only [if_neg ordered, isApart, first, Bool.false_eq_true, if_false]
  cases isA : apart name (front.getLastD x) y with
  | true =>
      simp only [gapBetween, observedBetween, movedBetween, isA, if_true, add_zero]
        at gaps observed moved
      refine MetricAggregate.ext rfl value rfl isMax samples isMin rfl lastTS rfl ?_ ?_ ?_
      · simp only [summary, moved]
        cases isCounterMetric name <;> rfl
      · exact observed.symm
      · simp only [summary, gaps, if_true]
        ring
  | false =>
      simp only [gapBetween, observedBetween, movedBetween, isA, Bool.false_eq_true, if_false,
        add_zero] at gaps observed moved
      refine MetricAggregate.ext rfl value rfl isMax samples isMin rfl lastTS rfl ?_ ?_ ?_
      · simp only [summary, moved]
        cases counter : isCounterMetric name with
        | false => rfl
        | true =>
            simp only [metricBucketUsesLast, counter, if_true, Bool.true_or, Option.bind_some,
              Option.map_some, Bool.false_eq_true, if_false]
            congr 1
            ring
      · simp only [summary, observed, Bool.false_eq_true, if_false]
        ring
      · exact gaps.symm

/-- Samples in the order of their timestamps, one for each. -/
def Increasing (samples : List MetricPoint) : Prop := samples.Pairwise fun a b => a.ts < b.ts

theorem samples_summary (name : String) (samples : List MetricPoint) :
    (summary name samples).samples = samples.length := by
  cases samples with
  | nil => rfl
  | cons first rest => rfl

theorem lastTS_summary (name : String) (samples : List MetricPoint) (last : MetricPoint) :
    (summary name (samples ++ [last])).lastTS = last.ts := by
  cases samples with
  | nil => rfl
  | cons first rest => simp [summary]

/-- Merging the summaries of two segments in order gives the summary of both. -/
theorem mergeMetricAggregates_summary {front rest : List MetricPoint}
    (ordered : Increasing (front ++ rest)) :
    mergeMetricAggregates name (summary name front) (summary name rest) =
      summary name (front ++ rest) := by
  unfold mergeMetricAggregates
  cases front with
  | nil => rfl
  | cons x front =>
      rw [if_neg (by rw [samples_summary, List.length_cons]; omega)]
      cases rest with
      | nil => simp [summary, MetricAggregate.zero]
      | cons y rest =>
          rw [if_neg (by rw [samples_summary, List.length_cons]; omega)]
          rcases List.pairwise_append.mp ordered with ⟨-, restOrdered, before⟩
          have between := before (front.getLastD x) List.getLastD_mem_cons y List.mem_cons_self
          have begins := before x List.mem_cons_self y List.mem_cons_self
          have ends : y.ts ≤ (rest.getLastD y).ts := by
            have last : rest.getLastD y ∈ y :: rest := List.getLastD_mem_cons
            rcases List.mem_cons.mp last with same | mem
            · rw [same]
            · exact ((List.pairwise_cons.mp restOrdered).1 _ mem).le
          have inOrder : decide ((summary name (y :: rest)).lastTS <
              (summary name (x :: front)).firstTS) = false :=
            decide_eq_false (not_lt.mpr (begins.le.trans ends))
          rw [inOrder]
          exact join_summary between begins (between.le.trans ends)

/-- The aggregate of samples in order is their summary. -/
theorem aggregateMetricSamples_eq {samples : List MetricPoint} (ordered : Increasing samples) :
    aggregateMetricSamples name samples = summary name samples := by
  induction samples using List.reverseRecOn with
  | nil => rfl
  | append_singleton samples sample ih =>
      unfold aggregateMetricSamples at ih ⊢
      rw [List.foldl_append, List.foldl_cons, List.foldl_nil,
        ih (List.pairwise_append.mp ordered).1, ← summary_singleton]
      exact mergeMetricAggregates_summary ordered

/-- Merging the summaries of many segments in order gives the summary of all. -/
theorem foldl_merge_summary {segments : List (List MetricPoint)}
    (ordered : Increasing segments.flatten) :
    (segments.map (summary name)).foldl (mergeMetricAggregates name) .zero =
      summary name segments.flatten := by
  induction segments using List.reverseRecOn with
  | nil => rfl
  | append_singleton segments segment ih =>
      rw [List.flatten_append, List.flatten_singleton] at ordered ⊢
      rw [List.map_append, List.foldl_append, ih (List.pairwise_append.mp ordered).1]
      exact mergeMetricAggregates_summary ordered

end TelemtPanel.Store
