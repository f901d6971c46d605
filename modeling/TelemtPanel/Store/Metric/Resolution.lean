import TelemtPanel.Library.Disjoint
import TelemtPanel.Library.Int64
import TelemtPanel.Store.Metric.Basic

/-!
# Selecting among metric resolutions

A history holds points of several tiers for the same time.  Each point is ranked, and is
selected unless the interval of its observations meets that of a point which is selected
before it.  The rank depends on the tier, on the age of the point, and for a bucket of five
minutes on whether its raw samples are all there.
-/

namespace TelemtPanel.Store

open TelemtPanel.Library

/-- One day and seven days, in seconds. -/
def metricMinuteRetentionSecs : ℤ := 86400

def longRangeSecs : ℤ := 604800

def desiredMetricTier (ts now : ℤ) : MetricTier :=
  if ts ≥ wrapInt64 (now - liveMetricRetentionSecs) then .metricTierRaw
  else if ts ≥ wrapInt64 (now - metricMinuteRetentionSecs) then .metricTierMinute
  else .metricTierQuarter

/-- First and last observation of a point. -/
def metricObservationBounds (point : MetricPoint) : ℤ × ℤ :=
  if point.tier = .metricTierRaw then (point.ts, point.ts)
  else
    let start := if point.min.isSome then point.firstTS else point.ts
    if point.lastTS ≥ start ∧ point.lastTS ≠ 0 then (start, point.lastTS)
    else
      let width :=
        match point.tier with
        | .metricTierMinute => 60
        | .metricTierFive => 300
        | .metricTierQuarter => 900
        | _ => 3600
      (start, wrapInt64 (point.ts + width - 1))

structure RankedMetricPoint where
  point : MetricPoint
  start : ℤ
  finish : ℤ
  rank : ℕ
deriving DecidableEq

/-- The timestamps of the raw points, in order. -/
def rawTimestamps (points : List MetricPoint) : List ℤ :=
  ((points.filter fun point => decide (point.tier = .metricTierRaw)).map (·.ts)).mergeSort
    fun left right => decide (left ≤ right)

/-- How strongly a point is selected; points of other tiers are not. -/
def metricRank (points : List MetricPoint) (fromTS now : ℤ) (point : MetricPoint) : Option ℕ :=
  let (start, finish) := metricObservationBounds point
  let longRange := decide (fromTS < wrapInt64 (now - longRangeSecs))
  match point.tier with
  | .metricTierRaw => some (if point.ts ≥ wrapInt64 (now - liveMetricRetentionSecs) then 5 else 0)
  | .metricTierFive =>
      let raw := rawTimestamps points
      let left := raw.findIdx fun ts => decide (ts ≥ start)
      let right := raw.findIdx fun ts => decide (ts > finish)
      some (if (right : ℤ) - left < point.samples then 6 else 4)
  | .metricTierHour =>
      some (if longRange ∨ point.ts < wrapInt64 (now - longRangeSecs) then 7 else 1)
  | .metricTierMinute => some (if desiredMetricTier point.ts now = .metricTierMinute then 3 else 2)
  | .metricTierQuarter => some (if desiredMetricTier point.ts now = .metricTierQuarter then 3 else 2)
  | _ => none

def rankedMetricPoints (points : List MetricPoint) (fromTS now : ℤ) : List RankedMetricPoint :=
  points.filterMap fun point => (metricRank points fromTS now point).map fun rank =>
    { point := point
      start := (metricObservationBounds point).1
      finish := (metricObservationBounds point).2
      rank := rank }

/-- Higher ranks first, then earlier starts. -/
def RankedMetricPoint.order (ranked : RankedMetricPoint) : ℕᵒᵈ ×ₗ ℤ :=
  toLex (OrderDual.toDual ranked.rank, ranked.start)

/-- The selected points in the order of their starts. -/
def selectedMetricPoints (points : List MetricPoint) (fromTS now : ℤ) : List RankedMetricPoint :=
  selectDisjoint RankedMetricPoint.start RankedMetricPoint.finish
    ((Sorter.stable RankedMetricPoint.order).sort (rankedMetricPoints points fromTS now))

def selectMetricResolution (points : List MetricPoint) (fromTS now : ℤ) : List MetricPoint :=
  (Sorter.stable MetricPoint.ts).sort
    (((selectedMetricPoints points fromTS now).map (·.point)).filter
      fun point => decide (point.ts ≥ fromTS))

section Selection

variable {points : List MetricPoint} {fromTS now : ℤ}

/-- The tiers that take part in a selection. -/
def selectableTiers : List MetricTier :=
  [.metricTierRaw, .metricTierMinute, .metricTierFive, .metricTierQuarter, .metricTierHour]

/-- The observations of two points meet. -/
def MetricPoint.Overlaps (left right : MetricPoint) : Prop :=
  Overlap (fun point => (metricObservationBounds point).1)
    (fun point => (metricObservationBounds point).2) left right

theorem isSome_metricRank {point : MetricPoint} (selectable : point.tier ∈ selectableTiers) :
    (metricRank points fromTS now point).isSome = true := by
  simp only [selectableTiers, List.mem_cons, List.not_mem_nil, or_false] at selectable
  rcases selectable with tier | tier | tier | tier | tier <;> simp only [metricRank, tier] <;> rfl

theorem mem_rankedMetricPoints {ranked : RankedMetricPoint} :
    ranked ∈ rankedMetricPoints points fromTS now ↔
      ranked.point ∈ points ∧ ranked.start = (metricObservationBounds ranked.point).1 ∧
        ranked.finish = (metricObservationBounds ranked.point).2 ∧
        metricRank points fromTS now ranked.point = some ranked.rank := by
  simp only [rankedMetricPoints, List.mem_filterMap, Option.map_eq_some_iff]
  constructor
  · rintro ⟨point, mem, rank, isRank, rfl⟩
    exact ⟨mem, rfl, rfl, isRank⟩
  · rintro ⟨mem, start, finish, rank⟩
    refine ⟨ranked.point, mem, ranked.rank, rank, ?_⟩
    rw [← start, ← finish]

/-- Every point of a selectable tier is ranked once. -/
theorem map_point_rankedMetricPoints (selectable : ∀ point ∈ points, point.tier ∈ selectableTiers) :
    (rankedMetricPoints points fromTS now).map (·.point) = points := by
  have general : ∀ some : List MetricPoint, (∀ point ∈ some, point.tier ∈ selectableTiers) →
      (some.filterMap fun point => (metricRank points fromTS now point).map fun rank =>
        ({ point := point
           start := (metricObservationBounds point).1
           finish := (metricObservationBounds point).2
           rank := rank } : RankedMetricPoint)).map (·.point) = some := by
    intro some known
    induction some with
    | nil => rfl
    | cons point some ih =>
        rcases List.forall_mem_cons.mp known with ⟨first, others⟩
        rcases Option.isSome_iff_exists.mp (isSome_metricRank first) with ⟨rank, isRank⟩
        rw [List.filterMap_cons_some (by rw [isRank]; rfl), List.map_cons, ih others]
  exact general points selectable

theorem order_le_iff {left right : RankedMetricPoint} :
    left.order ≤ right.order ↔
      right.rank < left.rank ∨ left.rank = right.rank ∧ left.start ≤ right.start := by
  simp [RankedMetricPoint.order, Prod.Lex.toLex_le_toLex]

variable (ordered : ∀ point ∈ points, (metricObservationBounds point).1 ≤ (metricObservationBounds point).2)

include ordered in
theorem start_le_finish : ∀ ranked ∈ rankedMetricPoints points fromTS now,
    ranked.start ≤ ranked.finish := by
  intro ranked mem
  rcases mem_rankedMetricPoints.mp mem with ⟨isPoint, start, finish, -⟩
  rw [start, finish]
  exact ordered ranked.point isPoint

include ordered in
/-- The selection on ranked points. -/
theorem selection_selectedMetricPoints :
    Selection RankedMetricPoint.start RankedMetricPoint.finish
      (fun taken omitted => omitted.rank ≤ taken.rank) (rankedMetricPoints points fromTS now)
      (selectedMetricPoints points fromTS now) := by
  have sorted := (Sorter.stable RankedMetricPoint.order).sorted (rankedMetricPoints points fromTS now)
  have perm := (Sorter.stable RankedMetricPoint.order).perm (rankedMetricPoints points fromTS now)
  have ranks := sorted.imp fun {left right : RankedMetricPoint} le =>
    show right.rank ≤ left.rank by
      rcases order_le_iff.mp le with less | same
      · exact less.le
      · exact same.1.ge
  have selection := selection_selectDisjoint ranks fun ranked mem =>
    start_le_finish ordered ranked (perm.mem_iff.mp mem)
  refine ⟨selection.inOrder, ?_⟩
  rcases selection.omitted with ⟨omitted, all, reasons⟩
  exact ⟨omitted, all.trans perm, reasons⟩

include ordered in
theorem mem_selectedMetricPoints {ranked : RankedMetricPoint}
    (mem : ranked ∈ selectedMetricPoints points fromTS now) :
    ranked ∈ rankedMetricPoints points fromTS now := by
  rcases (selection_selectedMetricPoints ordered).omitted with ⟨omitted, perm, -⟩
  exact perm.subset (List.mem_append_left _ mem)

include ordered in
/-- The returned points are the selected ones, sorted by timestamp. -/
theorem selectMetricResolution_perm (inRange : ∀ point ∈ points, fromTS ≤ point.ts) :
    (selectMetricResolution points fromTS now).Perm
      ((selectedMetricPoints points fromTS now).map (·.point)) := by
  refine ((Sorter.stable MetricPoint.ts).perm _).trans ?_
  rw [List.filter_eq_self.mpr]
  intro point mem
  rcases List.mem_map.mp mem with ⟨ranked, isSelected, rfl⟩
  have isPoint := (mem_rankedMetricPoints.mp (mem_selectedMetricPoints ordered isSelected)).1
  simpa using inRange ranked.point isPoint

include ordered in
/-- Points below a rank do not matter for the selection of those above. -/
theorem filter_selectedMetricPoints (bound : ℕ) :
    (selectedMetricPoints points fromTS now).filter (fun ranked => decide (bound ≤ ranked.rank)) =
      selectDisjoint RankedMetricPoint.start RankedMetricPoint.finish
        ((Sorter.stable RankedMetricPoint.order).sort
          ((rankedMetricPoints points fromTS now).filter
            fun ranked => decide (bound ≤ ranked.rank))) := by
  rw [← Sorter.filter_stable_sort, selectedMetricPoints]
  have sorted := (Sorter.stable RankedMetricPoint.order).sorted (rankedMetricPoints points fromTS now)
  have perm := (Sorter.stable RankedMetricPoint.order).perm (rankedMetricPoints points fromTS now)
  have proper : ∀ ranked ∈ (Sorter.stable RankedMetricPoint.order).sort
      (rankedMetricPoints points fromTS now), ranked.start ≤ ranked.finish :=
    fun ranked mem => start_le_finish ordered ranked (perm.mem_iff.mp mem)
  generalize (Sorter.stable RankedMetricPoint.order).sort
    (rankedMetricPoints points fromTS now) = offered at sorted proper
  -- The high ranks come first.
  have split : offered = offered.filter (fun ranked => decide (bound ≤ ranked.rank)) ++
      offered.filter fun ranked => !decide (bound ≤ ranked.rank) := by
    clear proper perm
    induction offered with
    | nil => rfl
    | cons first rest ih =>
        rcases List.pairwise_cons.mp sorted with ⟨least, restSorted⟩
        by_cases high : bound ≤ first.rank
        · simpa [high] using ih restSorted
        · have low : ∀ ranked ∈ rest, ¬bound ≤ ranked.rank := by
            intro ranked mem
            rcases order_le_iff.mp (least ranked mem) with less | same
            · omega
            · omega
          have none : rest.filter (fun ranked => decide (bound ≤ ranked.rank)) = [] :=
            List.filter_eq_nil_iff.mpr (by simpa using low)
          have all : rest.filter (fun ranked => !decide (bound ≤ ranked.rank)) = rest :=
            List.filter_eq_self.mpr (by simpa using low)
          simp [high, none, all]
  conv_lhs => rw [split]
  rw [filter_selectDisjoint_append]
  · rw [← split]
    exact proper
  · intro ranked mem
    exact (List.mem_filter.mp mem).2
  · intro ranked mem
    simpa using (List.mem_filter.mp mem).2

include ordered in
/-- The returned points of at least a rank, without their order. -/
theorem filter_selectMetricResolution_perm (inRange : ∀ point ∈ points, fromTS ≤ point.ts)
    (bound : ℕ) :
    ((selectMetricResolution points fromTS now).filter fun point =>
      decide (∃ rank ∈ metricRank points fromTS now point, bound ≤ rank)).Perm
      (((selectedMetricPoints points fromTS now).filter
        fun ranked => decide (bound ≤ ranked.rank)).map (·.point)) := by
  refine ((selectMetricResolution_perm ordered inRange).filter _).trans ?_
  rw [List.filter_map]
  apply List.Perm.of_eq
  congr 1
  apply List.filter_congr
  intro ranked mem
  have rank := (mem_rankedMetricPoints.mp (mem_selectedMetricPoints ordered mem)).2.2.2
  simp [rank]

end Selection

/-- The result is a part of the points, sorted by timestamp, whose observations are disjoint,
and each omitted point overlaps a returned one of at least its rank.  The returned points of
at least a rank only depend on the points of at least this rank. -/
theorem metric_resolution_selected (points : List MetricPoint) (fromTS now : ℤ)
    (selectable : ∀ point ∈ points, point.tier ∈ selectableTiers)
    (ordered : ∀ point ∈ points,
      (metricObservationBounds point).1 ≤ (metricObservationBounds point).2)
    (inRange : ∀ point ∈ points, fromTS ≤ point.ts) :
    (selectMetricResolution points fromTS now).Pairwise (fun left right => left.ts ≤ right.ts) ∧
    (selectMetricResolution points fromTS now).Pairwise (fun left right => ¬left.Overlaps right) ∧
    (∃ omitted, (selectMetricResolution points fromTS now ++ omitted).Perm points ∧
      ∀ point ∈ omitted, ∃ returned ∈ selectMetricResolution points fromTS now,
        returned.Overlaps point ∧ ∃ low high, metricRank points fromTS now point = some low ∧
          metricRank points fromTS now returned = some high ∧ low ≤ high) ∧
    ∀ (bound : ℕ) (other : List MetricPoint),
      (∀ point ∈ other, (metricObservationBounds point).1 ≤ (metricObservationBounds point).2) →
      (∀ point ∈ other, fromTS ≤ point.ts) →
      (rankedMetricPoints other fromTS now).filter (fun ranked => decide (bound ≤ ranked.rank)) =
        (rankedMetricPoints points fromTS now).filter (fun ranked => decide (bound ≤ ranked.rank)) →
      ((selectMetricResolution other fromTS now).filter fun point =>
        decide (∃ rank ∈ metricRank other fromTS now point, bound ≤ rank)).Perm
      ((selectMetricResolution points fromTS now).filter fun point =>
        decide (∃ rank ∈ metricRank points fromTS now point, bound ≤ rank)) := by
  have perm := @selectMetricResolution_perm points fromTS now ordered inRange
  have selection := @selection_selectedMetricPoints points fromTS now ordered
  refine ⟨(Sorter.stable MetricPoint.ts).sorted _, ?_, ?_, ?_⟩
  · have apart : ((selectedMetricPoints points fromTS now).map (·.point)).Pairwise
        fun left right => ¬left.Overlaps right := by
      rw [List.pairwise_map]
      refine selection.inOrder.imp_of_mem ?_
      intro left right leftMem rightMem less overlap
      have first := mem_rankedMetricPoints.mp (mem_selectedMetricPoints ordered leftMem)
      have second := mem_rankedMetricPoints.mp (mem_selectedMetricPoints ordered rightMem)
      rw [first.2.2.1, second.2.1] at less
      exact less.not_ge overlap.2
    refine (perm.pairwise_iff ?_).mpr apart
    intro left right disjoint overlap
    exact disjoint overlap.symm
  · rcases selection.omitted with ⟨omitted, all, reasons⟩
    refine ⟨omitted.map (·.point), ?_, ?_⟩
    · have mapped := all.map RankedMetricPoint.point
      rw [List.map_append, map_point_rankedMetricPoints selectable] at mapped
      exact (perm.append_right _).trans mapped
    · intro point mem
      rcases List.mem_map.mp mem with ⟨ranked, isOmitted, rfl⟩
      rcases reasons ranked isOmitted with ⟨taken, isTaken, overlap, weaker⟩
      have low := mem_rankedMetricPoints.mp (all.subset (List.mem_append_right _ isOmitted))
      have high := mem_rankedMetricPoints.mp (mem_selectedMetricPoints ordered isTaken)
      refine ⟨taken.point, perm.mem_iff.mpr (List.mem_map_of_mem isTaken), ?_,
        ranked.rank, taken.rank, low.2.2.2, high.2.2.2, weaker⟩
      rw [Overlap, high.2.1, high.2.2.1, low.2.1, low.2.2.1] at overlap
      exact overlap
  · intro bound other otherOrdered otherRange same
    refine (filter_selectMetricResolution_perm otherOrdered otherRange bound).trans ?_
    refine List.Perm.trans ?_ (filter_selectMetricResolution_perm ordered inRange bound).symm
    rw [filter_selectedMetricPoints otherOrdered, filter_selectedMetricPoints ordered, same]

/-- A bucket of five minutes with two samples. -/
def sampleFive : MetricPoint :=
  { MetricPoint.sample 900 (.finite 1) with
    tier := .metricTierFive, samples := 2, min := some (.finite 1), firstTS := 900, lastTS := 1000 }

def sampleFirst : MetricPoint := .sample 900 (.finite 1)

def sampleSecond : MetricPoint := .sample 1000 (.finite 1)

theorem sampleFive_selected :
    (selectMetricResolution [sampleFirst, sampleFive] 0 1200).Pairwise
      fun left right => ¬left.Overlaps right :=
  (metric_resolution_selected [sampleFirst, sampleFive] 0 1200
    (by decide) (by decide) (by decide)).2.1

theorem rawTimestamps_sample : rawTimestamps [sampleFirst, sampleFive] = [900] ∧
    rawTimestamps [sampleFirst, sampleFive, sampleSecond] = [900, 1000] :=
  ⟨List.mergeSort_singleton _, List.mergeSort_of_pairwise (by decide)⟩

theorem rankedMetricPoints_sample :
    rankedMetricPoints [sampleFirst, sampleFive] 0 1200 =
      [⟨sampleFirst, 900, 900, 5⟩, ⟨sampleFive, 900, 1000, 6⟩] ∧
    rankedMetricPoints [sampleFirst, sampleFive, sampleSecond] 0 1200 =
      [⟨sampleFirst, 900, 900, 5⟩, ⟨sampleFive, 900, 1000, 4⟩, ⟨sampleSecond, 1000, 1000, 5⟩] := by
  rcases rawTimestamps_sample with ⟨few, all⟩
  constructor
  · simp only [rankedMetricPoints, metricRank, few]
    decide
  · simp only [rankedMetricPoints, metricRank, all]
    decide

theorem selectedMetricPoints_sample :
    selectedMetricPoints [sampleFirst, sampleFive] 0 1200 = [⟨sampleFive, 900, 1000, 6⟩] ∧
    selectedMetricPoints [sampleFirst, sampleFive, sampleSecond] 0 1200 =
      [⟨sampleFirst, 900, 900, 5⟩, ⟨sampleSecond, 1000, 1000, 5⟩] := by
  have sorts : ∀ items sorted : List RankedMetricPoint, sorted.Perm items →
      (items.map RankedMetricPoint.order).Nodup →
      (sorted.Pairwise fun left right => left.order < right.order) →
      (Sorter.stable RankedMetricPoint.order).sort items = sorted := by
    intro items sorted perm distinct ordered
    exact Sorter.sort_eq_of_pairwise_lt _ distinct ordered fun item => perm.mem_iff
  rcases rankedMetricPoints_sample with ⟨few, all⟩
  constructor
  · rw [selectedMetricPoints, few,
      sorts _ [⟨sampleFive, 900, 1000, 6⟩, ⟨sampleFirst, 900, 900, 5⟩]
        (by decide) (by decide) (by decide)]
    decide
  · rw [selectedMetricPoints, all,
      sorts _ [⟨sampleFirst, 900, 900, 5⟩, ⟨sampleSecond, 1000, 1000, 5⟩, ⟨sampleFive, 900, 1000, 4⟩]
        (by decide) (by decide) (by decide)]
    decide

/-- Another raw sample completes the bucket, which then gives way to the samples of rank 5. -/
theorem sampleFive_replaced :
    sampleFive ∈ selectMetricResolution [sampleFirst, sampleFive] 0 1200 ∧
    metricRank [sampleFirst, sampleFive] 0 1200 sampleFive = some 6 ∧
    metricRank [sampleFirst, sampleFive, sampleSecond] 0 1200 sampleSecond = some 5 ∧
    sampleFive ∉ selectMetricResolution [sampleFirst, sampleFive, sampleSecond] 0 1200 := by
  rcases selectedMetricPoints_sample with ⟨few, all⟩
  refine ⟨?_, ?_, by decide, ?_⟩
  · rw [(selectMetricResolution_perm (by decide) (by decide)).mem_iff, few]
    decide
  · simp only [metricRank, rawTimestamps_sample.1]
    decide
  · rw [(selectMetricResolution_perm (by decide) (by decide)).mem_iff, all]
    decide

end TelemtPanel.Store
