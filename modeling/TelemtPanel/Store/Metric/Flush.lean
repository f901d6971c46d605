import TelemtPanel.Library.Table
import TelemtPanel.Store.Metric.Aggregate
import TelemtPanel.Store.Policy

/-!
# Flushing metric samples

Recorded samples wait in a bounded batch for each series.  A flush adds them to rows
of five minutes and, what these accepted, to rows of an hour, all in one transaction.
A row accepts the samples behind its last one, so that a batch whose transaction was
stored although it reported an error can be tried again.

The samples that a row has accepted are in the order of their timestamps, and the
row is their summary.
-/

namespace TelemtPanel.Store

open TelemtPanel.Library

/-- Start of the bucket of a width in seconds. -/
def metricBucket (ts width : ℤ) : ℤ := ts - ts.tmod width

def groupMetricSamples (points : List MetricPoint) (width : ℤ) : Table ℤ (List MetricPoint) :=
  points.foldl (fun out point => out.alter (metricBucket point.ts width) fun group =>
    some (group.getD [] ++ [point])) ∅

/-- Key of a row of `metric_points`. -/
structure MetricKey where
  name : String
  tier : MetricTier
  ts : ℤ
deriving DecidableEq, Repr

abbrev MetricRows : Type := MetricKey → Option MetricAggregate

def readMetricAggregate (rows : MetricRows) (key : MetricKey) : MetricAggregate :=
  (rows key).getD .zero

/-- `point.TS, point.Tier = ts, tier`. -/
def MetricAggregate.labelled (point : MetricAggregate) (ts : ℤ) (tier : MetricTier) :
    MetricAggregate :=
  { point with ts := ts, tier := tier }

/-- The row is written with the tier and the timestamp of its key. -/
def writeMetricAggregate (rows : MetricRows) (key : MetricKey) (point : MetricAggregate) :
    MetricRows :=
  Function.update rows key (some (point.labelled key.ts key.tier))

/-- A row has no samples yet, or its last one is earlier. -/
def MetricAggregate.accepts (previous : MetricAggregate) (sample : MetricPoint) : Bool :=
  previous.samples = 0 || previous.lastTS < sample.ts

/-- Rows of a transaction, and the samples that were accepted so far. -/
structure Absorbed where
  rows : MetricRows
  accepted : List MetricPoint

/-- One bucket of the loops of `flushMetrics`. -/
def absorbBucket (name : String) (tier : MetricTier) (state : Absorbed)
    (bucket : ℤ × List MetricPoint) : Absorbed :=
  let key : MetricKey := ⟨name, tier, bucket.1⟩
  let previous := readMetricAggregate state.rows key
  let accepted := bucket.2.filter previous.accepts
  if accepted = [] then state
  else
    let point := mergeMetricAggregates name previous (aggregateMetricSamples name accepted)
    ⟨writeMetricAggregate state.rows key point, state.accepted ++ accepted⟩

/-- One of the loops of `flushMetrics`: the buckets in order, each with the samples it accepts. -/
def absorb (name : String) (tier : MetricTier) (width : ℤ) (rows : MetricRows)
    (points : List MetricPoint) : Absorbed :=
  (groupMetricSamples points width).toList.foldl (absorbBucket name tier) ⟨rows, []⟩

/-- What a transaction has added to the rows of a series. -/
structure SeriesFlush where
  name : String
  five : List MetricPoint
  hours : List MetricPoint

/-- Rows inside a transaction, and what was added so far. -/
structure MetricTx where
  rows : MetricRows
  log : List SeriesFlush

/-- The part of a transaction for one series: the buckets of five minutes, and then the hours with
the samples that these accepted. -/
def flushSeries (tx : MetricTx) (name : String) (points : List MetricPoint) : MetricTx :=
  let five := absorb name .metricTierFive 300 tx.rows points
  let hours := absorb name .metricTierHour 3600 five.rows five.accepted
  ⟨hours.rows, tx.log ++ [⟨name, five.accepted, hours.accepted⟩]⟩

theorem metricBucket_mono {width : ℤ} (positive : 0 < width) {a b : ℤ} (le : a ≤ b) :
    metricBucket a width ≤ metricBucket b width := by
  unfold metricBucket
  rw [← Int.mul_tdiv_self, ← Int.mul_tdiv_self]
  exact Int.mul_le_mul_of_nonneg_left (Int.tdiv_le_tdiv positive le) positive.le

theorem ts_lt_of_metricBucket_lt {width : ℤ} (positive : 0 < width) {a b : ℤ}
    (less : metricBucket a width < metricBucket b width) : a < b := by
  by_contra ge
  exact absurd (metricBucket_mono positive (not_lt.mp ge)) (not_le.mpr less)

theorem metricBucket_neg (ts width : ℤ) : metricBucket (-ts) width = -metricBucket ts width := by
  unfold metricBucket
  rw [Int.neg_tmod]
  ring

theorem metricBucket_of_nonneg {ts : ℤ} (nonneg : 0 ≤ ts) (width : ℤ) :
    metricBucket ts width = ts - ts % width := by
  unfold metricBucket
  rw [Int.tmod_eq_emod_of_nonneg nonneg]

/-- The hour of a sample is the hour of its five minutes. -/
theorem metricBucket_nested (ts : ℤ) :
    metricBucket (metricBucket ts 300) 3600 = metricBucket ts 3600 := by
  have nested : ∀ ts : ℤ, 0 ≤ ts →
      metricBucket (metricBucket ts 300) 3600 = metricBucket ts 3600 := by
    intro ts nonneg
    rw [metricBucket_of_nonneg nonneg, metricBucket_of_nonneg nonneg,
      metricBucket_of_nonneg (by omega)]
    omega
  rcases le_total 0 ts with nonneg | negative
  · exact nested ts nonneg
  · have mirrored := nested (-ts) (by omega)
    rw [metricBucket_neg, metricBucket_neg, metricBucket_neg] at mirrored
    exact neg_injective mirrored

/-- The samples of a bucket. -/
def inBucket (width bucket : ℤ) (samples : List MetricPoint) : List MetricPoint :=
  samples.filter fun sample => decide (metricBucket sample.ts width = bucket)

section Groups

variable {points : List MetricPoint} {width : ℤ}

theorem lookup_groupMetricSamples (points : List MetricPoint) (width bucket : ℤ) :
    (groupMetricSamples points width)[bucket]? =
      if inBucket width bucket points = [] then none else some (inBucket width bucket points) := by
  induction points using List.reverseRecOn with
  | nil => rfl
  | append_singleton points point ih =>
      unfold groupMetricSamples inBucket at ih ⊢
      rw [List.foldl_append, List.foldl_cons, List.foldl_nil, Table.lookup_alter,
        List.filter_append]
      by_cases same : metricBucket point.ts width = bucket
      · rw [if_pos same, same, ih]
        simp only [List.filter_cons, same, decide_true, if_true, List.filter_nil]
        split
        · rename_i none
          simp [none]
        · simp
      · rw [if_neg same, ih]
        simp [same]

theorem mem_toList_groupMetricSamples {bucket : ℤ × List MetricPoint} :
    bucket ∈ (groupMetricSamples points width).toList ↔
      bucket.2 ≠ [] ∧ bucket.2 = inBucket width bucket.1 points := by
  rw [Table.mem_toList, lookup_groupMetricSamples]
  split
  · rename_i none
    simp only [reduceCtorEq, false_iff, not_and]
    intro nonempty same
    exact nonempty (same.trans none)
  · rename_i some
    rw [Option.some.injEq]
    constructor
    · rintro same
      exact ⟨same ▸ some, same.symm⟩
    · exact fun known => known.2.symm

/-- What the buckets select one after the other is what is selected of all samples. -/
theorem flatMap_groupMetricSamples (positive : 0 < width) (ordered : Increasing points)
    (keep : ℤ → MetricPoint → Bool) :
    ((groupMetricSamples points width).toList.flatMap fun bucket =>
        bucket.2.filter (keep bucket.1)) =
      points.filter fun point => keep (metricBucket point.ts width) point := by
  apply @Sorter.eq_of_pairwise_lt _ _ _ MetricPoint.ts
  · apply List.pairwise_flatMap.mpr
    refine ⟨?_, ?_⟩
    · intro bucket mem
      rw [(mem_toList_groupMetricSamples.mp mem).2, inBucket, List.filter_filter]
      exact ordered.filter _
    · refine (Std.ExtTreeMap.ordered_keys_toList
        (t := groupMetricSamples points width)).imp_of_mem ?_
      intro first second firstMem secondMem less point isFirst other isSecond
      have inFirst : metricBucket point.ts width = first.1 := by
        have mem := (List.mem_filter.mp isFirst).1
        rw [(mem_toList_groupMetricSamples.mp firstMem).2] at mem
        exact of_decide_eq_true (List.mem_filter.mp mem).2
      have inSecond : metricBucket other.ts width = second.1 := by
        have mem := (List.mem_filter.mp isSecond).1
        rw [(mem_toList_groupMetricSamples.mp secondMem).2] at mem
        exact of_decide_eq_true (List.mem_filter.mp mem).2
      refine ts_lt_of_metricBucket_lt positive ?_
      rw [inFirst, inSecond]
      exact Std.compare_eq_lt.mp less
  · exact ordered.filter _
  · intro point
    rw [List.mem_flatMap, List.mem_filter]
    constructor
    · rintro ⟨bucket, isBucket, mem⟩
      rcases List.mem_filter.mp mem with ⟨mem, kept⟩
      rw [(mem_toList_groupMetricSamples.mp isBucket).2] at mem
      rcases List.mem_filter.mp mem with ⟨mem, same⟩
      rw [of_decide_eq_true same]
      exact ⟨mem, kept⟩
    · rintro ⟨mem, kept⟩
      have inOwn : point ∈ inBucket width (metricBucket point.ts width) points :=
        List.mem_filter.mpr ⟨mem, decide_eq_true rfl⟩
      refine ⟨(metricBucket point.ts width, _),
        mem_toList_groupMetricSamples.mpr ⟨List.ne_nil_of_mem inOwn, rfl⟩, ?_⟩
      exact List.mem_filter.mpr ⟨inOwn, kept⟩

end Groups

section Labels

variable {name : String}

theorem joinMetricAggregates_labelled (a b : MetricAggregate) (ts other shown : ℤ)
    (tier otherTier shownTier : MetricTier) :
    (joinMetricAggregates name (a.labelled ts tier) (b.labelled other otherTier)).labelled shown
      shownTier = (joinMetricAggregates name a b).labelled shown shownTier := by
  unfold joinMetricAggregates MetricAggregate.labelled
  dsimp only
  split
  · rfl
  · split <;> rfl

/-- What is merged does not depend on the labels. -/
theorem mergeMetricAggregates_labelled (a b : MetricAggregate) (ts other shown : ℤ)
    (tier otherTier shownTier : MetricTier) :
    (mergeMetricAggregates name (a.labelled ts tier) (b.labelled other otherTier)).labelled shown
      shownTier = (mergeMetricAggregates name a b).labelled shown shownTier := by
  unfold mergeMetricAggregates
  have samples (point : MetricAggregate) (ts : ℤ) (tier : MetricTier) :
      (point.labelled ts tier).samples = point.samples := rfl
  rw [samples, samples]
  split
  · rfl
  · split
    · rfl
    · have swapped : (decide ((b.labelled other otherTier).lastTS < (a.labelled ts tier).firstTS) &&
          (a.labelled ts tier).min.isSome && (b.labelled other otherTier).min.isSome) =
          (decide (b.lastTS < a.firstTS) && a.min.isSome && b.min.isSome) := rfl
      rw [swapped]
      split
      · exact joinMetricAggregates_labelled _ _ _ _ _ _ _ _
      · exact joinMetricAggregates_labelled _ _ _ _ _ _ _ _

end Labels

/-- The row of a key after it has accepted some samples. -/
def rowOf (key : MetricKey) (samples : List MetricPoint) : Option MetricAggregate :=
  if samples = [] then none else some ((summary key.name samples).labelled key.ts key.tier)

/-- A sample that is later than those which the row has accepted. -/
def laterThan (counted : List MetricPoint) (sample : MetricPoint) : Bool :=
  counted.all fun other => decide (other.ts < sample.ts)

theorem accepts_rowOf {key : MetricKey} {counted : List MetricPoint} (ordered : Increasing counted) :
    MetricAggregate.accepts ((rowOf key counted).getD .zero) = laterThan counted := by
  funext sample
  unfold rowOf MetricAggregate.accepts laterThan
  split
  · rename_i none
    rw [none]
    rfl
  · rename_i some
    rcases List.eq_nil_or_concat' counted with none | ⟨front, last, rfl⟩
    · exact absurd none some
    · have count : ((summary key.name (front ++ [last])).labelled key.ts key.tier).samples ≠ 0 := by
        have length := samples_summary key.name (front ++ [last])
        rw [List.length_append] at length
        refine ne_of_eq_of_ne length ?_
        simp only [List.length_singleton]
        omega
      have lastTS : ((summary key.name (front ++ [last])).labelled key.ts key.tier).lastTS =
          last.ts := lastTS_summary _ _ _
      rw [Option.getD_some, lastTS, decide_eq_false count, Bool.false_or, List.all_append,
        Bool.eq_iff_iff]
      simp only [decide_eq_true_eq, Bool.and_eq_true, List.all_eq_true, List.mem_singleton,
        forall_eq]
      constructor
      · intro less
        refine ⟨?_, less⟩
        intro other mem
        exact ((List.pairwise_append.mp ordered).2.2 other mem last (by simp)).trans less
      · exact And.right

/-- Accepting later samples makes the row the summary of all. -/
theorem merge_rowOf {key : MetricKey} {counted accepted : List MetricPoint}
    (ordered : Increasing (counted ++ accepted)) (nonempty : accepted ≠ []) :
    some ((mergeMetricAggregates key.name ((rowOf key counted).getD .zero)
        (aggregateMetricSamples key.name accepted)).labelled key.ts key.tier) =
      rowOf key (counted ++ accepted) := by
  have all : counted ++ accepted ≠ [] := by simp [nonempty]
  rw [aggregateMetricSamples_eq (List.pairwise_append.mp ordered).2.1]
  unfold rowOf
  rw [if_neg all, ← mergeMetricAggregates_summary ordered]
  split
  · rename_i none
    rw [none]
    rfl
  · exact congrArg some (mergeMetricAggregates_labelled _ _ _ 
      (summary key.name accepted).ts _ _ (summary key.name accepted).tier _)

section Absorb

variable {name : String} {tier : MetricTier} {width : ℤ} {rows : MetricRows} {state : Absorbed}
  {buckets : List (ℤ × List MetricPoint)} {points counted : List MetricPoint}

/-- The row of a key after a group of samples was offered to it. -/
def absorbedRow (rows : MetricRows) (key : MetricKey) (group : List MetricPoint) :
    Option MetricAggregate :=
  if group.filter (readMetricAggregate rows key).accepts = [] then rows key
  else some ((mergeMetricAggregates key.name (readMetricAggregate rows key)
    (aggregateMetricSamples key.name
      (group.filter (readMetricAggregate rows key).accepts))).labelled key.ts key.tier)

theorem absorbBucket_rows (state : Absorbed) (bucket : ℤ × List MetricPoint) :
    (absorbBucket name tier state bucket).rows = Function.update state.rows ⟨name, tier, bucket.1⟩
      (absorbedRow state.rows ⟨name, tier, bucket.1⟩ bucket.2) := by
  unfold absorbBucket absorbedRow
  dsimp only
  split
  · exact (Function.update_eq_self _ _).symm
  · rfl

theorem absorbBucket_accepted (state : Absorbed) (bucket : ℤ × List MetricPoint) :
    (absorbBucket name tier state bucket).accepted = state.accepted ++
      bucket.2.filter (readMetricAggregate state.rows ⟨name, tier, bucket.1⟩).accepts := by
  unfold absorbBucket
  dsimp only
  split
  · rename_i none
    rw [none, List.append_nil]
  · rfl

/-- A bucket changes no row but its own. -/
theorem absorbBucket_other {key : MetricKey} {bucket : ℤ × List MetricPoint}
    (other : key ≠ ⟨name, tier, bucket.1⟩) :
    (absorbBucket name tier state bucket).rows key = state.rows key := by
  rw [absorbBucket_rows, Function.update_of_ne other]

theorem foldl_absorbBucket_other {key : MetricKey}
    (other : ∀ bucket ∈ buckets, key ≠ ⟨name, tier, bucket.1⟩) :
    (buckets.foldl (absorbBucket name tier) state).rows key = state.rows key := by
  induction buckets generalizing state with
  | nil => rfl
  | cons bucket buckets ih =>
      rcases List.forall_mem_cons.mp other with ⟨first, others⟩
      rw [List.foldl_cons, ih others, absorbBucket_other first]

/-- Buckets one after the other: each sees its own row as it was. -/
theorem foldl_absorbBucket (distinct : (buckets.map (·.1)).Nodup) :
    (buckets.foldl (absorbBucket name tier) state).accepted = state.accepted ++
        buckets.flatMap (fun bucket =>
          bucket.2.filter (readMetricAggregate state.rows ⟨name, tier, bucket.1⟩).accepts) ∧
      ∀ bucket ∈ buckets, (buckets.foldl (absorbBucket name tier) state).rows
        ⟨name, tier, bucket.1⟩ = absorbedRow state.rows ⟨name, tier, bucket.1⟩ bucket.2 := by
  induction buckets generalizing state with
  | nil => exact ⟨(List.append_nil _).symm, fun bucket mem => nomatch mem⟩
  | cons first buckets ih =>
      rw [List.map_cons, List.nodup_cons] at distinct
      have apart : ∀ bucket ∈ buckets,
          (⟨name, tier, bucket.1⟩ : MetricKey) ≠ ⟨name, tier, first.1⟩ := by
        intro bucket mem same
        exact distinct.1 (List.mem_map.mpr ⟨bucket, mem, congrArg MetricKey.ts same⟩)
      have unchanged : ∀ bucket ∈ buckets,
          (absorbBucket name tier state first).rows ⟨name, tier, bucket.1⟩ =
            state.rows ⟨name, tier, bucket.1⟩ :=
        fun bucket mem => absorbBucket_other (apart bucket mem)
      rcases @ih (absorbBucket name tier state first) distinct.2 with ⟨accepted, changed⟩
      refine ⟨?_, ?_⟩
      · rw [List.foldl_cons, accepted, absorbBucket_accepted, List.append_assoc, List.flatMap_cons]
        congr 2
        refine List.flatMap_congr fun bucket mem => ?_
        unfold readMetricAggregate
        rw [unchanged bucket mem]
      · intro bucket mem
        rw [List.foldl_cons]
        rcases List.mem_cons.mp mem with rfl | mem
        · rw [foldl_absorbBucket_other fun other isOther => (apart other isOther).symm,
            absorbBucket_rows, Function.update_self]
        · rw [changed bucket mem]
          unfold absorbedRow readMetricAggregate
          rw [unchanged bucket mem]

/-- The rows of a tier hold the samples that were counted, each bucket in order. -/
structure CountedRows (name : String) (tier : MetricTier) (width : ℤ) (rows : MetricRows)
    (counted : List MetricPoint) : Prop where
  rows : ∀ bucket, rows ⟨name, tier, bucket⟩ =
    rowOf ⟨name, tier, bucket⟩ (inBucket width bucket counted)
  ordered : ∀ bucket, Increasing (inBucket width bucket counted)

/-- The samples that are later than those counted in their bucket. -/
def newSamples (width : ℤ) (counted points : List MetricPoint) : List MetricPoint :=
  points.filter fun point =>
    laterThan (inBucket width (metricBucket point.ts width) counted) point

theorem inBucket_newSamples (width bucket : ℤ) (counted points : List MetricPoint) :
    inBucket width bucket (newSamples width counted points) =
      (inBucket width bucket points).filter (laterThan (inBucket width bucket counted)) := by
  have both : (inBucket width bucket points).filter (laterThan (inBucket width bucket counted)) =
      points.filter fun point => laterThan (inBucket width bucket counted) point &&
        decide (metricBucket point.ts width = bucket) := List.filter_filter
  rw [both]
  unfold newSamples
  rw [inBucket, List.filter_filter]
  refine List.filter_congr fun point _ => ?_
  by_cases same : metricBucket point.ts width = bucket
  · rw [same, Bool.and_comm]
  · simp [same]

theorem CountedRows.readMetricAggregate_accepts (known : CountedRows name tier width rows counted)
    (bucket : ℤ) : (readMetricAggregate rows ⟨name, tier, bucket⟩).accepts =
      laterThan (inBucket width bucket counted) := by
  unfold readMetricAggregate
  rw [known.rows, accepts_rowOf (known.ordered bucket)]

theorem absorb_accepted (known : CountedRows name tier width rows counted) (positive : 0 < width)
    (ordered : Increasing points) :
    (absorb name tier width rows points).accepted = newSamples width counted points := by
  have distinct := Table.nodup_keys (groupMetricSamples points width)
  unfold absorb
  rw [(foldl_absorbBucket distinct).1, List.nil_append]
  refine (flatMap_groupMetricSamples positive ordered fun bucket =>
    (readMetricAggregate rows ⟨name, tier, bucket⟩).accepts).trans ?_
  refine List.filter_congr fun point _ => ?_
  rw [known.readMetricAggregate_accepts]

theorem absorb_other {key : MetricKey} (other : key.name ≠ name ∨ key.tier ≠ tier) :
    (absorb name tier width rows points).rows key = rows key := by
  refine foldl_absorbBucket_other ?_
  rintro bucket - rfl
  rcases other with other | other
  · exact other rfl
  · exact other rfl

/-- After a loop the rows hold what was counted and what was accepted. -/
theorem CountedRows.absorb (known : CountedRows name tier width rows counted)
    (ordered : Increasing points) :
    CountedRows name tier width (absorb name tier width rows points).rows
      (counted ++ newSamples width counted points) := by
  have split (bucket : ℤ) : inBucket width bucket (counted ++ newSamples width counted points) =
      inBucket width bucket counted ++
        (inBucket width bucket points).filter (laterThan (inBucket width bucket counted)) := by
    rw [← inBucket_newSamples]
    exact List.filter_append _ _
  have inOrder (bucket : ℤ) : Increasing (inBucket width bucket counted ++
      (inBucket width bucket points).filter (laterThan (inBucket width bucket counted))) := by
    refine List.pairwise_append.mpr ⟨known.ordered bucket, (ordered.filter _).filter _, ?_⟩
    intro other isOther point isPoint
    have later := (List.mem_filter.mp isPoint).2
    exact of_decide_eq_true (List.all_eq_true.mp later other isOther)
  refine ⟨?_, fun bucket => split bucket ▸ inOrder bucket⟩
  intro bucket
  rw [split]
  have distinct := Table.nodup_keys (groupMetricSamples points width)
  by_cases none : inBucket width bucket points = []
  · rw [none, List.filter_nil, List.append_nil, ← known.rows]
    refine foldl_absorbBucket_other ?_
    intro other isOther same
    rcases mem_toList_groupMetricSamples.mp isOther with ⟨nonempty, isGroup⟩
    have own : bucket = other.1 := congrArg MetricKey.ts same
    rw [← own] at isGroup
    exact nonempty (isGroup.trans none)
  · have isBucket : (bucket, inBucket width bucket points) ∈
        (groupMetricSamples points width).toList :=
      mem_toList_groupMetricSamples.mpr ⟨none, rfl⟩
    refine ((foldl_absorbBucket distinct).2 _ isBucket).trans ?_
    unfold absorbedRow
    dsimp only
    rw [known.readMetricAggregate_accepts]
    split
    · rename_i nothing
      rw [nothing, List.append_nil]
      exact known.rows bucket
    · rename_i something
      unfold readMetricAggregate
      rw [known.rows]
      exact merge_rowOf (inOrder bucket) something

end Absorb

/-! ## Transactions -/

/-- The samples that transactions have added to the rows of five minutes of a series. -/
def countedFive (log : List SeriesFlush) (name : String) : List MetricPoint :=
  (log.filter fun added => decide (added.name = name)).flatMap (·.five)

/-- The samples that transactions have added to the rows of an hour of a series. -/
def countedHours (log : List SeriesFlush) (name : String) : List MetricPoint :=
  (log.filter fun added => decide (added.name = name)).flatMap (·.hours)

/-- The rows of a series are the summaries of what was added to them. -/
structure MetricTx.Counts (tx : MetricTx) (name : String) : Prop where
  five : CountedRows name .metricTierFive 300 tx.rows (countedFive tx.log name)
  hours : CountedRows name .metricTierHour 3600 tx.rows (countedHours tx.log name)

section Transactions

variable {tx : MetricTx} {name series : String} {points : List MetricPoint}

theorem Increasing.newSamples {width : ℤ} (ordered : Increasing points)
    (counted : List MetricPoint) : Increasing (newSamples width counted points) :=
  ordered.filter _

theorem MetricTx.Counts.newFive (counts : tx.Counts name) (ordered : Increasing points) :
    (absorb name .metricTierFive 300 tx.rows points).accepted =
      newSamples 300 (countedFive tx.log name) points :=
  absorb_accepted counts.five (by decide) ordered

/-- The rows of a tier are those of its loop. -/
theorem CountedRows.congr {tier : MetricTier} {width : ℤ} {rows others : MetricRows}
    {counted : List MetricPoint} (known : CountedRows name tier width rows counted)
    (same : ∀ bucket, others ⟨name, tier, bucket⟩ = rows ⟨name, tier, bucket⟩) :
    CountedRows name tier width others counted :=
  ⟨fun bucket => (same bucket).trans (known.rows bucket), known.ordered⟩

theorem flushSeries_other (other : series ≠ name) (tier : MetricTier) (bucket : ℤ) :
    (flushSeries tx name points).rows ⟨series, tier, bucket⟩ = tx.rows ⟨series, tier, bucket⟩ := by
  unfold flushSeries
  dsimp only
  rw [absorb_other (.inl other), absorb_other (.inl other)]

theorem countedFive_append (log : List SeriesFlush) (added : SeriesFlush) :
    countedFive (log ++ [added]) name =
      countedFive log name ++ if added.name = name then added.five else [] := by
  unfold countedFive
  rw [List.filter_append, List.flatMap_append]
  by_cases same : added.name = name <;> simp [same]

theorem countedHours_append (log : List SeriesFlush) (added : SeriesFlush) :
    countedHours (log ++ [added]) name =
      countedHours log name ++ if added.name = name then added.hours else [] := by
  unfold countedHours
  rw [List.filter_append, List.flatMap_append]
  by_cases same : added.name = name <;> simp [same]

/-- What flushing a series adds to it. -/
theorem MetricTx.Counts.flushed (counts : tx.Counts name) (ordered : Increasing points) :
    countedFive (flushSeries tx name points).log name =
        countedFive tx.log name ++ newSamples 300 (countedFive tx.log name) points ∧
      countedHours (flushSeries tx name points).log name = countedHours tx.log name ++
        newSamples 3600 (countedHours tx.log name)
          (newSamples 300 (countedFive tx.log name) points) := by
  have five := counts.newFive ordered
  have hourRows : CountedRows name .metricTierHour 3600
      (absorb name .metricTierFive 300 tx.rows points).rows (countedHours tx.log name) :=
    counts.hours.congr fun bucket => absorb_other (.inr (by simp))
  unfold flushSeries
  dsimp only
  rw [countedFive_append, countedHours_append, if_pos rfl, if_pos rfl, five,
    absorb_accepted hourRows (by decide) (ordered.newSamples _)]
  exact ⟨rfl, rfl⟩

/-- Flushing another series adds nothing to a series. -/
theorem countedOther_flushSeries (tx : MetricTx) (other : series ≠ name)
    (points : List MetricPoint) :
    countedFive (flushSeries tx name points).log series = countedFive tx.log series ∧
      countedHours (flushSeries tx name points).log series = countedHours tx.log series := by
  unfold flushSeries
  rw [countedFive_append, countedHours_append, if_neg (Ne.symm other), if_neg (Ne.symm other),
    List.append_nil, List.append_nil]
  exact ⟨rfl, rfl⟩

/-- Flushing another series changes nothing. -/
theorem MetricTx.Counts.flushOther (counts : tx.Counts series) (other : series ≠ name) :
    (flushSeries tx name points).Counts series ∧
      countedFive (flushSeries tx name points).log series = countedFive tx.log series ∧
      countedHours (flushSeries tx name points).log series = countedHours tx.log series := by
  rcases countedOther_flushSeries tx other points with ⟨five, hours⟩
  refine ⟨⟨?_, ?_⟩, five, hours⟩
  · rw [five]
    exact counts.five.congr fun bucket => flushSeries_other other _ bucket
  · rw [hours]
    exact counts.hours.congr fun bucket => flushSeries_other other _ bucket

/-- Flushing a series keeps its rows the summaries of what was added. -/
theorem MetricTx.Counts.flushSeries (counts : tx.Counts series)
    (ordered : Increasing points) : (flushSeries tx name points).Counts series := by
  by_cases same : series = name
  · subst same
    have flushed := counts.flushed ordered
    have five := counts.newFive ordered
    have hourRows : CountedRows series .metricTierHour 3600
        (absorb series .metricTierFive 300 tx.rows points).rows (countedHours tx.log series) :=
      counts.hours.congr fun bucket => absorb_other (.inr (by simp))
    refine ⟨?_, ?_⟩
    · rw [flushed.1]
      exact (counts.five.absorb ordered).congr fun bucket => absorb_other (.inr (by simp))
    · rw [flushed.2]
      have newOrdered : Increasing (newSamples 300 (countedFive tx.log series) points) :=
        ordered.newSamples _
      have absorbed := hourRows.absorb newOrdered
      rw [← five] at absorbed ⊢
      exact absorbed
  · exact (counts.flushOther same).1

end Transactions

/-! ## Hours -/

/-- Merging rows gives what merging their aggregates gives, whatever their labels are. -/
theorem foldl_merge_labelled {name : String} (points : List (MetricAggregate × ℤ × MetricTier))
    (ts : ℤ) (tier : MetricTier) :
    ((points.map fun point => point.1.labelled point.2.1 point.2.2).foldl
        (mergeMetricAggregates name) .zero).labelled ts tier =
      ((points.map (·.1)).foldl (mergeMetricAggregates name) .zero).labelled ts tier := by
  induction points using List.reverseRecOn generalizing ts tier with
  | nil => rfl
  | append_singleton points point ih =>
      rw [List.map_append, List.map_append, List.foldl_append, List.foldl_append]
      simp only [List.map_cons, List.map_nil, List.foldl_cons, List.foldl_nil]
      rw [← mergeMetricAggregates_labelled _ _ 0 0 ts .metricTierRaw .metricTierRaw tier, ih,
        ← mergeMetricAggregates_labelled (List.foldl _ _ _) point.1 0 0 ts .metricTierRaw
          .metricTierRaw tier]
      rfl

/-- The row of an hour is what merging its rows of five minutes in order gives. -/
def HourMerges (name : String) (rows : MetricRows) (hour : ℤ) : Prop :=
  ∃ fives : List ℤ, fives.Pairwise (· < ·) ∧
    (∀ ts, ts ∈ fives ↔
      (rows ⟨name, .metricTierFive, ts⟩).isSome = true ∧ metricBucket ts 3600 = hour) ∧
    rows ⟨name, .metricTierHour, hour⟩ =
      if fives = [] then none
      else some (((fives.map fun ts => readMetricAggregate rows ⟨name, .metricTierFive, ts⟩).foldl
        (mergeMetricAggregates name) .zero).labelled hour .metricTierHour)

/-- The samples of five minutes all belong to their hour. -/
theorem inBucket_inBucket {counted : List MetricPoint} {ts hour : ℤ}
    (within : metricBucket ts 3600 = hour) :
    inBucket 300 ts (inBucket 3600 hour counted) = inBucket 300 ts counted := by
  unfold inBucket
  rw [List.filter_filter]
  refine List.filter_congr fun point _ => ?_
  by_cases same : metricBucket point.ts 300 = ts
  · have inHour : metricBucket point.ts 3600 = hour := by
      rw [← metricBucket_nested, same, within]
    simp [same, inHour]
  · simp [same]

/-- When both tiers hold the same samples in order, each hour merges its rows. -/
theorem hourMerges_of_counted {name : String} {rows : MetricRows} {counted : List MetricPoint}
    (ordered : Increasing counted)
    (five : CountedRows name .metricTierFive 300 rows counted)
    (hours : CountedRows name .metricTierHour 3600 rows counted) (hour : ℤ) :
    HourMerges name rows hour := by
  have inHour : Increasing (inBucket 3600 hour counted) := ordered.filter _
  have isGroup : ∀ group ∈ (groupMetricSamples (inBucket 3600 hour counted) 300).toList,
      group.2 ≠ [] ∧ metricBucket group.1 3600 = hour ∧ group.2 = inBucket 300 group.1 counted := by
    intro group mem
    rcases mem_toList_groupMetricSamples.mp mem with ⟨nonempty, same⟩
    rcases List.exists_mem_of_ne_nil _ nonempty with ⟨point, isPoint⟩
    have within : metricBucket group.1 3600 = hour := by
      rw [same] at isPoint
      rcases List.mem_filter.mp isPoint with ⟨isPoint, inFive⟩
      rw [← of_decide_eq_true inFive, metricBucket_nested]
      exact of_decide_eq_true (List.mem_filter.mp isPoint).2
    exact ⟨nonempty, within, same.trans (inBucket_inBucket within)⟩
  have flat : ((groupMetricSamples (inBucket 3600 hour counted) 300).toList.map (·.2)).flatten =
      inBucket 3600 hour counted := by
    have all := flatMap_groupMetricSamples (by decide : (0 : ℤ) < 300) inHour fun _ _ => true
    simpa [List.flatMap_def] using all
  have rowsEq : ∀ group ∈ (groupMetricSamples (inBucket 3600 hour counted) 300).toList,
      readMetricAggregate rows ⟨name, .metricTierFive, group.1⟩ =
        (summary name group.2).labelled group.1 .metricTierFive := by
    intro group mem
    rcases isGroup group mem with ⟨nonempty, -, same⟩
    unfold readMetricAggregate
    rw [five.rows, ← same, rowOf, if_neg nonempty, Option.getD_some]
  refine ⟨(groupMetricSamples (inBucket 3600 hour counted) 300).toList.map (·.1), ?_, ?_, ?_⟩
  · refine List.pairwise_map.mpr ((Std.ExtTreeMap.ordered_keys_toList
      (t := groupMetricSamples (inBucket 3600 hour counted) 300)).imp ?_)
    exact fun less => Std.compare_eq_lt.mp less
  · intro ts
    rw [List.mem_map]
    constructor
    · rintro ⟨group, mem, rfl⟩
      rcases isGroup group mem with ⟨nonempty, within, same⟩
      refine ⟨?_, within⟩
      rw [five.rows, rowOf, ← same, if_neg nonempty]
      rfl
    · rintro ⟨some, within⟩
      refine ⟨(ts, inBucket 300 ts counted), ?_, rfl⟩
      refine mem_toList_groupMetricSamples.mpr ⟨?_, (inBucket_inBucket within).symm⟩
      intro none
      rw [five.rows, rowOf, if_pos none] at some
      cases some
  · have none_iff : inBucket 3600 hour counted = [] ↔
        (groupMetricSamples (inBucket 3600 hour counted) 300).toList.map (·.1) = [] := by
      rw [List.map_eq_nil_iff]
      constructor
      · intro none
        rw [none]
        rfl
      · intro none
        rw [← flat, none]
        rfl
    refine (hours.rows hour).trans ?_
    unfold rowOf
    split
    · rename_i none
      rw [if_pos (none_iff.mp none)]
    · rename_i some
      rw [if_neg fun none => some (none_iff.mpr none)]
      refine congrArg Option.some ?_
      have merged := @foldl_merge_labelled name
        ((groupMetricSamples (inBucket 3600 hour counted) 300).toList.map fun group =>
          (summary name group.2, group.1, .metricTierFive)) hour .metricTierHour
      rw [List.map_map, List.map_map] at merged
      have summaries := @foldl_merge_summary name
        ((groupMetricSamples (inBucket 3600 hour counted) 300).toList.map (·.2))
        (flat.symm ▸ inHour)
      rw [flat, List.map_map] at summaries
      have isRows : ((groupMetricSamples (inBucket 3600 hour counted) 300).toList.map (·.1)).map
          (fun ts => readMetricAggregate rows ⟨name, .metricTierFive, ts⟩) =
          (groupMetricSamples (inBucket 3600 hour counted) 300).toList.map fun group =>
            (summary name group.2).labelled group.1 .metricTierFive := by
        rw [List.map_map]
        exact List.map_congr_left rowsEq
      rw [isRows, ← summaries]
      exact merged.symm

end TelemtPanel.Store
