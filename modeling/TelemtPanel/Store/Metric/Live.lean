import TelemtPanel.Library.Int64
import TelemtPanel.Library.Recent
import TelemtPanel.Store.Metric.Basic

/-!
# The live buffer of a metric series

The buffer holds the last value of each of the newest timestamps within two hours of the
latest one, whatever the order in which the samples came.  Samples that are not finite are
not seen.

The start of the window is computed with 64 bits.  As long as it lies below the least
timestamp it wraps around, and samples are lost.
-/

namespace TelemtPanel.Store

open TelemtPanel.Library

def Double.isFinite : Double → Bool
  | .finite _ => true
  | _ => false

/-- Appends a sample; late samples neither move the window back nor displace newer ones. -/
def appendLiveMetric (points : List MetricPoint) (point : MetricPoint) : List MetricPoint :=
  if !point.value.isFinite then points
  else
    let point := MetricPoint.sample point.ts point.value
    let latest := (points.getLast?).elim point.ts fun last => max point.ts last.ts
    let cutoff := wrapInt64 (latest - liveMetricRetentionSecs)
    if point.ts < cutoff then points
    else
      let points := place MetricPoint.ts points point
      let start := placeOf MetricPoint.ts points cutoff
      points.drop (max start (points.length - metricCap))

section Observations

variable {observed later : List MetricPoint} {point : MetricPoint} {ts : ℤ} {value : Double}

/-- The last finite value at a timestamp. -/
def lastValue (observed : List MetricPoint) (ts : ℤ) : Option Double :=
  (observed.filter fun point => point.value.isFinite && decide (point.ts = ts)).getLast?.map (·.value)

/-- The timestamps of finite values. -/
def timestamps (observed : List MetricPoint) : Finset ℤ :=
  ((observed.filter (·.value.isFinite)).map (·.ts)).toFinset

/-- A value that a live buffer should show: the last one of a timestamp which is in the window
of all timestamps and among the newest. -/
structure Shown (observed : List MetricPoint) (ts : ℤ) (value : Double) : Prop where
  last : lastValue observed ts = some value
  window : ∀ other ∈ timestamps observed, other - liveMetricRetentionSecs ≤ ts
  newest : above (timestamps observed) ts < metricCap

theorem lastValue_append :
    lastValue (observed ++ later) ts = (lastValue later ts).or (lastValue observed ts) := by
  simp only [lastValue, List.filter_append, List.getLast?_append]
  cases (later.filter fun point => point.value.isFinite && decide (point.ts = ts)).getLast? <;> rfl

theorem lastValue_singleton (finite : point.value.isFinite = true) :
    lastValue [point] ts = if point.ts = ts then some point.value else none := by
  simp only [lastValue, List.filter_cons, finite, Bool.true_and, decide_eq_true_eq, List.filter_nil]
  split <;> rfl

theorem timestamps_append : timestamps (observed ++ later) = timestamps observed ∪ timestamps later := by
  simp [timestamps, List.toFinset_append]

theorem mem_timestamps : ts ∈ timestamps observed ↔ ∃ value, lastValue observed ts = some value := by
  rw [← Option.isSome_iff_exists]
  simp [timestamps, lastValue, and_assoc]

/-- Only the finite samples of a sequence count. -/
theorem foldl_appendLiveMetric (points : List MetricPoint) :
    observed.foldl appendLiveMetric points =
      (observed.filter (·.value.isFinite)).foldl appendLiveMetric points := by
  induction observed generalizing points with
  | nil => rfl
  | cons point observed ih =>
      cases finite : point.value.isFinite with
      | true => simp [finite, ih]
      | false => simp [finite, ih, appendLiveMetric]

end Observations

section Runs

variable {observed : List MetricPoint} {points : List MetricPoint} {point : MetricPoint}

/-- What the buffer of a sequence of finite samples is. -/
structure LiveBuffer (observed points : List MetricPoint) : Prop where
  ordered : points.Pairwise fun a b => a.ts < b.ts
  mem_iff : ∀ point, point ∈ points ↔
    point = MetricPoint.sample point.ts point.value ∧ Shown observed point.ts point.value

theorem LiveBuffer.nil : LiveBuffer [] [] where
  ordered := .nil
  mem_iff point := by
    simp only [List.not_mem_nil, false_iff, not_and]
    intro _ shown
    cases shown.last

theorem LiveBuffer.mem_timestamps (buffer : LiveBuffer observed points) {kept : MetricPoint}
    (mem : kept ∈ points) : kept.ts ∈ timestamps observed :=
  Store.mem_timestamps.mpr ⟨_, ((buffer.mem_iff kept).mp mem).2.last⟩

/-- The last sample of the buffer has the greatest timestamp of all. -/
theorem LiveBuffer.isGreatest_latest (buffer : LiveBuffer observed points) (ts : ℤ) :
    IsGreatest (insert ts (timestamps observed) : Finset ℤ)
      ((points.getLast?).elim ts fun last => max ts last.ts) := by
  have upper : ∀ other ∈ timestamps observed, ∃ last, points.getLast? = some last ∧
      other ≤ last.ts := by
    intro other mem
    have some : (timestamps observed).Nonempty := ⟨other, mem⟩
    set greatest := (timestamps observed).max' some with greatestEq
    have isTimestamp : greatest ∈ timestamps observed := Finset.max'_mem _ some
    rcases Store.mem_timestamps.mp isTimestamp with ⟨value, last⟩
    have shown : Shown observed greatest value :=
      { last := last
        window := by
          intro another isAnother
          have := Finset.le_max' _ another isAnother
          simp only [liveMetricRetentionSecs]
          omega
        newest := by
          have none : above (timestamps observed) greatest = 0 := by
            rw [above, Finset.card_eq_zero, Finset.filter_eq_empty_iff]
            intro another isAnother
            exact (Finset.le_max' _ another isAnother).not_gt
          rw [none]
          decide }
    have kept : MetricPoint.sample greatest value ∈ points :=
      (buffer.mem_iff _).mpr ⟨rfl, shown⟩
    rcases List.eq_nil_or_concat' points with nothing | ⟨front, final, split⟩
    · rw [nothing] at kept
      cases kept
    · refine ⟨final, by simp [split], (Finset.le_max' _ other mem).trans ?_⟩
      have ordered := buffer.ordered
      rw [split] at kept ordered
      rcases List.mem_append.mp kept with mem | mem
      · exact ((List.pairwise_append.mp ordered).2.2 _ mem final (by simp)).le
      · rw [← List.mem_singleton.mp mem]
        exact le_rfl
  constructor
  · cases isLast : points.getLast? with
    | none => simp
    | some last =>
        have kept := buffer.mem_timestamps (List.mem_of_getLast? isLast)
        rcases max_choice ts last.ts with same | same
        · simp [same]
        · simp [same, kept]
  · intro other mem
    rw [Finset.mem_coe, Finset.mem_insert] at mem
    rcases mem with rfl | mem
    · cases points.getLast? with
      | none => exact le_rfl
      | some last => exact le_max_left _ _
    · rcases upper other mem with ⟨last, isLast, le⟩
      rw [isLast]
      exact le.trans (le_max_right _ _)

/-- A sample before the window changes nothing that is shown. -/
theorem shown_append_of_early {latest ts : ℤ} {value : Double}
    (finite : point.value.isFinite = true)
    (greatest : IsGreatest (insert point.ts (timestamps observed) : Finset ℤ) latest)
    (early : point.ts < latest - liveMetricRetentionSecs) :
    Shown (observed ++ [point]) ts value ↔ Shown observed ts value := by
  have single : timestamps [point] = {point.ts} := by simp [timestamps, finite]
  have isTimestamp : latest ∈ timestamps observed := by
    have mem := greatest.1
    rw [Finset.mem_coe, Finset.mem_insert] at mem
    rcases mem with same | mem
    · rw [liveMetricRetentionSecs] at early
      omega
    · exact mem
  have later (inside : latest - liveMetricRetentionSecs ≤ ts) : point.ts < ts := by omega
  have sameLast (less : point.ts < ts) :
      lastValue (observed ++ [point]) ts = lastValue observed ts := by
    rw [lastValue_append, lastValue_singleton finite, if_neg less.ne, Option.none_or]
  have sameAbove (less : point.ts < ts) :
      above (timestamps (observed ++ [point])) ts = above (timestamps observed) ts := by
    rw [timestamps_append, single, above, above, Finset.filter_union, Finset.filter_singleton,
      if_neg less.not_gt, Finset.union_empty]
  constructor
  · intro shown
    have less := later (shown.window latest (by simp [timestamps_append, isTimestamp]))
    refine ⟨sameLast less ▸ shown.last, ?_, sameAbove less ▸ shown.newest⟩
    intro other mem
    exact shown.window other (by simp [timestamps_append, mem])
  · intro shown
    have less := later (shown.window latest isTimestamp)
    refine ⟨(sameLast less).trans shown.last, ?_, (sameAbove less).trans_lt shown.newest⟩
    intro other mem
    rw [timestamps_append, single, Finset.mem_union, Finset.mem_singleton] at mem
    rcases mem with mem | rfl
    · exact shown.window other mem
    · rw [liveMetricRetentionSecs]
      omega

theorem LiveBuffer.card_above (buffer : LiveBuffer observed points) (ts : ℤ) :
    ((place MetricPoint.ts points point).filter fun other => decide (ts < other.ts)).length =
      above ((place MetricPoint.ts points point).map (·.ts)).toFinset ts := by
  have distinct : ((place MetricPoint.ts points point).map (·.ts)).Nodup := by
    refine List.pairwise_map.mpr ((pairwise_place buffer.ordered).imp ?_)
    exact fun less => less.ne
  have filtered : ((place MetricPoint.ts points point).map (·.ts)).toFinset.filter (ts < ·) =
      (((place MetricPoint.ts points point).filter
        fun other => decide (ts < other.ts)).map (·.ts)).toFinset := by
    ext other
    simp only [Finset.mem_filter, List.mem_toFinset, List.mem_map, List.mem_filter,
      decide_eq_true_eq]
    constructor
    · rintro ⟨⟨kept, mem, rfl⟩, later⟩
      exact ⟨kept, ⟨mem, later⟩, rfl⟩
    · rintro ⟨kept, ⟨mem, later⟩, rfl⟩
      exact ⟨⟨kept, mem, rfl⟩, later⟩
  rw [above, filtered, List.toFinset_card_of_nodup]
  · rw [List.length_map]
  · exact distinct.sublist (List.filter_sublist.map _)

/-- Appending a sample of the window: it is placed, then what is no longer shown is dropped. -/
theorem LiveBuffer.mem_drop_place (buffer : LiveBuffer observed points) {latest : ℤ}
    (finite : point.value.isFinite = true)
    (greatest : IsGreatest (insert point.ts (timestamps observed) : Finset ℤ) latest)
    (other : MetricPoint) :
    other ∈ (place MetricPoint.ts points (.sample point.ts point.value)).drop
        (max (placeOf MetricPoint.ts (place MetricPoint.ts points (.sample point.ts point.value))
            (latest - liveMetricRetentionSecs))
          ((place MetricPoint.ts points (.sample point.ts point.value)).length - metricCap)) ↔
      other = .sample other.ts other.value ∧ Shown (observed ++ [point]) other.ts other.value := by
  set placed := place MetricPoint.ts points (.sample point.ts point.value) with placedEq
  have ordered : placed.Pairwise fun a b => a.ts < b.ts := pairwise_place buffer.ordered
  have both (first second : ℕ) : other ∈ placed.drop (max first second) ↔
      other ∈ placed.drop first ∧ other ∈ placed.drop second := by
    rcases le_total first second with le | le
    · rw [max_eq_right le]
      exact ⟨fun mem => ⟨List.drop_subset_drop_left placed le mem, mem⟩, And.right⟩
    · rw [max_eq_left le]
      exact ⟨fun mem => ⟨mem, List.drop_subset_drop_left placed le mem⟩, And.left⟩
  have single : timestamps [point] = {point.ts} := by simp [timestamps, finite]
  have isPlaced (kept : MetricPoint) : kept ∈ placed ↔
      kept = .sample point.ts point.value ∨ kept ∈ points ∧ kept.ts ≠ point.ts :=
    mem_place buffer.ordered
  have allEq : timestamps (observed ++ [point]) = insert point.ts (timestamps observed) := by
    rw [timestamps_append, single, Finset.union_comm, Finset.insert_eq]
  have sub : (placed.map (·.ts)).toFinset ⊆ timestamps (observed ++ [point]) := by
    intro ts mem
    rcases List.mem_map.mp (List.mem_toFinset.mp mem) with ⟨kept, isKept, rfl⟩
    rw [allEq, Finset.mem_insert]
    rcases (isPlaced kept).mp isKept with rfl | ⟨isKept, -⟩
    · exact .inl rfl
    · exact .inr (buffer.mem_timestamps isKept)
  have atMost : ∀ ts ∈ timestamps (observed ++ [point]), ts ≤ latest := by
    rw [allEq]
    exact greatest.2
  -- What the buffer lacks inside the window has enough newer timestamps.
  have few (inside : latest - liveMetricRetentionSecs ≤ other.ts) :
      above (placed.map (·.ts)).toFinset other.ts < metricCap ↔
        above (timestamps (observed ++ [point])) other.ts < metricCap := by
    apply above_lt_iff sub
    intro high isTimestamp missing less
    rw [allEq, Finset.mem_insert] at isTimestamp
    rcases isTimestamp with rfl | isTimestamp
    · refine absurd (List.mem_toFinset.mpr (List.mem_map.mpr ⟨_, (isPlaced _).mpr (.inl rfl), ?_⟩))
        missing
      rfl
    · rcases Store.mem_timestamps.mp isTimestamp with ⟨value, last⟩
      by_contra newest
      have subset : timestamps observed ⊆ timestamps (observed ++ [point]) := by
        rw [timestamps_append]
        exact Finset.subset_union_left
      have shown : Shown observed high value :=
        { last := last
          window := by
            intro another isAnother
            have := atMost another (subset isAnother)
            omega
          newest := (above_mono subset high).trans_lt (not_le.mp newest) }
      have kept : MetricPoint.sample high value ∈ points := (buffer.mem_iff _).mpr ⟨rfl, shown⟩
      by_cases same : high = point.ts
      · subst same
        refine missing (List.mem_toFinset.mpr (List.mem_map.mpr ⟨_, (isPlaced _).mpr (.inl rfl), ?_⟩))
        rfl
      · exact missing (List.mem_toFinset.mpr
          (List.mem_map.mpr ⟨_, (isPlaced _).mpr (.inr ⟨kept, same⟩), rfl⟩))
  have lastEq : lastValue (observed ++ [point]) other.ts =
      if point.ts = other.ts then some point.value else lastValue observed other.ts := by
    rw [lastValue_append, lastValue_singleton finite]
    split <;> simp
  rw [both, drop_placeOf ordered, List.mem_filter, mem_drop_length_sub ordered,
    buffer.card_above, decide_eq_true_eq, ← placedEq, isPlaced]
  constructor
  · rintro ⟨⟨isKept, inside⟩, -, newest⟩
    have window : ∀ ts ∈ timestamps (observed ++ [point]), ts - liveMetricRetentionSecs ≤ other.ts := by
      intro ts mem
      have := atMost ts mem
      omega
    rcases isKept with rfl | ⟨isKept, differs⟩
    · exact ⟨rfl, lastEq.trans (if_pos rfl), window, (few inside).mp newest⟩
    · rcases (buffer.mem_iff other).mp isKept with ⟨isSample, shown⟩
      refine ⟨isSample, ?_, window, (few inside).mp newest⟩
      rw [lastEq, if_neg differs.symm]
      exact shown.last
  · rintro ⟨isSample, shown⟩
    have inside : latest - liveMetricRetentionSecs ≤ other.ts := by
      refine shown.window latest ?_
      rw [allEq]
      exact greatest.1
    have isKept : other = .sample point.ts point.value ∨
        other ∈ points ∧ other.ts ≠ point.ts := by
      have last := shown.last
      rw [lastEq] at last
      split at last
      · rename_i same
        left
        rw [same, Option.some.inj last]
        exact isSample
      · rename_i differs
        right
        refine ⟨(buffer.mem_iff other).mpr ⟨isSample, last, ?_, ?_⟩, fun same => differs same.symm⟩
        · intro ts mem
          refine shown.window ts ?_
          rw [allEq]
          exact Finset.mem_insert_of_mem mem
        · refine (above_mono ?_ other.ts).trans_lt shown.newest
          rw [allEq]
          exact Finset.subset_insert _ _
    exact ⟨⟨isKept, inside⟩, isKept, (few inside).mpr shown.newest⟩

/-- Appending a finite sample, with the latest timestamp and the placed samples named. -/
theorem appendLiveMetric_of_finite (finite : point.value.isFinite = true) {latest : ℤ}
    (isLatest : (points.getLast?).elim point.ts (fun last => max point.ts last.ts) = latest)
    {placed : List MetricPoint}
    (isPlaced : place MetricPoint.ts points (.sample point.ts point.value) = placed) :
    appendLiveMetric points point =
      if point.ts < wrapInt64 (latest - liveMetricRetentionSecs) then points
      else placed.drop
        (max (placeOf MetricPoint.ts placed (wrapInt64 (latest - liveMetricRetentionSecs)))
          (placed.length - metricCap)) := by
  subst isLatest isPlaced
  simp only [appendLiveMetric, finite, Bool.not_true, Bool.false_eq_true, if_false]
  rfl

/-- A step without overflow keeps the buffer. -/
theorem LiveBuffer.append (buffer : LiveBuffer observed points)
    (finite : point.value.isFinite = true)
    (range : ∀ ts ∈ insert point.ts (timestamps observed), ts ≤ maxInt64)
    (reached : ∃ ts ∈ insert point.ts (timestamps observed), minInt64 + liveMetricRetentionSecs ≤ ts) :
    LiveBuffer (observed ++ [point]) (appendLiveMetric points point) := by
  have greatest := buffer.isGreatest_latest point.ts
  rw [appendLiveMetric_of_finite finite rfl rfl]
  generalize (points.getLast?).elim point.ts (fun last => max point.ts last.ts) = latest
    at greatest ⊢
  have cutoff : wrapInt64 (latest - liveMetricRetentionSecs) = latest - liveMetricRetentionSecs := by
    rcases reached with ⟨ts, mem, reached⟩
    have le := greatest.2 (Finset.mem_coe.mpr mem)
    have upper := range latest (Finset.mem_coe.mp greatest.1)
    apply wrapInt64_of_range
    · omega
    · simp only [liveMetricRetentionSecs]
      omega
  rw [cutoff]
  split
  · rename_i early
    refine ⟨buffer.ordered, ?_⟩
    intro other
    rw [buffer.mem_iff, shown_append_of_early finite greatest early]
  · refine ⟨?_, buffer.mem_drop_place finite greatest⟩
    exact (pairwise_place buffer.ordered).sublist (List.drop_sublist _ _)

/-- A sample for which the start of the window wraps around. -/
def MetricPoint.early (point : MetricPoint) : Bool :=
  decide (point.ts < minInt64 + liveMetricRetentionSecs)

/-- The finite samples from the first one on which is not early. -/
def fromReached (observed : List MetricPoint) : List MetricPoint :=
  (observed.filter (·.value.isFinite)).dropWhile MetricPoint.early

theorem appendLiveMetric_nil_of_early (finite : point.value.isFinite = true)
    (lower : minInt64 ≤ point.ts) (early : point.early = true) : appendLiveMetric [] point = [] := by
  have before : point.ts < minInt64 + liveMetricRetentionSecs := of_decide_eq_true early
  have wrapped : wrapInt64 (point.ts - liveMetricRetentionSecs) =
      point.ts - liveMetricRetentionSecs + 18446744073709551616 := by
    apply wrapInt64_of_below
    · simp only [minInt64, liveMetricRetentionSecs] at lower ⊢
      omega
    · omega
  have later : point.ts < wrapInt64 (point.ts - liveMetricRetentionSecs) := by
    rw [wrapped, liveMetricRetentionSecs]
    omega
  rw [appendLiveMetric_of_finite finite rfl rfl]
  exact if_pos later

theorem LiveBuffer.foldl (finite : ∀ point ∈ observed, point.value.isFinite = true)
    (range : ∀ point ∈ observed, point.ts ≤ maxInt64)
    (reached : ∀ first ∈ observed.head?, first.early = false) :
    LiveBuffer observed (observed.foldl appendLiveMetric []) := by
  induction observed using List.reverseRecOn with
  | nil => exact .nil
  | append_singleton observed point ih =>
      have isTimestamp : ∀ other ∈ observed, other.ts ∈ timestamps observed := by
        intro other mem
        simp only [timestamps, List.mem_toFinset, List.mem_map, List.mem_filter]
        exact ⟨other, ⟨mem, finite other (by simp [mem])⟩, rfl⟩
      have buffer : LiveBuffer observed (observed.foldl appendLiveMetric []) := by
        apply ih
        · exact fun other mem => finite other (by simp [mem])
        · exact fun other mem => range other (by simp [mem])
        · intro first isFirst
          exact reached first (by rw [List.head?_append, Option.mem_def.mp isFirst]; rfl)
      rw [List.foldl_append]
      apply buffer.append (finite point (by simp))
      · intro ts mem
        rcases Finset.mem_insert.mp mem with rfl | mem
        · exact range point (by simp)
        · simp only [timestamps, List.mem_toFinset, List.mem_map, List.mem_filter] at mem
          rcases mem with ⟨other, ⟨isOther, -⟩, rfl⟩
          exact range other (by simp [isOther])
      · cases observed with
        | nil =>
            have onTime := reached point rfl
            refine ⟨point.ts, Finset.mem_insert_self _ _, ?_⟩
            exact not_lt.mp (of_decide_eq_false onTime)
        | cons first rest =>
            have onTime := reached first rfl
            refine ⟨first.ts, Finset.mem_insert_of_mem (isTimestamp first List.mem_cons_self), ?_⟩
            exact not_lt.mp (of_decide_eq_false onTime)

/-- The buffer is that of the samples from the first one which is not early. -/
theorem liveBuffer_fromReached (range : ∀ point ∈ observed, minInt64 ≤ point.ts ∧ point.ts ≤ maxInt64) :
    LiveBuffer (fromReached observed) (observed.foldl appendLiveMetric []) := by
  have skip : ∀ samples : List MetricPoint,
      (∀ point ∈ samples, point.value.isFinite = true ∧ minInt64 ≤ point.ts) →
      samples.foldl appendLiveMetric [] =
        (samples.dropWhile MetricPoint.early).foldl appendLiveMetric [] := by
    intro samples known
    induction samples with
    | nil => rfl
    | cons first rest ih =>
        rcases List.forall_mem_cons.mp known with ⟨⟨finite, lower⟩, others⟩
        cases early : first.early with
        | true =>
            rw [List.dropWhile_cons_of_pos early, List.foldl_cons,
              appendLiveMetric_nil_of_early finite lower early, ih others]
        | false => rw [List.dropWhile_cons_of_neg (by simp [early])]
  have known : ∀ point ∈ observed.filter (·.value.isFinite),
      point.value.isFinite = true ∧ minInt64 ≤ point.ts ∧ point.ts ≤ maxInt64 := by
    intro point mem
    exact ⟨(List.mem_filter.mp mem).2, range point (List.mem_filter.mp mem).1⟩
  have kept : ∀ point ∈ fromReached observed, point ∈ observed.filter (·.value.isFinite) :=
    fun point mem => (List.dropWhile_sublist _).subset mem
  rw [foldl_appendLiveMetric, skip _ fun point mem => ⟨(known point mem).1, (known point mem).2.1⟩]
  apply LiveBuffer.foldl
  · exact fun point mem => (known point (kept point mem)).1
  · exact fun point mem => (known point (kept point mem)).2.2
  · intro first isFirst
    have stopped := List.head?_dropWhile_not MetricPoint.early (observed.filter (·.value.isFinite))
    rw [Option.mem_def] at isFirst
    rw [fromReached] at isFirst
    rw [isFirst] at stopped
    exact stopped

end Runs

section Overflow

variable {observed other : List MetricPoint}

/-- Every value to be shown has a sample that is not lost to the overflow. -/
def Reached (observed : List MetricPoint) : Prop :=
  ∀ ts value, Shown observed ts value → ts ∈ timestamps (fromReached observed)

theorem filter_eq_append_fromReached (observed : List MetricPoint) : ∃ lost,
    observed.filter (·.value.isFinite) = lost ++ fromReached observed ∧
      ∀ point ∈ lost, point.early = true := by
  refine ⟨_, List.takeWhile_append_dropWhile.symm, ?_⟩
  intro point mem
  exact List.mem_takeWhile_imp mem

theorem lastValue_filter (ts : ℤ) :
    lastValue (observed.filter (·.value.isFinite)) ts = lastValue observed ts := by
  simp only [lastValue, List.filter_filter]
  congr 3
  funext point
  cases point.value.isFinite <;> simp

theorem timestamps_filter :
    timestamps (observed.filter (·.value.isFinite)) = timestamps observed := by
  simp [timestamps, List.filter_filter]

theorem timestamps_fromReached_subset : timestamps (fromReached observed) ⊆ timestamps observed := by
  rcases filter_eq_append_fromReached observed with ⟨lost, split, -⟩
  rw [← @timestamps_filter observed, split, timestamps_append]
  exact Finset.subset_union_right

theorem lastValue_of_fromReached {ts : ℤ} {value : Double}
    (last : lastValue (fromReached observed) ts = some value) : lastValue observed ts = some value := by
  rcases filter_eq_append_fromReached observed with ⟨lost, split, -⟩
  rw [← lastValue_filter, split, lastValue_append, last, Option.some_or]

/-- Lost samples are early, so they do not move the window. -/
theorem window_of_fromReached {ts : ℤ} (isTimestamp : ts ∈ timestamps (fromReached observed))
    (window : ∀ next ∈ timestamps (fromReached observed), next - liveMetricRetentionSecs ≤ ts) :
    ∀ next ∈ timestamps observed, next - liveMetricRetentionSecs ≤ ts := by
  rcases filter_eq_append_fromReached observed with ⟨lost, split, early⟩
  intro next mem
  rw [← @timestamps_filter observed, split, timestamps_append, Finset.mem_union] at mem
  rcases mem with isLost | mem
  · simp only [timestamps, List.mem_toFinset, List.mem_map, List.mem_filter] at isLost
    rcases isLost with ⟨point, ⟨isLost, -⟩, rfl⟩
    have before : point.ts < minInt64 + liveMetricRetentionSecs :=
      of_decide_eq_true (early point isLost)
    -- The first sample that is not early is later than the lost ones.
    cases isRest : fromReached observed with
    | nil =>
        rw [isRest] at isTimestamp
        simp [timestamps] at isTimestamp
    | cons first rest =>
        have onTime : first.early = false := by
          have stopped := List.head?_dropWhile_not MetricPoint.early
            (observed.filter (·.value.isFinite))
          rw [← fromReached, isRest] at stopped
          exact stopped
        have finite : first.value.isFinite = true := by
          have mem : first ∈ observed.filter (·.value.isFinite) := by
            rw [split, isRest]
            simp
          exact (List.mem_filter.mp mem).2
        have later := window first.ts (by
          rw [isRest]
          simp [timestamps, finite])
        have := of_decide_eq_false onTime
        omega
  · exact window next mem

/-- What is shown of the samples that are not lost is what is shown of all. -/
theorem shown_fromReached_iff (reached : Reached observed) (ts : ℤ) (value : Double) :
    Shown (fromReached observed) ts value ↔ Shown observed ts value := by
  have subset := @timestamps_fromReached_subset observed
  constructor
  · intro shown
    have isTimestamp := mem_timestamps.mpr ⟨value, shown.last⟩
    have window := window_of_fromReached isTimestamp shown.window
    refine ⟨lastValue_of_fromReached shown.last, window, ?_⟩
    apply (above_lt_iff subset ?_).mp shown.newest
    intro high isHigh missing less
    rcases mem_timestamps.mp isHigh with ⟨final, last⟩
    by_contra newest
    refine missing (reached high final ⟨last, ?_, not_le.mp newest⟩)
    intro next mem
    have := window next mem
    omega
  · intro shown
    have isTimestamp := reached ts value shown
    rcases mem_timestamps.mp isTimestamp with ⟨final, last⟩
    have same := lastValue_of_fromReached last
    rw [shown.last] at same
    refine ⟨last.trans same.symm, ?_, (above_mono subset ts).trans_lt shown.newest⟩
    exact fun next mem => shown.window next (subset mem)

/-- Samples that come so late in 64 bits that nothing overflows. -/
theorem reached_of_forall
    (late : ∀ point ∈ observed, minInt64 + liveMetricRetentionSecs ≤ point.ts) : Reached observed := by
  intro ts value shown
  have all : fromReached observed = observed.filter (·.value.isFinite) := by
    refine List.dropWhile_eq_self_iff.mpr ?_
    intro some isEarly
    have mem := List.getElem_mem some
    have before := of_decide_eq_true isEarly
    exact absurd before (late _ (List.mem_filter.mp mem).1).not_gt
  rw [all, timestamps_filter]
  exact mem_timestamps.mpr ⟨value, shown.last⟩

/-- Sequences with the same samples at each timestamp, in the same order, show the same. -/
theorem shown_congr (same : ∀ ts : ℤ, other.filter (fun point => decide (point.ts = ts)) =
    observed.filter fun point => decide (point.ts = ts)) (ts : ℤ) (value : Double) :
    Shown other ts value ↔ Shown observed ts value := by
  have last : lastValue other = lastValue observed := by
    funext ts
    simp only [lastValue, ← List.filter_filter, same]
  have stamps : timestamps other = timestamps observed := by
    ext ts
    rw [mem_timestamps, mem_timestamps, last]
  constructor
  · intro shown
    exact ⟨last ▸ shown.last, stamps ▸ shown.window, stamps ▸ shown.newest⟩
  · intro shown
    exact ⟨last ▸ shown.last, stamps ▸ shown.window, stamps ▸ shown.newest⟩

end Overflow

/-- The buffer consists of the last values of the newest timestamps in the window, in order,
exactly when no sample of them is lost to an overflow; then the order of samples with
different timestamps does not matter. -/
theorem live_buffer_shows_newest (observed : List MetricPoint)
    (range : ∀ point ∈ observed, minInt64 ≤ point.ts ∧ point.ts ≤ maxInt64) :
    (LiveBuffer observed (observed.foldl appendLiveMetric []) ↔ Reached observed) ∧
    ∀ other : List MetricPoint,
      (∀ ts : ℤ, other.filter (fun point => decide (point.ts = ts)) =
        observed.filter fun point => decide (point.ts = ts)) →
      Reached observed → Reached other →
      other.foldl appendLiveMetric [] = observed.foldl appendLiveMetric [] := by
  have main : ∀ {samples : List MetricPoint},
      (∀ point ∈ samples, minInt64 ≤ point.ts ∧ point.ts ≤ maxInt64) →
      (LiveBuffer samples (samples.foldl appendLiveMetric []) ↔ Reached samples) := by
    intro samples range
    have buffer := liveBuffer_fromReached range
    constructor
    · intro whole ts value shown
      have kept := (whole.mem_iff (.sample ts value)).mpr ⟨rfl, shown⟩
      exact buffer.mem_timestamps kept
    · intro reached
      refine ⟨buffer.ordered, ?_⟩
      intro point
      rw [buffer.mem_iff, shown_fromReached_iff reached]
  refine ⟨main range, ?_⟩
  intro other same reached otherReached
  have otherRange : ∀ point ∈ other, minInt64 ≤ point.ts ∧ point.ts ≤ maxInt64 := by
    intro point mem
    have there : point ∈ other.filter fun next => decide (next.ts = point.ts) := by simp [mem]
    rw [same] at there
    exact range point (List.mem_filter.mp there).1
  have buffer := (main range).mpr reached
  have otherBuffer := (main otherRange).mpr otherReached
  apply Sorter.eq_of_pairwise_lt otherBuffer.ordered buffer.ordered
  intro point
  rw [otherBuffer.mem_iff, buffer.mem_iff, shown_congr same]

def sampleSamples : List MetricPoint :=
  [.sample 100 (.finite 1), .sample 7300 (.finite 2), .sample 90 (.finite 3), .sample 95 .notANumber,
    .sample 100 (.finite 4)]

example : sampleSamples.foldl appendLiveMetric [] =
    [.sample 100 (.finite 4), .sample 7300 (.finite 2)] := by decide +kernel

theorem sampleSamples_shown :
    LiveBuffer sampleSamples (sampleSamples.foldl appendLiveMetric []) :=
  (live_buffer_shows_newest sampleSamples (by decide)).1.mpr (reached_of_forall (by decide))

/-- The least timestamp is lost. -/
theorem sampleLeast_not_shown :
    ¬LiveBuffer [.sample minInt64 (.finite 1)]
      ([MetricPoint.sample minInt64 (.finite 1)].foldl appendLiveMetric []) := by
  intro buffer
  have shown : Shown [.sample minInt64 (.finite 1)] minInt64 (.finite 1) :=
    { last := by decide
      window := by decide
      newest := by decide }
  have kept := (buffer.mem_iff (.sample minInt64 (.finite 1))).mpr ⟨rfl, shown⟩
  have none : [MetricPoint.sample minInt64 (.finite 1)].foldl appendLiveMetric [] = [] := by
    decide +kernel
  rw [none] at kept
  cases kept

end TelemtPanel.Store
