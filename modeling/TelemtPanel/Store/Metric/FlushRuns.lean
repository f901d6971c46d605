import TelemtPanel.Store.Metric.Flush

/-!
# Runs of recording and flushing

Each call of `RecordMetrics` puts samples into the batches of their series, and each
flush tries to add all batches to the rows.  A transaction that was stored without
an answer leaves the batches as they are, and so does one that failed.

In every run a row holds each timestamp at most once.  When no sample comes before
one that was flushed already and no batch overflows, the rows do not depend on where
the run is split into flushes.
-/

namespace TelemtPanel.Store

open TelemtPanel.Library

def persistentMetricHistory (name : String) : Bool :=
  if name ∈ ["health", "telemt.available", "telemt.unavailable", "mode.route", "dc.coverage_pct",
    "upstream.healthy_total", "upstream.unhealthy_total"] then false
  else !"upstream.".toList.isPrefixOf name.toList ||
    !".healthy".toList.isSuffixOf name.toList && !".unhealthy".toList.isSuffixOf name.toList

def metricCategory (name : String) : StorageCategory :=
  if name ∈ ["connections", "active_users", "health", "telemt.available", "telemt.unavailable"] then
    .technical
  else if name ∈ ["traffic", "rx_bytes", "tx_bytes"] then .traffic
  else if name ∈ ["refusals", "attempts"] then .connectionIssues
  else if "user.".toList.isPrefixOf name.toList && ".traffic".toList.isSuffixOf name.toList then
    .userTraffic
  else if "dc.".toList.isPrefixOf name.toList || "mode.".toList.isPrefixOf name.toList ||
      "upstream.".toList.isPrefixOf name.toList then .technical
  else .diagnostics

/-- The metric part of an open history store. -/
structure MetricStore where
  liveMetrics : Table String (List MetricPoint)
  pendingMetrics : Table String (List MetricPoint)
  metricPoints : MetricRows

/-- A new store. -/
def MetricStore.new : MetricStore := ⟨∅, ∅, fun _ => none⟩

/-- How a transaction ends: it is stored, it fails, or it is stored and reported as failed. -/
inductive TxOutcome where
  | stored
  | failed
  | unreported
deriving DecidableEq, Repr

variable (policies : PolicyMap)

/-- Whether the policy of a series lets its history be kept. -/
def metricEnabled (name : String) : Bool := (policies.get (metricCategory name)).enabled

/-- One sample of `RecordMetrics`. -/
def recordMetric (s : MetricStore) (named : String × MetricPoint) : MetricStore :=
  if named.1 = "" || !named.2.value.isFinite then s
  else
    { s with
      liveMetrics := s.liveMetrics.alter named.1 fun points =>
        some (appendLiveMetric (points.getD []) named.2)
      pendingMetrics :=
        if persistentMetricHistory named.1 && metricEnabled policies named.1 then
          s.pendingMetrics.alter named.1 fun points =>
            some (appendLiveMetric (points.getD []) named.2)
        else s.pendingMetrics }

def recordMetrics (s : MetricStore) (batch : List (String × MetricPoint)) : MetricStore :=
  batch.foldl (recordMetric policies) s

/-- The transaction of `flushMetrics` for the batches of some series. -/
def flushTx (tx : MetricTx) (batches : List (String × List MetricPoint)) : MetricTx :=
  batches.foldl (fun tx series =>
    if metricEnabled policies series.1 then flushSeries tx series.1 series.2 else tx) tx

/-- A store, and what transactions have added to its rows. -/
structure MetricRun where
  store : MetricStore
  log : List SeriesFlush

/-- `flushMetrics`. -/
def flushMetrics (run : MetricRun) (outcome : TxOutcome) : MetricRun :=
  let tx := flushTx policies ⟨run.store.metricPoints, run.log⟩ run.store.pendingMetrics.toList
  match outcome with
  | .stored => ⟨{ run.store with metricPoints := tx.rows, pendingMetrics := ∅ }, tx.log⟩
  | .failed => run
  | .unreported => ⟨{ run.store with metricPoints := tx.rows }, tx.log⟩

inductive MetricCall where
  | record (batch : List (String × MetricPoint))
  | flush (outcome : TxOutcome)

def MetricRun.step (run : MetricRun) : MetricCall → MetricRun
  | .record batch => { run with store := recordMetrics policies run.store batch }
  | .flush outcome => flushMetrics policies run outcome

/-- The run of some calls on a new store. -/
def runMetrics (calls : List MetricCall) : MetricRun :=
  calls.foldl (MetricRun.step policies) ⟨.new, []⟩

/-- The batch of a series. -/
def MetricStore.pending (s : MetricStore) (name : String) : List MetricPoint :=
  (s.pendingMetrics[name]?).getD []

/-- A sample that is put into the batch of its series. -/
def queues (named : String × MetricPoint) : Bool :=
  !(named.1 = "" || !named.2.value.isFinite) && persistentMetricHistory named.1 &&
    metricEnabled policies named.1

variable {policies}

section Pending

variable {s : MetricStore} {named : String × MetricPoint} {name : String}
  {points : List MetricPoint} {point : MetricPoint}

theorem pending_recordMetric (s : MetricStore) (named : String × MetricPoint) (name : String) :
    (recordMetric policies s named).pending name =
      if queues policies named = true ∧ named.1 = name then
        appendLiveMetric (s.pending name) named.2
      else s.pending name := by
  unfold recordMetric queues MetricStore.pending
  cases skipped : decide (named.1 = "") || !named.2.value.isFinite with
  | true => simp
  | false =>
      cases kept : persistentMetricHistory named.1 && metricEnabled policies named.1 with
      | false =>
          simp only [Bool.false_eq_true, if_false, Bool.not_false, Bool.true_and, kept, false_and]
      | true =>
          simp only [Bool.false_eq_true, if_false, Bool.not_false, Bool.true_and, kept, true_and,
            if_true, Table.lookup_alter]
          split
          · rename_i same
            rw [same, Option.getD_some]
          · rfl

/-- A batch stays in the order of its timestamps. -/
theorem Increasing.appendLiveMetric (ordered : Increasing points) (point : MetricPoint) :
    Increasing (appendLiveMetric points point) := by
  unfold Store.appendLiveMetric
  split
  · exact ordered
  · dsimp only
    split
    · exact ordered
    · exact (pairwise_place ordered).sublist (List.drop_sublist _ _)

end Pending

section Transactions

variable {tx : MetricTx} {name : String} {batches : List (String × List MetricPoint)}
  {points : List MetricPoint}

/-- The rows of a series stay the summaries of what was added to them. -/
theorem MetricTx.Counts.flushTx (counts : tx.Counts name)
    (ordered : ∀ batch ∈ batches, Increasing batch.2) :
    (flushTx policies tx batches).Counts name := by
  unfold Store.flushTx
  induction batches generalizing tx with
  | nil => exact counts
  | cons batch batches ih =>
      rcases List.forall_mem_cons.mp ordered with ⟨first, others⟩
      rw [List.foldl_cons]
      split
      · exact ih (counts.flushSeries first) others
      · exact ih counts others

/-- What a transaction adds to a series that has no batch. -/
theorem counted_flushTx_none
    (absent : ∀ batch ∈ batches, batch.1 = name → metricEnabled policies batch.1 = false) :
    countedFive (flushTx policies tx batches).log name = countedFive tx.log name ∧
      countedHours (flushTx policies tx batches).log name = countedHours tx.log name := by
  unfold flushTx
  induction batches generalizing tx with
  | nil => exact ⟨rfl, rfl⟩
  | cons batch batches ih =>
      rcases List.forall_mem_cons.mp absent with ⟨first, absent⟩
      rw [List.foldl_cons]
      split
      · rename_i enabled
        have other : name ≠ batch.1 := by
          rintro rfl
          rw [first rfl] at enabled
          cases enabled
        rcases countedOther_flushSeries tx other batch.2 with ⟨five, hours⟩
        rw [← five, ← hours]
        exact ih absent
      · exact ih absent

/-- What a transaction adds to a series with a batch. -/
theorem counted_flushTx_some (counts : tx.Counts name) (enabled : metricEnabled policies name = true)
    (distinct : (batches.map (·.1)).Nodup) (mem : (name, points) ∈ batches)
    (ordered : Increasing points) :
    countedFive (flushTx policies tx batches).log name =
        countedFive tx.log name ++ newSamples 300 (countedFive tx.log name) points ∧
      countedHours (flushTx policies tx batches).log name = countedHours tx.log name ++
        newSamples 3600 (countedHours tx.log name)
          (newSamples 300 (countedFive tx.log name) points) := by
  induction batches generalizing tx with
  | nil => cases mem
  | cons batch batches ih =>
      rw [List.map_cons, List.nodup_cons] at distinct
      rcases List.mem_cons.mp mem with rfl | mem
      · have absent : ∀ batch ∈ batches, batch.1 = name → metricEnabled policies batch.1 = false := by
          intro batch isBatch same
          exact absurd (List.mem_map.mpr ⟨batch, isBatch, same⟩) distinct.1
        have rest := @counted_flushTx_none policies (flushSeries tx name points) name batches absent
        rw [(counts.flushed ordered).1, (counts.flushed ordered).2] at rest
        unfold flushTx at rest ⊢
        rw [List.foldl_cons, if_pos enabled]
        exact rest
      · have other : batch.1 ≠ name := by
          rintro rfl
          exact distinct.1 (List.mem_map.mpr ⟨_, mem, rfl⟩)
        unfold flushTx at ih ⊢
        rw [List.foldl_cons]
        split
        · rcases counts.flushOther (Ne.symm other) with ⟨same, five, hours⟩
          rw [← five, ← hours]
          exact ih same distinct.2 mem
        · exact ih counts distinct.2 mem

end Transactions

section Runs

variable {run : MetricRun} {name : String} {calls : List MetricCall}

/-- What holds in every state of a run. -/
structure MetricRun.Sound (policies : PolicyMap) (run : MetricRun) : Prop where
  counts : ∀ name, MetricTx.Counts ⟨run.store.metricPoints, run.log⟩ name
  ordered : ∀ name, Increasing (run.store.pending name)
  quiet : ∀ name, metricEnabled policies name = false → run.store.pending name = []

theorem MetricRun.Sound.new : MetricRun.Sound policies ⟨.new, []⟩ := by
  refine ⟨?_, ?_, fun _ _ => rfl⟩
  · intro name
    exact ⟨⟨fun _ => rfl, fun _ => .nil⟩, ⟨fun _ => rfl, fun _ => .nil⟩⟩
  · intro name
    exact .nil

theorem MetricRun.Sound.recordMetric (sound : run.Sound policies) (named : String × MetricPoint) :
    MetricRun.Sound policies { run with store := recordMetric policies run.store named } := by
  have rows : (Store.recordMetric policies run.store named).metricPoints =
      run.store.metricPoints := by
    unfold Store.recordMetric
    split <;> rfl
  refine ⟨?_, ?_, ?_⟩
  · intro name
    rw [rows]
    exact sound.counts name
  · intro name
    rw [pending_recordMetric]
    split
    · exact (sound.ordered name).appendLiveMetric _
    · exact sound.ordered name
  · intro name disabled
    rw [pending_recordMetric]
    split
    · rename_i queued
      have enabled := queued.1
      rw [queues, queued.2, disabled, Bool.and_false] at enabled
      cases enabled
    · exact sound.quiet name disabled

theorem MetricRun.Sound.mem_batches (sound : run.Sound policies) :
    ∀ batch ∈ run.store.pendingMetrics.toList, batch.2 = run.store.pending batch.1 ∧
      Increasing batch.2 := by
  intro batch mem
  have same : batch.2 = run.store.pending batch.1 := by
    unfold MetricStore.pending
    rw [(Table.mem_toList _ _ _).mp mem, Option.getD_some]
  exact ⟨same, same ▸ sound.ordered batch.1⟩

/-- What a stored transaction adds to a series. -/
theorem MetricRun.Sound.counted_flush (sound : run.Sound policies) (name : String) :
    countedFive (flushTx policies ⟨run.store.metricPoints, run.log⟩
        run.store.pendingMetrics.toList).log name = countedFive run.log name ++
          newSamples 300 (countedFive run.log name) (run.store.pending name) ∧
      countedHours (flushTx policies ⟨run.store.metricPoints, run.log⟩
        run.store.pendingMetrics.toList).log name = countedHours run.log name ++
          newSamples 3600 (countedHours run.log name)
            (newSamples 300 (countedFive run.log name) (run.store.pending name)) := by
  have nothing (none : run.store.pending name = [])
      (absent : ∀ batch ∈ run.store.pendingMetrics.toList, batch.1 = name →
        metricEnabled policies batch.1 = false) :
      countedFive (flushTx policies ⟨run.store.metricPoints, run.log⟩
          run.store.pendingMetrics.toList).log name = countedFive run.log name ++
            newSamples 300 (countedFive run.log name) (run.store.pending name) ∧
        countedHours (flushTx policies ⟨run.store.metricPoints, run.log⟩
          run.store.pendingMetrics.toList).log name = countedHours run.log name ++
            newSamples 3600 (countedHours run.log name)
              (newSamples 300 (countedFive run.log name) (run.store.pending name)) := by
    have unchanged := @counted_flushTx_none policies ⟨run.store.metricPoints, run.log⟩ name _ absent
    rw [none]
    simpa [newSamples] using unchanged
  cases enabled : metricEnabled policies name with
  | false =>
      refine nothing (sound.quiet name enabled) ?_
      rintro batch - rfl
      exact enabled
  | true =>
      cases known : run.store.pendingMetrics[name]? with
      | none =>
          refine nothing ?_ ?_
          · unfold MetricStore.pending
            rw [known]
            rfl
          · rintro batch mem rfl
            rw [(Table.mem_toList _ _ _).mp mem] at known
            cases known
      | some points =>
          have same : run.store.pending name = points := by
            unfold MetricStore.pending
            rw [known, Option.getD_some]
          rw [same]
          exact counted_flushTx_some (sound.counts name) enabled (Table.nodup_keys _)
            ((Table.mem_toList _ _ _).mpr known) (same ▸ sound.ordered name)

theorem MetricRun.Sound.step (sound : run.Sound policies) (call : MetricCall) :
    (run.step policies call).Sound policies := by
  have counts (name : String) : MetricTx.Counts (flushTx policies
      ⟨run.store.metricPoints, run.log⟩ run.store.pendingMetrics.toList) name :=
    (sound.counts name).flushTx fun batch mem => (sound.mem_batches batch mem).2
  cases call with
  | record batch =>
      unfold MetricRun.step recordMetrics
      dsimp only
      induction batch using List.reverseRecOn with
      | nil => exact sound
      | append_singleton batch named ih =>
          rw [List.foldl_append]
          exact ih.recordMetric named
  | flush outcome =>
      cases outcome with
      | stored => exact ⟨counts, fun _ => .nil, fun _ _ => rfl⟩
      | failed => exact sound
      | unreported => exact ⟨counts, sound.ordered, sound.quiet⟩

theorem sound_runMetrics (calls : List MetricCall) : (runMetrics policies calls).Sound policies := by
  unfold runMetrics
  induction calls using List.reverseRecOn with
  | nil => exact .new
  | append_singleton calls call ih =>
      rw [List.foldl_append]
      exact ih.step call

end Runs

/-! ## Splitting a run into flushes -/

/-- The samples of a series that are put into its batch, in the order of the calls. -/
def recordedSamples (policies : PolicyMap) (name : String) (calls : List MetricCall) :
    List MetricPoint :=
  calls.flatMap fun
    | .record batch =>
        (batch.filter fun named => queues policies named && named.1 = name).map (·.2)
    | .flush _ => []

/-- All samples in the order of their timestamps, with the last value of each. -/
def settled (recorded : List MetricPoint) : List MetricPoint :=
  recorded.foldl (fun kept point => place MetricPoint.ts kept (.sample point.ts point.value)) []

/-- A batch keeps all of its samples when one is appended: they lie within two hours and are not
too many, and the start of the window does not overflow. -/
structure Fits (points : List MetricPoint) (point : MetricPoint) : Prop where
  few : (place MetricPoint.ts points (.sample point.ts point.value)).length ≤ metricCap
  span : ∀ early ∈ place MetricPoint.ts points (.sample point.ts point.value),
    ∀ late ∈ place MetricPoint.ts points (.sample point.ts point.value),
      late.ts - liveMetricRetentionSecs ≤ early.ts
  upper : ∀ other ∈ place MetricPoint.ts points (.sample point.ts point.value),
    other.ts ≤ maxInt64
  lower : ∃ other ∈ place MetricPoint.ts points (.sample point.ts point.value),
    minInt64 + liveMetricRetentionSecs ≤ other.ts

theorem fits_iff (points : List MetricPoint) (point : MetricPoint) : Fits points point ↔
    (place MetricPoint.ts points (.sample point.ts point.value)).length ≤ metricCap ∧
      (∀ early ∈ place MetricPoint.ts points (.sample point.ts point.value),
        ∀ late ∈ place MetricPoint.ts points (.sample point.ts point.value),
          late.ts - liveMetricRetentionSecs ≤ early.ts) ∧
      (∀ other ∈ place MetricPoint.ts points (.sample point.ts point.value),
        other.ts ≤ maxInt64) ∧
      ∃ other ∈ place MetricPoint.ts points (.sample point.ts point.value),
        minInt64 + liveMetricRetentionSecs ≤ other.ts :=
  ⟨fun fits => ⟨fits.few, fits.span, fits.upper, fits.lower⟩,
    fun ⟨few, span, upper, lower⟩ => ⟨few, span, upper, lower⟩⟩

instance decidableFits (points : List MetricPoint) (point : MetricPoint) :
    Decidable (Fits points point) :=
  decidable_of_iff _ (fits_iff points point).symm

/-- Every sample of a series is newer than those which were flushed before it. -/
def NewerThanFlushed (policies : PolicyMap) (name : String) (calls : List MetricCall) : Prop :=
  ∀ before batch after, calls = before ++ .record batch :: after →
    ∀ point, (name, point) ∈ batch → queues policies (name, point) = true →
      laterThan (countedFive (runMetrics policies before).log name) point = true

/-- No sample of a series overflows its batch. -/
def BatchesFit (policies : PolicyMap) (name : String) (calls : List MetricCall) : Prop :=
  ∀ before front point back after,
    calls = before ++ .record (front ++ (name, point) :: back) :: after →
    queues policies (name, point) = true →
      Fits ((recordMetrics policies (runMetrics policies before).store front).pending name) point

section Splits

variable {points counted : List MetricPoint} {point : MetricPoint} {name : String}
  {run : MetricRun} {calls : List MetricCall}

theorem isFinite_of_queues (queued : queues policies (name, point) = true) :
    point.value.isFinite = true := by
  unfold queues at queued
  simp only [Bool.and_eq_true, Bool.not_eq_true', Bool.or_eq_false_iff] at queued
  simpa using queued.1.1.2

theorem Increasing.le_last (ordered : Increasing points) {last other : MetricPoint}
    (isLast : points.getLast? = some last) (mem : other ∈ points) : other.ts ≤ last.ts := by
  rcases List.eq_nil_or_concat' points with rfl | ⟨front, final, rfl⟩
  · cases mem
  · rw [List.getLast?_concat, Option.some.injEq] at isLast
    subst isLast
    rcases List.mem_append.mp mem with mem | mem
    · exact ((List.pairwise_append.mp ordered).2.2 other mem final (by simp)).le
    · rw [List.mem_singleton.mp mem]

/-- A sample that fits is placed, and nothing is dropped. -/
theorem Fits.appendLiveMetric (fits : Fits points point) (ordered : Increasing points)
    (finite : point.value.isFinite = true) :
    appendLiveMetric points point = place MetricPoint.ts points (.sample point.ts point.value) := by
  have own : MetricPoint.sample point.ts point.value ∈
      place MetricPoint.ts points (.sample point.ts point.value) :=
    (mem_place ordered).mpr (.inl rfl)
  have greatest : ∃ late ∈ place MetricPoint.ts points (.sample point.ts point.value),
      (points.getLast?).elim point.ts (fun last => max point.ts last.ts) = late.ts ∧
        ∀ other ∈ place MetricPoint.ts points (.sample point.ts point.value),
          other.ts ≤ late.ts := by
    cases isLast : points.getLast? with
    | none =>
        rw [List.getLast?_eq_none_iff] at isLast
        refine ⟨_, own, rfl, ?_⟩
        intro other mem
        rcases (mem_place ordered).mp mem with rfl | ⟨mem, -⟩
        · exact le_refl _
        · rw [isLast] at mem
          cases mem
    | some last =>
        rcases le_or_gt last.ts point.ts with le | less
        · refine ⟨_, own, max_eq_left le, ?_⟩
          intro other mem
          rcases (mem_place ordered).mp mem with rfl | ⟨mem, -⟩
          · exact le_refl _
          · exact (ordered.le_last isLast mem).trans le
        · refine ⟨last, (mem_place ordered).mpr (.inr ⟨List.mem_of_getLast? isLast, less.ne'⟩),
            max_eq_right less.le, ?_⟩
          intro other mem
          rcases (mem_place ordered).mp mem with rfl | ⟨mem, -⟩
          · exact less.le
          · exact ordered.le_last isLast mem
  rcases greatest with ⟨late, isLate, same, atMost⟩
  have cutoff : wrapInt64 (late.ts - liveMetricRetentionSecs) =
      late.ts - liveMetricRetentionSecs := by
    rcases fits.lower with ⟨other, isOther, lower⟩
    have above := atMost other isOther
    have upper := fits.upper late isLate
    apply wrapInt64_of_range
    · omega
    · simp only [liveMetricRetentionSecs]
      omega
  have placedOrdered : Increasing (place MetricPoint.ts points (.sample point.ts point.value)) :=
    pairwise_place ordered
  have onTime : ¬point.ts < late.ts - liveMetricRetentionSecs :=
    not_lt.mpr (fits.span _ own late isLate)
  rw [appendLiveMetric_of_finite finite same rfl, cutoff, if_neg onTime, Nat.sub_eq_zero_of_le fits.few,
    max_eq_left (Nat.zero_le _), drop_placeOf placedOrdered, List.filter_eq_self]
  intro other mem
  exact decide_eq_true (fits.span other mem late isLate)

/-- Placing an item behind all items of a front. -/
theorem place_append_of_lt {front rest : List MetricPoint} {item : MetricPoint}
    (later : laterThan front item = true) :
    place MetricPoint.ts (front ++ rest) item = front ++ place MetricPoint.ts rest item := by
  induction front with
  | nil => rfl
  | cons first front ih =>
      rw [laterThan, List.all_cons, Bool.and_eq_true] at later
      rw [List.cons_append, place_cons_of_lt (of_decide_eq_true later.1), ih later.2,
        List.cons_append]

/-- Placing an item that is selected, before or after the selection. -/
theorem filter_place (ordered : Increasing points) (keep : MetricPoint → Bool) {item : MetricPoint}
    (kept : keep item = true) :
    (place MetricPoint.ts points item).filter keep =
      place MetricPoint.ts (points.filter keep) item := by
  have filtered : Increasing (points.filter keep) := ordered.filter _
  apply @Sorter.eq_of_pairwise_lt _ _ _ MetricPoint.ts
  · exact (pairwise_place ordered).filter _
  · exact pairwise_place filtered
  · intro other
    rw [List.mem_filter, mem_place ordered, mem_place filtered, List.mem_filter]
    constructor
    · rintro ⟨rfl | ⟨mem, apart⟩, isKept⟩
      · exact .inl rfl
      · exact .inr ⟨⟨mem, isKept⟩, apart⟩
    · rintro (rfl | ⟨⟨mem, isKept⟩, apart⟩)
      · exact ⟨.inl rfl, kept⟩
      · exact ⟨.inr ⟨mem, apart⟩, isKept⟩

/-- How the recorded samples of a series are divided among its rows and its batch. -/
structure Divides (recorded counted hours points : List MetricPoint) : Prop where
  hours : hours = counted
  ordered : Increasing counted
  settled : settled recorded = counted ++ points.filter (laterThan counted)
  known : ∀ point ∈ points, laterThan counted point = true ∨ ∃ other ∈ counted, other.ts = point.ts

theorem Divides.new : Divides [] [] [] [] := ⟨rfl, .nil, rfl, fun _ mem => nomatch mem⟩

/-- Recording a sample that is newer than all flushed ones and fits. -/
theorem Divides.record {recorded hours : List MetricPoint}
    (divides : Divides recorded counted hours points) (ordered : Increasing points)
    (newer : laterThan counted point = true) :
    Divides (recorded ++ [point]) counted hours
      (place MetricPoint.ts points (.sample point.ts point.value)) := by
  have later : laterThan counted (.sample point.ts point.value) = true := newer
  refine ⟨divides.hours, divides.ordered, ?_, ?_⟩
  · have step : Store.settled (recorded ++ [point]) =
        place MetricPoint.ts (Store.settled recorded) (.sample point.ts point.value) := by
      unfold Store.settled
      rw [List.foldl_append]
      rfl
    rw [step, divides.settled, place_append_of_lt later, filter_place ordered _ later]
  · intro other mem
    rcases (mem_place ordered).mp mem with rfl | ⟨mem, -⟩
    · exact .inl later
    · exact divides.known other mem

/-- What the rows accept are the samples newer than all flushed ones. -/
theorem Divides.newSamples_eq {recorded hours : List MetricPoint} {width : ℤ}
    (divides : Divides recorded counted hours points) :
    newSamples width counted points = points.filter (laterThan counted) := by
  refine List.filter_congr fun point mem => ?_
  rw [Bool.eq_iff_iff]
  unfold laterThan inBucket
  constructor
  · intro later
    rcases divides.known point mem with isLater | ⟨other, isOther, same⟩
    · exact isLater
    · have inOwn : other ∈ counted.filter fun sample =>
          decide (metricBucket sample.ts width = metricBucket point.ts width) :=
        List.mem_filter.mpr ⟨isOther, decide_eq_true (by rw [same])⟩
      have less := of_decide_eq_true (List.all_eq_true.mp later other inOwn)
      omega
  · intro later
    refine List.all_eq_true.mpr fun other isOther => ?_
    exact List.all_eq_true.mp later other (List.mem_filter.mp isOther).1

/-- After a stored transaction the rows hold the samples newer than those before. -/
theorem Divides.flush {recorded hours : List MetricPoint}
    (divides : Divides recorded counted hours points) (ordered : Increasing points) :
    hours ++ newSamples 3600 hours (newSamples 300 counted points) =
        counted ++ points.filter (laterThan counted) ∧
      Increasing (counted ++ points.filter (laterThan counted)) ∧
      (∀ point ∈ points, laterThan (counted ++ points.filter (laterThan counted)) point = false ∧
        ∃ other ∈ counted ++ points.filter (laterThan counted), other.ts = point.ts) := by
  have everyLater : ∀ point ∈ points.filter (laterThan counted), laterThan counted point = true :=
    fun point mem => (List.mem_filter.mp mem).2
  refine ⟨?_, ?_, ?_⟩
  · rw [divides.hours, divides.newSamples_eq]
    congr 1
    refine List.filter_eq_self.mpr fun point mem => ?_
    refine List.all_eq_true.mpr fun other isOther => ?_
    exact List.all_eq_true.mp (everyLater point mem) other (List.mem_filter.mp isOther).1
  · refine List.pairwise_append.mpr ⟨divides.ordered, ordered.filter _, ?_⟩
    intro other isOther point isPoint
    exact of_decide_eq_true (List.all_eq_true.mp (everyLater point isPoint) other isOther)
  · intro point mem
    have there : ∃ other ∈ counted ++ points.filter (laterThan counted), other.ts = point.ts := by
      cases later : laterThan counted point with
      | true => exact ⟨point, List.mem_append.mpr (.inr (List.mem_filter.mpr ⟨mem, later⟩)), rfl⟩
      | false =>
          rcases divides.known point mem with isLater | ⟨other, isOther, same⟩
          · rw [later] at isLater
            cases isLater
          · exact ⟨other, List.mem_append.mpr (.inl isOther), same⟩
    refine ⟨?_, there⟩
    rcases there with ⟨other, isOther, same⟩
    by_contra isLater
    have less := of_decide_eq_true
      (List.all_eq_true.mp (Bool.not_eq_false _ ▸ isLater) other isOther)
    omega

/-- A stored transaction keeps the division, whether the batch is cleared or kept. -/
theorem Divides.stored {recorded hours kept : List MetricPoint}
    (divides : Divides recorded counted hours points) (ordered : Increasing points)
    (part : ∀ point ∈ kept, point ∈ points) :
    Divides recorded (counted ++ newSamples 300 counted points)
      (hours ++ newSamples 3600 hours (newSamples 300 counted points)) kept := by
  rcases divides.flush ordered with ⟨same, increasing, old⟩
  rw [same, divides.newSamples_eq]
  refine ⟨rfl, increasing, ?_, fun point mem => .inr (old point (part point mem)).2⟩
  have none : kept.filter (laterThan (counted ++ points.filter (laterThan counted))) = [] := by
    refine List.filter_eq_nil_iff.mpr fun point mem => ?_
    rw [(old point (part point mem)).1]
    exact Bool.false_ne_true
  rw [none, List.append_nil]
  exact divides.settled

/-- The division of the samples of a series in a state of a run. -/
abbrev MetricRun.Divides (policies : PolicyMap) (run : MetricRun) (name : String)
    (calls : List MetricCall) : Prop :=
  Store.Divides (recordedSamples policies name calls) (countedFive run.log name)
    (countedHours run.log name) (run.store.pending name)

theorem recordedSamples_append (before after : List MetricCall) :
    recordedSamples policies name (before ++ after) =
      recordedSamples policies name before ++ recordedSamples policies name after :=
  List.flatMap_append

/-- A batch of samples that are newer than all flushed ones and fit. -/
theorem MetricRun.Divides.record {recorded : List MetricPoint} {batch : List (String × MetricPoint)}
    (sound : run.Sound policies)
    (divides : Store.Divides recorded (countedFive run.log name) (countedHours run.log name)
      (run.store.pending name))
    (newer : ∀ point, (name, point) ∈ batch → queues policies (name, point) = true →
      laterThan (countedFive run.log name) point = true)
    (fits : ∀ front point back, batch = front ++ (name, point) :: back →
      queues policies (name, point) = true →
        Fits ((recordMetrics policies run.store front).pending name) point) :
    MetricRun.Sound policies { run with store := recordMetrics policies run.store batch } ∧
      Store.Divides (recorded ++
          (batch.filter fun named => queues policies named && named.1 = name).map (·.2))
        (countedFive run.log name) (countedHours run.log name)
        ((recordMetrics policies run.store batch).pending name) := by
  induction batch using List.reverseRecOn with
  | nil =>
      refine ⟨sound, ?_⟩
      rw [List.filter_nil, List.map_nil, List.append_nil]
      exact divides
  | append_singleton batch named ih =>
      rcases ih (fun point mem => newer point (List.mem_append.mpr (.inl mem)))
        (fun front point back same => fits front point (back ++ [named]) (by simp [same])) with
        ⟨soundBefore, before⟩
      have last : recordMetrics policies run.store (batch ++ [named]) =
          recordMetric policies (recordMetrics policies run.store batch) named := by
        unfold recordMetrics
        rw [List.foldl_append]
        rfl
      rw [last]
      refine ⟨soundBefore.recordMetric named, ?_⟩
      rw [pending_recordMetric, List.filter_append, List.map_append, ← List.append_assoc]
      by_cases own : queues policies named = true ∧ named.1 = name
      · rcases named with ⟨series, point⟩
        rcases own with ⟨queued, rfl⟩
        have inOrder := soundBefore.ordered series
        have fit := fits batch point [] rfl queued
        rw [if_pos ⟨queued, rfl⟩, fit.appendLiveMetric inOrder (isFinite_of_queues queued)]
        simp only [List.filter_cons, queued, decide_true, Bool.and_self, if_true, List.filter_nil,
          List.map_cons, List.map_nil]
        exact before.record inOrder (newer point (by simp) queued)
      · have skipped : (queues policies named && decide (named.1 = name)) = false := by
          rw [Bool.eq_false_iff]
          simpa using own
        rw [if_neg own]
        simp only [List.filter_cons, skipped, Bool.false_eq_true, if_false, List.filter_nil,
          List.map_nil, List.append_nil]
        exact before

/-- In a run of newer samples that fit, each is in the rows or waits in the batch. -/
theorem divides_runMetrics (newer : NewerThanFlushed policies name calls)
    (fits : BatchesFit policies name calls) :
    (runMetrics policies calls).Divides policies name calls := by
  induction calls using List.reverseRecOn with
  | nil => exact .new
  | append_singleton calls call ih =>
      have before := ih
        (fun first batch after same => newer first batch (after ++ [call]) (by simp [same]))
        (fun first front point back after same =>
          fits first front point back (after ++ [call]) (by simp [same]))
      have sound := @sound_runMetrics policies calls
      have last : runMetrics policies (calls ++ [call]) =
          (runMetrics policies calls).step policies call := by
        unfold runMetrics
        rw [List.foldl_append]
        rfl
      unfold MetricRun.Divides at before ⊢
      rw [last, recordedSamples_append]
      cases call with
      | record batch =>
          have single : recordedSamples policies name [.record batch] =
              (batch.filter fun named => queues policies named && named.1 = name).map (·.2) := by
            simp [recordedSamples]
          rw [single]
          exact (MetricRun.Divides.record sound before
            (fun point mem => newer calls batch [] rfl point mem)
            (fun front point back same => fits calls front point back [] (by rw [same]))).2
      | flush outcome =>
          have nothing : recordedSamples policies name [.flush outcome] = [] := rfl
          rw [nothing, List.append_nil]
          have counted := sound.counted_flush name
          cases outcome with
          | stored =>
              unfold MetricRun.step flushMetrics
              dsimp only
              rw [counted.1, counted.2]
              exact before.stored (sound.ordered name) fun point mem => nomatch mem
          | failed => exact before
          | unreported =>
              unfold MetricRun.step flushMetrics
              dsimp only
              rw [counted.1, counted.2]
              exact before.stored (sound.ordered name) fun point mem => mem

end Splits

/-- What a row has accepted, and that it is their summary, which is what the code computes when it
aggregates them at once. -/
structure CountsOnce (key : MetricKey) (row : Option MetricAggregate) (counted : List MetricPoint) :
    Prop where
  once : (counted.map (·.ts)).Nodup
  row : row = rowOf key counted
  aggregate : aggregateMetricSamples key.name counted = summary key.name counted

theorem CountedRows.countsOnce {name : String} {tier : MetricTier} {width : ℤ} {rows : MetricRows}
    {counted : List MetricPoint} (known : CountedRows name tier width rows counted) (bucket : ℤ) :
    CountsOnce ⟨name, tier, bucket⟩ (rows ⟨name, tier, bucket⟩) (inBucket width bucket counted) := by
  refine ⟨?_, known.rows bucket, aggregateMetricSamples_eq (known.ordered bucket)⟩
  refine List.pairwise_map.mpr ((known.ordered bucket).imp ?_)
  exact fun less => less.ne

/-- In every run each row is the aggregate of the samples that it has accepted, each timestamp once.
When every sample is newer than those flushed before and none overflows its batch, then after a
stored flush the rows are the aggregates of all samples of their buckets, wherever the run was
split, and each hour is what its rows of five minutes merge to. -/
theorem metric_rows_count_once (policies : PolicyMap) (name : String) (calls : List MetricCall) :
    (∀ bucket : ℤ,
      CountsOnce ⟨name, .metricTierFive, bucket⟩
          ((runMetrics policies calls).store.metricPoints ⟨name, .metricTierFive, bucket⟩)
          (inBucket 300 bucket (countedFive (runMetrics policies calls).log name)) ∧
        CountsOnce ⟨name, .metricTierHour, bucket⟩
          ((runMetrics policies calls).store.metricPoints ⟨name, .metricTierHour, bucket⟩)
          (inBucket 3600 bucket (countedHours (runMetrics policies calls).log name))) ∧
    (NewerThanFlushed policies name calls → BatchesFit policies name calls →
      ∀ run, run = runMetrics policies (calls ++ [.flush .stored]) → ∀ bucket : ℤ,
        CountsOnce ⟨name, .metricTierFive, bucket⟩
            (run.store.metricPoints ⟨name, .metricTierFive, bucket⟩)
            (inBucket 300 bucket (settled (recordedSamples policies name calls))) ∧
          CountsOnce ⟨name, .metricTierHour, bucket⟩
            (run.store.metricPoints ⟨name, .metricTierHour, bucket⟩)
            (inBucket 3600 bucket (settled (recordedSamples policies name calls))) ∧
          HourMerges name run.store.metricPoints bucket) := by
  refine ⟨?_, ?_⟩
  · intro bucket
    have counts := (@sound_runMetrics policies calls).counts name
    exact ⟨counts.five.countsOnce bucket, counts.hours.countsOnce bucket⟩
  · rintro newer fits run rfl bucket
    have sound := @sound_runMetrics policies calls
    have divides := divides_runMetrics newer fits
    have counts := (@sound_runMetrics policies (calls ++ [.flush .stored])).counts name
    have last : runMetrics policies (calls ++ [.flush .stored]) =
        flushMetrics policies (runMetrics policies calls) .stored := by
      unfold runMetrics
      rw [List.foldl_append]
      rfl
    have counted := sound.counted_flush name
    have stored := @Divides.stored _ _ _ _ [] divides (sound.ordered name)
      fun point mem => nomatch mem
    rw [← counted.1, ← counted.2] at stored
    have all : countedFive (runMetrics policies (calls ++ [.flush .stored])).log name =
        settled (recordedSamples policies name calls) := by
      rw [stored.settled, List.filter_nil, List.append_nil, last]
      rfl
    have hours : countedHours (runMetrics policies (calls ++ [.flush .stored])).log name =
        settled (recordedSamples policies name calls) := by
      rw [← all, last]
      exact stored.hours
    have five := counts.five
    have hour := counts.hours
    rw [all] at five
    rw [hours] at hour
    refine ⟨five.countsOnce bucket, hour.countsOnce bucket, ?_⟩
    refine hourMerges_of_counted ?_ five hour bucket
    rw [← all, last]
    exact stored.ordered

/-- Samples around a transaction that was stored without an answer. -/
def sampleMetricCalls : List MetricCall :=
  [.record [("traffic", .sample 290 (.finite 10)), ("traffic", .sample 280 (.finite 4))],
    .flush .unreported, .record [("traffic", .sample 305 (.finite 2))]]

theorem sampleMetricCalls_count_once : ∀ bucket : ℤ,
    HourMerges "traffic" (runMetrics (policyMap defaultStoragePolicies)
      (sampleMetricCalls ++ [.flush .stored])).store.metricPoints bucket := by
  intro bucket
  refine ((metric_rows_count_once (policyMap defaultStoragePolicies) "traffic"
    sampleMetricCalls).2 ?_ ?_ _ rfl bucket).2.2
  · intro before batch after same point mem _
    rcases before with _ | ⟨first, _ | ⟨second, _ | ⟨third, before⟩⟩⟩
    · rfl
    · simp [sampleMetricCalls] at same
    · simp only [sampleMetricCalls, List.cons_append, List.nil_append, List.cons.injEq,
        MetricCall.record.injEq] at same
      rcases same with ⟨rfl, rfl, rfl, -⟩
      simp only [List.mem_singleton, Prod.mk.injEq, true_and] at mem
      subst mem
      decide +kernel
    · simp [sampleMetricCalls] at same
  · intro before front point back after same _
    rcases before with _ | ⟨first, _ | ⟨second, _ | ⟨third, before⟩⟩⟩
    · simp only [sampleMetricCalls, List.nil_append, List.cons.injEq,
        MetricCall.record.injEq] at same
      rcases same with ⟨same, -⟩
      rcases front with _ | ⟨first, _ | ⟨second, front⟩⟩
      · simp only [List.nil_append, List.cons.injEq, Prod.mk.injEq, true_and] at same
        rcases same with ⟨rfl, -⟩
        decide +kernel
      · simp only [List.cons_append, List.nil_append, List.cons.injEq, Prod.mk.injEq, true_and]
          at same
        rcases same with ⟨rfl, rfl, -⟩
        decide +kernel
      · simp at same
    · simp [sampleMetricCalls] at same
    · simp only [sampleMetricCalls, List.cons_append, List.nil_append, List.cons.injEq,
        MetricCall.record.injEq] at same
      rcases same with ⟨rfl, rfl, same, -⟩
      rcases front with _ | ⟨first, front⟩
      · simp only [List.nil_append, List.cons.injEq, Prod.mk.injEq, true_and] at same
        rcases same with ⟨rfl, -⟩
        decide +kernel
      · simp at same
    · simp [sampleMetricCalls] at same

/-- The earlier sample leaves the batch before it is flushed. -/
theorem not_rows_of_all_samples : ¬∀ (policies : PolicyMap) (name : String)
    (calls : List MetricCall), NewerThanFlushed policies name calls → ∀ bucket : ℤ,
      (runMetrics policies (calls ++ [.flush .stored])).store.metricPoints
          ⟨name, .metricTierFive, bucket⟩ =
        rowOf ⟨name, .metricTierFive, bucket⟩
          (inBucket 300 bucket (settled (recordedSamples policies name calls))) := by
  intro all
  have first := all (policyMap defaultStoragePolicies) "connections"
    [.record [("connections", .sample 0 (.finite 1)), ("connections", .sample 7201 (.finite 2))]]
    (by
      intro before batch after same point mem _
      rcases before with _ | ⟨first, before⟩
      · rfl
      · simp at same) 0
  revert first
  decide +kernel

end TelemtPanel.Store
