import TelemtPanel.Library.Run
import TelemtPanel.Store.Traffic.SQLiteLedger
import TelemtPanel.Store.Traffic.WindowPlan

/-!
# Range reads of the durable traffic store

A read selects the buckets of the planned windows, of one user or of all users
together.  Retention passes delete old buckets in batches and users whose
tombstone has expired.

Beside the tables we keep, for every user, the accepted deltas.  A delta is stored
in one bucket of every tier, but the windows of a plan select exactly one of them
if they cover the time of the observation, and none otherwise.  No pass up to the
time of the read deletes a bucket that a window selects.
-/

namespace TelemtPanel.Store

open TelemtPanel.Library

/-- The traffic bucket a read returns. -/
structure UserTrafficPoint where
  ts : ℤ
  bytes : ℤ
  tier : MetricTier
deriving DecidableEq, Repr

inductive TrafficReadError where
  | plan (error : TrafficPlanError)
  | sumOverflow
  | aggregateExceedsInt64
deriving DecidableEq, Repr

def TrafficReadError.text : TrafficReadError → String
  | .plan error => error.text
  | .sumOverflow => "integer overflow"
  | .aggregateExceedsInt64 => "aggregate user traffic exceeds int64"

def userTrafficMetricTier : Fin 3 → MetricTier :=
  ![.metricTierQuarter, .metricTierHour, .metricTierDay]

/-- `SQLite.UserTrafficRetention` in seconds. -/
def userTrafficRetention (policy : StoragePolicy) : ℤ :=
  if policy.enabled = false then 0 else retentionSecs policy

/-- How long the buckets of a tier are kept. -/
def tierRetention (policy : StoragePolicy) : Fin 3 → ℤ :=
  ![min 86400 (retentionSecs policy), min (30 * 86400) (retentionSecs policy),
    retentionSecs policy]

/-- Tiers of a read transaction. -/
def trafficReadTiers (policy : StoragePolicy) : List TrafficTierPolicy :=
  let retention := userTrafficRetention policy
  if retention > 0 then
    [⟨.metricTierQuarter, 900, min 86400 retention⟩,
      ⟨.metricTierHour, 3600, min (30 * 86400) retention⟩,
      ⟨.metricTierDay, 86400, retention⟩]
  else []

/-- Tier number that a window selects in the table. -/
def TrafficWindow.sqlTier (window : TrafficWindow) : Fin 3 :=
  match window.tier with
  | .metricTierHour => ⟨1, by decide⟩
  | .metricTierDay => ⟨2, by decide⟩
  | _ => ⟨0, by decide⟩

/-- Tier number under which an imported bucket is stored. -/
def portableUserTrafficTier (tier : MetricTier) : Fin 3 :=
  if tier = .metricTierQuarter then ⟨0, by decide⟩
  else if tier = .metricTierHour then ⟨1, by decide⟩
  else ⟨2, by decide⟩

/-- The predicate of one window in `trafficSQLPredicate`. -/
def TrafficWindow.selects (window : TrafficWindow) (key : UserTrafficBucketKey) : Bool :=
  decide (key.tier = window.sqlTier) && decide (window.fromSecs ≤ key.ts) &&
    decide (key.ts < window.toSecs)

/-- The disjunction over all windows. -/
def trafficSQLPredicate (windows : List TrafficWindow) (key : UserTrafficBucketKey) : Bool :=
  windows.any (·.selects key)

/-- One query of `trafficAggregateSQL`: sums over all users, grouped by tier and start. -/
def trafficAggregateRows (buckets : UserTrafficBuckets) (window : TrafficWindow) :
    List UserTrafficPoint :=
  let rows := buckets.toList.filter fun row => window.selects row.1
  ((rows.map fun row => (row.1.tier, row.1.ts)).dedup).map fun group =>
    ⟨group.2, ((rows.filter fun row => (row.1.tier, row.1.ts) = group).map (·.2)).sum,
      userTrafficMetricTier group.1⟩

/-- Adds up the points of an aggregation within 64 bits. -/
def aggregateTotal (total : ℤ) : List UserTrafficPoint → Except TrafficReadError ℤ
  | [] => .ok total
  | point :: points =>
      if point.bytes > maxInt64 then .error .sumOverflow
      else if point.bytes > maxInt64 - total then .error .aggregateExceedsInt64
      else aggregateTotal (total + point.bytes) points

namespace SQLiteTraffic

/-- Plan of a read at a given time. -/
def planRead (policy : StoragePolicy) (asOf fromSecs toSecs : ℤ) :
    Except TrafficReadError (List TrafficWindow × TrafficCoverage) :=
  (planTrafficWindows fromSecs toSecs asOf (trafficReadTiers policy)).mapError .plan

/-- Buckets of a user in the windows, ordered by their start. -/
def rangePoints (db : SQLiteTraffic) (windows : List TrafficWindow) (username : String) :
    List UserTrafficPoint :=
  if db.users[username]? = none then []
  else (Sorter.stable UserTrafficPoint.ts).sort
    ((db.buckets.toList.filter fun row =>
        trafficSQLPredicate windows row.1 && decide (row.1.userID = username)).map
      fun row => ⟨row.1.ts, row.2, userTrafficMetricTier row.1.tier⟩)

/-- Sums of all users in the windows, ordered by their start. -/
def aggregatePoints (db : SQLiteTraffic) (windows : List TrafficWindow) :
    List UserTrafficPoint :=
  (Sorter.stable UserTrafficPoint.ts).sort (windows.flatMap (trafficAggregateRows db.buckets))

/-- `sqlTrafficReadSnapshot.Range` -/
def range (db : SQLiteTraffic) (policy : StoragePolicy) (asOf : ℤ) (username : String)
    (fromSecs toSecs : ℤ) : Except TrafficReadError (List UserTrafficPoint × TrafficCoverage) := do
  let (windows, coverage) ← planRead policy asOf fromSecs toSecs
  .ok (db.rangePoints windows username, coverage)

/-- `sqlTrafficReadSnapshot.Aggregate` -/
def aggregate (db : SQLiteTraffic) (policy : StoragePolicy) (asOf fromSecs toSecs : ℤ) :
    Except TrafficReadError (ℤ × List UserTrafficPoint × TrafficCoverage) := do
  let (windows, coverage) ← planRead policy asOf fromSecs toSecs
  let points := db.aggregatePoints windows
  let total ← aggregateTotal 0 points
  .ok (total, points, coverage)

/-- Whether a bucket has outlived its tier. -/
def staleUserTraffic (policy : StoragePolicy) (now : ℤ) (key : UserTrafficBucketKey) : Bool :=
  decide (key.ts < now - tierRetention policy key.tier)

/-- `SQLite.pruneUserTrafficBatch`: the number of deleted buckets and the tables.  `sorter` is
the order of the query among equally old buckets. -/
def pruneUserTrafficBatch (sorter : Sorter UserTrafficBucketKey.ts) (policy : StoragePolicy)
    (db : SQLiteTraffic) (now limit : ℤ) : ℕ × SQLiteTraffic :=
  if limit ≤ 0 then (0, db)
  else
    let keys := (sorter.sort (db.buckets.keys.filter (staleUserTraffic policy now))).take
      limit.toNat
    (keys.length, pruneTrafficSummariesTx
      { db with buckets := keys.foldl (·.erase ·) db.buckets } now (retentionSecs policy))

end SQLiteTraffic

section Windows

variable {windows : List TrafficWindow} {policy : StoragePolicy} {asOf : ℤ}

/-- The observation times that a window covers.  A window that ends within a bucket is open
and reaches to the time of the read. -/
def TrafficWindow.Covers (asOf : ℤ) (window : TrafficWindow) (time : ℤ) : Prop :=
  window.fromSecs ≤ time ∧ (time < window.toSecs ∨
    ¬trafficTierWidth window.sqlTier ∣ window.toSecs ∧ time ≤ asOf)

instance (window : TrafficWindow) (time : ℤ) : Decidable (window.Covers asOf time) :=
  inferInstanceAs (Decidable (_ ∧ _))

/-- The observation times that some window covers. -/
def CoveredBy (asOf : ℤ) (windows : List TrafficWindow) (time : ℤ) : Prop :=
  ∃ window ∈ windows, window.Covers asOf time

instance (time : ℤ) : Decidable (CoveredBy asOf windows time) :=
  inferInstanceAs (Decidable (∃ window ∈ windows, _))

/-- What the windows of a read are like. -/
structure ReadWindow (policy : StoragePolicy) (asOf : ℤ) (window : TrafficWindow) : Prop where
  aligned : trafficTierWidth window.sqlTier ∣ window.fromSecs
  cutoff_le : asOf - tierRetention policy window.sqlTier ≤ window.fromSecs
  lt : window.fromSecs < window.toSecs
  complete : trafficTierWidth window.sqlTier ∣ window.toSecs ∨ window.toSecs = asOf
  le_asOf : window.toSecs ≤ asOf

/-- Windows that lie one after the other. -/
structure ReadWindows (policy : StoragePolicy) (asOf : ℤ) (windows : List TrafficWindow) :
    Prop where
  window : ∀ window ∈ windows, ReadWindow policy asOf window
  ordered : windows.Pairwise fun earlier later => earlier.toSecs ≤ later.fromSecs

theorem trafficReadTiers_of_enabled (valid : policy.Valid) (enabled : policy.enabled = true) :
    trafficReadTiers policy =
      [⟨.metricTierQuarter, 900, tierRetention policy 0⟩,
        ⟨.metricTierHour, 3600, tierRetention policy 1⟩,
        ⟨.metricTierDay, 86400, tierRetention policy 2⟩] := by
  have positive := SQLiteTraffic.le_retentionSecs valid
  simp only [userTrafficMemoryRetentionSecs] at positive
  simp only [trafficReadTiers, userTrafficRetention, enabled, Bool.true_eq_false, ↓reduceIte]
  rw [if_pos (by omega)]
  rfl

/-- The tiers of a read pass the checks of the planner. -/
theorem exists_tiers (valid : policy.Valid) (enabled : policy.enabled = true) :
    ∃ tiers, TrafficTiers.ofList (trafficReadTiers policy) = some tiers ∧
      ∀ tier ∈ tiers.policies, ∃ number : Fin 3,
        tier = ⟨userTrafficMetricTier number, trafficTierWidth number,
          tierRetention policy number⟩ := by
  have positive := SQLiteTraffic.le_retentionSecs valid
  simp only [userTrafficMemoryRetentionSecs] at positive
  have sorted : (Sorter.stable TrafficTierPolicy.widthSecs).sort (trafficReadTiers policy) =
      trafficReadTiers policy := by
    rw [trafficReadTiers_of_enabled valid enabled]
    exact Sorter.stable_sort_of_pairwise (by simp)
  have checked : validTrafficTiers [] none (trafficReadTiers policy) = true := by
    rw [trafficReadTiers_of_enabled valid enabled]
    simp only [validTrafficTiers, tierRetention, Matrix.cons_val_zero, Matrix.cons_val_one,
      Matrix.cons_val]
    have nonneg : 0 ≤ retentionSecs policy := by omega
    simp [nonneg]
  refine ⟨⟨trafficReadTiers policy, checked⟩, ?_, ?_⟩
  · simp only [TrafficTiers.ofList, sorted]
    exact dif_pos checked
  · intro tier mem
    have mem : tier ∈ trafficReadTiers policy := mem
    rw [trafficReadTiers_of_enabled valid enabled] at mem
    simp only [List.mem_cons, List.not_mem_nil, or_false] at mem
    rcases mem with rfl | rfl | rfl
    · exact ⟨0, rfl⟩
    · exact ⟨1, rfl⟩
    · exact ⟨2, rfl⟩

theorem sqlTier_of_tier {window : TrafficWindow} {number : Fin 3}
    (tier : window.tier = userTrafficMetricTier number) : window.sqlTier = number := by
  simp only [TrafficWindow.sqlTier, tier]
  fin_cases number <;> rfl

/-- A range that is not reversed has a plan, and its windows are read windows. -/
theorem exists_planRead (valid : policy.Valid) (enabled : policy.enabled = true)
    (asOfLe : asOf ≤ maxInt64) {fromSecs toSecs : ℤ} (le : fromSecs ≤ toSecs) :
    ∃ windows coverage,
      SQLiteTraffic.planRead policy asOf fromSecs toSecs = .ok (windows, coverage) ∧
        ReadWindows policy asOf windows := by
  rcases exists_tiers valid enabled with ⟨tiers, isTiers, numbered⟩
  have planned : ∃ plan, planTrafficWindows fromSecs toSecs asOf (trafficReadTiers policy) =
      .ok plan := by
    simp only [planTrafficWindows, isTiers]
    rw [if_neg (by omega)]
    split
    · exact ⟨_, rfl⟩
    · exact ⟨_, rfl⟩
  rcases planned with ⟨⟨windows, coverage⟩, isPlan⟩
  have found := planTrafficWindows_planned asOfLe isTiers isPlan
  refine ⟨windows, coverage, by rw [SQLiteTraffic.planRead, isPlan]; rfl, ?_, ?_⟩
  · intro window mem
    have mem : window ∈ windows.reverse := List.mem_reverse.mpr mem
    have last := found.le_cursor window mem
    rcases found.planned window mem with ⟨tier, isPlanned⟩
    rcases numbered tier isPlanned.mem with ⟨number, rfl⟩
    have isNumber := sqlTier_of_tier isPlanned.tier
    refine ⟨?_, ?_, isPlanned.lt, ?_, last.trans (min_le_right _ _)⟩
    · rw [isNumber]
      exact isPlanned.aligned
    · rw [isNumber]
      exact isPlanned.cutoff_le
    · rw [isNumber]
      refine isPlanned.complete.imp_right ?_
      rintro ⟨ended, reaches⟩
      exact ended.trans (min_eq_right reaches)
  · exact List.pairwise_reverse.mp found.ordered

/-- A window selects the bucket of an observation exactly when it covers its time. -/
theorem ReadWindow.bucket_iff {window : TrafficWindow} (isWindow : ReadWindow policy asOf window)
    {time : ℤ} (nonneg : 0 ≤ time) (past : time ≤ asOf) :
    (window.fromSecs ≤ bucketStart time (trafficTierWidth window.sqlTier) ∧
        bucketStart time (trafficTierWidth window.sqlTier) < window.toSecs) ↔
      window.Covers asOf time := by
  have positive := trafficTierWidth_pos window.sqlTier
  have starts := dvd_bucketStart time (trafficTierWidth window.sqlTier)
  have lower := @bucketStart_le time (trafficTierWidth window.sqlTier) nonneg
  have upper := lt_bucketStart_add nonneg positive
  -- Two boundaries less than a width apart are the same.
  have snap : ∀ boundary, trafficTierWidth window.sqlTier ∣ boundary → boundary ≤ time →
      boundary ≤ bucketStart time (trafficTierWidth window.sqlTier) := by
    intro boundary aligned before
    have apart := Int.dvd_sub aligned starts
    by_contra later
    have := Int.le_of_dvd (by omega) apart
    omega
  refine and_congr ⟨fun le => le.trans lower, snap _ isWindow.aligned⟩ ?_
  rcases isWindow.complete with aligned | atEnd
  · simp only [aligned, not_true_eq_false, false_and, or_false]
    constructor
    · intro before
      by_contra later
      exact absurd (snap _ aligned (not_lt.mp later)) (not_le.mpr before)
    · intro before
      exact lower.trans_lt before
  · by_cases aligned : trafficTierWidth window.sqlTier ∣ window.toSecs
    · simp only [aligned, not_true_eq_false, false_and, or_false]
      constructor
      · intro before
        by_contra later
        exact absurd (snap _ aligned (not_lt.mp later)) (not_le.mpr before)
      · intro before
        exact lower.trans_lt before
    · simp only [aligned, not_false_eq_true, true_and, past, or_true, iff_true]
      refine lt_of_le_of_ne (atEnd ▸ lower.trans past) ?_
      intro same
      exact aligned (same ▸ starts)

theorem selects_iff {window : TrafficWindow} (isWindow : ReadWindow policy asOf window)
    {time : ℤ} (nonneg : 0 ≤ time) (past : time ≤ asOf) (username : String) (tier : Fin 3) :
    window.selects ⟨username, tier, bucketStart time (trafficTierWidth tier)⟩ = true ↔
      tier = window.sqlTier ∧ window.Covers asOf time := by
  simp only [TrafficWindow.selects, Bool.and_eq_true, decide_eq_true_eq, and_assoc]
  refine and_congr_right ?_
  rintro rfl
  exact isWindow.bucket_iff nonneg past

/-- No time is covered by two windows. -/
theorem ReadWindows.eq_of_covers (reads : ReadWindows policy asOf windows)
    {window other : TrafficWindow} (mem : window ∈ windows) (otherMem : other ∈ windows)
    {time : ℤ} (covers : window.Covers asOf time) (otherCovers : other.Covers asOf time) :
    window = other := by
  have apart : windows.Pairwise fun earlier later =>
      ¬(earlier.Covers asOf time ∧ later.Covers asOf time) := by
    refine reads.ordered.imp_of_mem ?_
    rintro earlier later earlierMem laterMem before ⟨first, second⟩
    have ends := reads.window earlier earlierMem
    have starts := reads.window later laterMem
    rcases first.2 with inside | ⟨openEnd, -⟩
    · have := second.1
      omega
    · have atEnd := ends.complete.resolve_left openEnd
      have := starts.lt
      have := starts.le_asOf
      omega
  have : Std.Symm fun left right : TrafficWindow =>
      ¬(left.Covers asOf time ∧ right.Covers asOf time) :=
    ⟨fun _ _ disjoint both => disjoint ⟨both.2, both.1⟩⟩
  by_contra differ
  exact apart.forall mem otherMem differ ⟨covers, otherCovers⟩

/-- Of the buckets that hold a delta, the windows select one if they cover its time, and none
otherwise. -/
theorem ReadWindows.sum_tiers (reads : ReadWindows policy asOf windows) {time : ℤ}
    (nonneg : 0 ≤ time) (past : time ≤ asOf) (username : String) (bytes : ℤ) :
    (∑ tier : Fin 3, if trafficSQLPredicate windows
        ⟨username, tier, bucketStart time (trafficTierWidth tier)⟩ = true then bytes else 0) =
      if CoveredBy asOf windows time then bytes else 0 := by
  have selected : ∀ tier : Fin 3, trafficSQLPredicate windows
      ⟨username, tier, bucketStart time (trafficTierWidth tier)⟩ = true ↔
        ∃ window ∈ windows, tier = window.sqlTier ∧ window.Covers asOf time := by
    intro tier
    simp only [trafficSQLPredicate, List.any_eq_true]
    refine exists_congr fun window => and_congr_right fun mem => ?_
    exact selects_iff (reads.window window mem) nonneg past username tier
  simp only [selected]
  split
  · rename_i covered
    rcases covered with ⟨window, mem, covers⟩
    have only : ∀ tier : Fin 3,
        (∃ other ∈ windows, tier = other.sqlTier ∧ other.Covers asOf time) ↔
          window.sqlTier = tier := by
      intro tier
      constructor
      · rintro ⟨other, otherMem, rfl, otherCovers⟩
        rw [reads.eq_of_covers mem otherMem covers otherCovers]
      · rintro rfl
        exact ⟨window, mem, rfl, covers⟩
    simp only [only, Finset.sum_ite_eq, Finset.mem_univ, ↓reduceIte]
  · rename_i uncovered
    apply Finset.sum_eq_zero
    intro tier _
    apply if_neg
    rintro ⟨window, mem, -, covers⟩
    exact uncovered ⟨window, mem, covers⟩

/-- The windows only select buckets that have not outlived their tier. -/
theorem ReadWindows.recent (reads : ReadWindows policy asOf windows) {key : UserTrafficBucketKey}
    (isSelected : trafficSQLPredicate windows key = true) :
    asOf - tierRetention policy key.tier ≤ key.ts := by
  simp only [trafficSQLPredicate, List.any_eq_true, TrafficWindow.selects, Bool.and_eq_true,
    decide_eq_true_eq] at isSelected
  rcases isSelected with ⟨window, mem, ⟨tier, after⟩, -⟩
  rw [tier]
  exact (reads.window window mem).cutoff_le.trans after

/-- No bucket is selected by two windows. -/
theorem ReadWindows.apart (reads : ReadWindows policy asOf windows) :
    windows.Pairwise fun left right =>
      ∀ key, ¬(left.selects key = true ∧ right.selects key = true) := by
  refine reads.ordered.imp ?_
  rintro left right before key ⟨first, second⟩
  simp only [TrafficWindow.selects, Bool.and_eq_true, decide_eq_true_eq] at first second
  omega

end Windows

section Points

variable {windows : List TrafficWindow} {db : SQLiteTraffic}

/-- Every bucket belongs to a user that has a row. -/
def SQLiteTraffic.Owned (db : SQLiteTraffic) : Prop :=
  ∀ username : String, db.users[username]? = none → ∀ tier ts,
    db.buckets[(⟨username, tier, ts⟩ : UserTrafficBucketKey)]? = none

/-- Bytes of a user in the windows. -/
def SQLiteTraffic.selectedBytes (db : SQLiteTraffic) (windows : List TrafficWindow)
    (username : String) : ℤ :=
  Table.sumOver db.buckets fun key =>
    trafficSQLPredicate windows key && decide (key.userID = username)

theorem SQLiteTraffic.selectedBytes_eq_zero {username : String} (noBuckets : ∀ tier ts,
    db.buckets[(⟨username, tier, ts⟩ : UserTrafficBucketKey)]? = none) :
    db.selectedBytes windows username = 0 := by
  have all := @Table.mem_keySet UserTrafficBucketKey ℤ _ _ _ _ db.buckets
  rw [selectedBytes, Table.sumOver_eq_sum all]
  apply Finset.sum_eq_zero
  rintro ⟨userID, tier, ts⟩ -
  simp only [Bool.and_eq_true, decide_eq_true_eq]
  split
  · rename_i isSelected
    rw [isSelected.2, noBuckets, Option.getD_none]
  · rfl

/-- The points of a range add up to the selected bytes. -/
theorem sum_rangePoints (owned : db.Owned) (windows : List TrafficWindow) (username : String) :
    ((db.rangePoints windows username).map (·.bytes)).sum = db.selectedBytes windows username := by
  simp only [SQLiteTraffic.rangePoints]
  split
  · rename_i absent
    rw [SQLiteTraffic.selectedBytes_eq_zero (owned username absent)]
    rfl
  · rw [(((Sorter.stable UserTrafficPoint.ts).perm _).map _).sum_eq, List.map_map]
    rfl

theorem sum_trafficAggregateRows (buckets : UserTrafficBuckets) (window : TrafficWindow) :
    ((trafficAggregateRows buckets window).map (·.bytes)).sum =
      Table.sumOver buckets window.selects := by
  have grouped := Table.sumOver_groups buckets window.selects
    (fun key => (key.tier, key.ts)) (List.nodup_dedup ((buckets.toList.filter fun row =>
      window.selects row.1).map fun row => (row.1.tier, row.1.ts))) ?_
  · rw [← grouped, trafficAggregateRows, List.map_map]
    apply congrArg List.sum
    apply List.map_congr_left
    intro group _
    simp only [Function.comp_apply, Table.sumOver, List.filter_filter]
    congr 3
    funext row
    rw [Bool.and_comm]
  · intro key bytes known isSelected
    rw [List.mem_dedup]
    refine List.mem_map.mpr ⟨(key, bytes), ?_, rfl⟩
    exact List.mem_filter.mpr ⟨(Table.mem_toList _ _ _).mpr known, isSelected⟩

/-- The points of an aggregation add up to the selected bytes of all users. -/
theorem sum_aggregatePoints (owned : db.Owned)
    (apart : windows.Pairwise fun left right =>
      ∀ key, ¬(left.selects key = true ∧ right.selects key = true)) :
    ((db.aggregatePoints windows).map (·.bytes)).sum =
      (db.users.keys.map (db.selectedBytes windows)).sum := by
  rw [SQLiteTraffic.aggregatePoints, (((Sorter.stable UserTrafficPoint.ts).perm _).map _).sum_eq,
    List.map_flatMap, List.flatMap_def, List.sum_flatten, List.map_map]
  simp only [Function.comp_def, sum_trafficAggregateRows]
  rw [Table.sumOver_any db.buckets TrafficWindow.selects apart]
  refine (Table.sumOver_groups db.buckets _ (·.userID) ?_ ?_).symm
  · exact Std.ExtTreeMap.nodup_keys
  · rintro ⟨userID, tier, ts⟩ bytes known -
    by_contra unknown
    have absent : db.users[userID]? = none := by
      simpa using unknown
    rw [owned userID absent] at known
    cases known

/-- An aggregation succeeds exactly when its total fits, and then returns it. -/
theorem aggregateTotal_eq_ok_iff {points : List UserTrafficPoint} {total result : ℤ}
    (nonneg : ∀ point ∈ points, 0 ≤ point.bytes) (lower : 0 ≤ total) (upper : total ≤ maxInt64) :
    aggregateTotal total points = .ok result ↔
      total + (points.map (·.bytes)).sum ≤ maxInt64 ∧
        result = total + (points.map (·.bytes)).sum := by
  induction points generalizing total with
  | nil => simp [aggregateTotal, upper, eq_comm]
  | cons point points ih =>
      rcases List.forall_mem_cons.mp nonneg with ⟨first, rest⟩
      have restNonneg : 0 ≤ (points.map (·.bytes)).sum := by
        apply List.sum_nonneg
        intro bytes mem
        rcases List.mem_map.mp mem with ⟨later, laterMem, rfl⟩
        exact rest later laterMem
      simp only [aggregateTotal, List.map_cons, List.sum_cons, ← add_assoc]
      split
      · simp only [reduceCtorEq, false_iff, not_and]
        omega
      split
      · simp only [reduceCtorEq, false_iff, not_and]
        omega
      · exact ih rest (by omega) (by omega)

end Points

section Steps

variable {policy : StoragePolicy} {db : SQLiteTraffic} {username : String}

/-- Deleting expired users takes a user away with all buckets or does not touch it. -/
theorem SQLiteTraffic.Owned.pruned_user (owned : db.Owned) (now retention : ℤ)
    (username : String) :
    ((pruneTrafficSummariesTx db now retention).users[username]? = none ∧ ∀ tier ts,
        (pruneTrafficSummariesTx db now retention).buckets[
          (⟨username, tier, ts⟩ : UserTrafficBucketKey)]? = none) ∨
      ((pruneTrafficSummariesTx db now retention).users[username]? = db.users[username]? ∧
        ∀ tier ts, (pruneTrafficSummariesTx db now retention).buckets[
            (⟨username, tier, ts⟩ : UserTrafficBucketKey)]? =
          db.buckets[(⟨username, tier, ts⟩ : UserTrafficBucketKey)]?) := by
  simp only [pruneTrafficSummariesTx, Table.lookup_filter]
  cases known : db.users[username]? with
  | none =>
      refine Or.inl ⟨rfl, fun tier ts => ?_⟩
      rw [owned username known tier ts]
      rfl
  | some row =>
      cases expired : expiredUserRow db.buckets now retention username row with
      | true =>
          refine Or.inl ⟨by simp [expired], fun tier ts => ?_⟩
          cases db.buckets[(⟨username, tier, ts⟩ : UserTrafficBucketKey)]? <;> simp [expired]
      | false =>
          refine Or.inr ⟨by simp [expired], fun tier ts => ?_⟩
          cases db.buckets[(⟨username, tier, ts⟩ : UserTrafficBucketKey)]? <;> simp [expired]

theorem SQLiteTraffic.Owned.pruned (owned : db.Owned) (now retention : ℤ) :
    (pruneTrafficSummariesTx db now retention).Owned := by
  intro username absent tier ts
  rcases owned.pruned_user now retention username with ⟨-, buckets⟩ | ⟨user, buckets⟩
  · exact buckets tier ts
  · rw [buckets]
    exact owned username (user ▸ absent) tier ts

/-- What an accepted snapshot makes of a user: the user is gone, new, or keeps its row and
gains some bytes, which reach one bucket of every tier. -/
inductive UserOutcome (db next : SQLiteTraffic) (observedAt : ℤ) (username : String) : Prop where
  | gone (user : next.users[username]? = none)
      (buckets : ∀ tier ts, next.buckets[(⟨username, tier, ts⟩ : UserTrafficBucketKey)]? = none)
  | fresh (row : UserTrafficRow) (user : next.users[username]? = some row)
      (since : row.sinceTS = observedAt)
      (buckets : ∀ tier ts, next.buckets[(⟨username, tier, ts⟩ : UserTrafficBucketKey)]? = none)
  | kept (prior row : UserTrafficRow) (gain : ℤ) (before : db.users[username]? = some prior)
      (user : next.users[username]? = some row) (since : row.sinceTS = prior.sinceTS)
      (nonneg : 0 ≤ gain) (total : row.totalBytes = prior.totalBytes + gain)
      (buckets : ∀ tier ts, next.buckets[(⟨username, tier, ts⟩ : UserTrafficBucketKey)]? =
        if ts = bucketStart observedAt (trafficTierWidth tier) then
          credit db.buckets[(⟨username, tier, ts⟩ : UserTrafficBucketKey)]? gain
        else db.buckets[(⟨username, tier, ts⟩ : UserTrafficBucketKey)]?)

/-- A listed user keeps the start of its row and gains the growth of its counter. -/
theorem UserTrafficRow.observe_some {pass : UserTrafficPass} {raw : ℤ} (nonneg : 0 ≤ raw)
    {prior row : UserTrafficRow} (observed : observe pass username raw (some prior) = some row) :
    row.sinceTS = prior.sinceTS ∧ row.totalBytes = prior.totalBytes +
      StoredUserTraffic.gain pass raw (some (StoredUserTraffic.ofRow username prior)) := by
  have accounts := @account_observe pass username raw nonneg (some prior)
  have gained := @gain_account pass username pass.monthKey raw (some prior)
  rw [observed] at accounts
  simp only [Option.map_some] at accounts gained
  rw [← gained]
  simp only [Account.observe, Account.gain] at accounts ⊢
  split at accounts
  · rename_i paused
    have same := Option.some.inj accounts
    refine ⟨congrArg Account.observedSince same, ?_⟩
    rw [if_pos paused, add_zero]
    exact congrArg Account.totalBytes same
  · rename_i active
    have same := Option.some.inj accounts
    refine ⟨congrArg Account.observedSince same, ?_⟩
    rw [if_neg active]
    exact congrArg Account.totalBytes same

theorem owned_of_outcomes {next : SQLiteTraffic} {observedAt : ℤ}
    (outcomes : ∀ username, UserOutcome db next observedAt username) : next.Owned := by
  intro username absent tier ts
  cases outcomes username with
  | gone user buckets => exact buckets tier ts
  | fresh row user since buckets => exact buckets tier ts
  | kept prior row gain before user since nonneg total buckets =>
      rw [absent] at user
      cases user

/-- Users that expire before the step are gone before it. -/
theorem UserOutcome.prunedBefore (owned : db.Owned) (now retention : ℤ) {next : SQLiteTraffic}
    {observedAt : ℤ}
    (outcome : UserOutcome (pruneTrafficSummariesTx db now retention) next observedAt username) :
    UserOutcome db next observedAt username := by
  cases outcome with
  | gone user buckets => exact .gone user buckets
  | fresh row user since buckets => exact .fresh row user since buckets
  | kept prior row gain before user since nonneg total buckets =>
      rcases owned.pruned_user now retention username with ⟨absent, -⟩ | ⟨same, sameBuckets⟩
      · rw [absent] at before
        cases before
      · refine .kept prior row gain (same ▸ before) user since nonneg total fun tier ts => ?_
        rw [buckets, sameBuckets]

/-- Users that expire after the step are gone. -/
theorem UserOutcome.prunedAfter {next : SQLiteTraffic} (owned : next.Owned) (now retention : ℤ)
    {observedAt : ℤ} (outcome : UserOutcome db next observedAt username) :
    UserOutcome db (pruneTrafficSummariesTx next now retention) observedAt username := by
  rcases owned.pruned_user now retention username with ⟨absent, none⟩ | ⟨same, sameBuckets⟩
  · exact .gone absent none
  cases outcome with
  | gone user buckets =>
      exact .gone (same.trans user) fun tier ts => (sameBuckets tier ts).trans (buckets tier ts)
  | fresh row user since buckets =>
      exact .fresh row (same.trans user) since fun tier ts =>
        (sameBuckets tier ts).trans (buckets tier ts)
  | kept prior row gain before user since nonneg total buckets =>
      exact .kept prior row gain before (same.trans user) since nonneg total fun tier ts =>
        (sameBuckets tier ts).trans (buckets tier ts)

/-- What the loop, the marking and the writing of the buckets make of a user. -/
theorem markedOutcome (owned : db.Owned) {pass : UserTrafficPass} (valid : pass.snapshot.Valid)
    (history : pass.historyEnabled = true) {work : SQLiteTrafficWork}
    (done : pass.snapshot.users.foldlM (applySQLiteObservation pass) db.start = .ok work)
    {written : UserTrafficBuckets}
    (isWritten : writeUserTrafficBuckets pass.historyEnabled db.buckets work.buckets =
      .ok written) (collector : Option UserTrafficCollectorState) (username : String) :
    UserOutcome db ⟨markSQLiteDeleted pass.snapshot work.stored work.users, written, collector⟩
      pass.snapshot.observedAt username := by
  have row := SQLiteTraffic.lookup_markSQLiteDeleted valid done username
  have buckets := fun tier ts =>
    lookup_writeUserTrafficBuckets rfl done valid.distinct rfl isWritten username tier ts
  simp only [history, true_and, SQLiteTrafficWork.gainOf, SQLiteTraffic.start,
    SQLiteTraffic.lookup_readUserTrafficUsersTx] at buckets
  cases before : db.users[username]? with
  | none =>
      have noBuckets : ∀ tier ts, written[(⟨username, tier, ts⟩ : UserTrafficBucketKey)]? =
          none := by
        intro tier ts
        rw [buckets, owned username before, before]
        cases pass.snapshot.rawOf username <;> simp [StoredUserTraffic.gain]
      rw [before] at row
      cases listed : pass.snapshot.rawOf username with
      | none =>
          rw [listed] at row
          exact .gone row noBuckets
      | some raw =>
          rw [listed] at row
          simp only [UserTrafficRow.observe] at row
          split at row
          · exact .gone row noBuckets
          · exact .fresh _ row rfl noBuckets
  | some prior =>
      rw [before] at row
      cases listed : pass.snapshot.rawOf username with
      | none =>
          rw [listed] at row
          refine .kept prior (if prior.deletedTS.getD 0 ≠ 0 then prior
            else { prior with deletedTS := some pass.snapshot.observedAt }) 0 before row ?_ le_rfl ?_
            fun tier ts => ?_
          · split <;> rfl
          · split <;> simp
          · rw [buckets, listed]
      | some raw =>
          rw [listed] at row
          have nonneg := UserTrafficSnapshot.rawOf_nonneg listed
          have present : ∃ next, UserTrafficRow.observe pass username raw (some prior) =
              some next := by
            simp only [UserTrafficRow.observe]
            split
            · exact ⟨_, rfl⟩
            · exact ⟨_, rfl⟩
          rcases present with ⟨next, observed⟩
          rcases UserTrafficRow.observe_some nonneg observed with ⟨since, total⟩
          refine .kept prior next _ before (row.trans observed) since
            (StoredUserTraffic.gain_nonneg pass nonneg _) total fun tier ts => ?_
          rw [buckets, listed, before]
          rfl

/-- What an accepted snapshot makes of the users. -/
theorem SQLiteTraffic.Owned.outcomes (owned : db.Owned) (enabled : policy.enabled = true)
    {snapshot : UserTrafficSnapshot} {result : ℤ × SQLiteTraffic}
    (applied : db.applyUserTrafficSnapshot policy snapshot = .ok result) (username : String) :
    UserOutcome db result.2 snapshot.observedAt username := by
  rcases applyUserTrafficSnapshot_eq_ok_iff.mp applied with
    ⟨valid, -, work, done, written, isWritten, rfl⟩
  have prunedOwned := owned.pruned snapshot.observedAt (retentionSecs policy)
  have marked := @markedOutcome _ prunedOwned (userTrafficPass policy.enabled db.collector snapshot)
    valid enabled work done written isWritten
    (some (userTrafficPass policy.enabled db.collector snapshot).collector)
  refine UserOutcome.prunedBefore owned snapshot.observedAt (retentionSecs policy) ?_
  exact (marked username).prunedAfter (owned_of_outcomes marked) _ _

end Steps

/-- Snapshots and retention passes, each with the order of its query. -/
inductive TrafficHistoryCall where
  | applyUserTrafficSnapshot (snapshot : UserTrafficSnapshot)
  | pruneUserTrafficBatch (sorter : Sorter UserTrafficBucketKey.ts) (now limit : ℤ)

/-- Growth of the total of a user at an accepted snapshot. -/
structure TrafficDelta where
  observedAt : ℤ
  bytes : ℤ
deriving DecidableEq, Repr

/-- The tables, and the accepted deltas of every row since the row was inserted. -/
structure TrafficHistory where
  db : SQLiteTraffic
  deltas : String → List TrafficDelta

namespace TrafficHistory

def empty : TrafficHistory := ⟨.empty, fun _ => []⟩

/-- Deltas of a user after an accepted snapshot.  A row that starts with the snapshot is new. -/
def deltasAfter (state : TrafficHistory) (next : SQLiteTraffic) (observedAt : ℤ)
    (username : String) : List TrafficDelta :=
  match next.users[username]? with
  | none => []
  | some row =>
      if row.sinceTS = observedAt then []
      else state.deltas username ++
        [⟨observedAt, row.totalBytes - (state.db.users[username]?.map (·.totalBytes)).getD 0⟩]

def step (policy : StoragePolicy) (state : TrafficHistory) : TrafficHistoryCall → TrafficHistory
  | .applyUserTrafficSnapshot snapshot =>
      match state.db.applyUserTrafficSnapshot policy snapshot with
      | .error _ => state
      | .ok (_, next) => ⟨next, state.deltasAfter next snapshot.observedAt⟩
  | .pruneUserTrafficBatch sorter now limit =>
      let next := (state.db.pruneUserTrafficBatch sorter policy now limit).2
      ⟨next, fun username =>
        if next.users[username]? = none then [] else state.deltas username⟩

/-- Retention passes run at times up to a given one. -/
def PrunedBy (asOf : ℤ) : TrafficHistoryCall → Prop
  | .applyUserTrafficSnapshot _ => True
  | .pruneUserTrafficBatch _ now _ => now ≤ asOf

/-- Bytes of the deltas of a user whose time is covered by the windows. -/
def deliveredBytes (state : TrafficHistory) (asOf : ℤ) (windows : List TrafficWindow)
    (username : String) : ℤ :=
  (((state.deltas username).filter fun delta =>
    decide (CoveredBy asOf windows delta.observedAt)).map (·.bytes)).sum

/-- What every run keeps: rows own the buckets, buckets are not negative, and until a snapshot
after `asOf` arrives, the windows select what has been delivered at the times they cover. -/
structure Counted (asOf : ℤ) (windows : List TrafficWindow) (state : TrafficHistory) : Prop where
  owned : state.db.Owned
  nonneg : ∀ (key : UserTrafficBucketKey) (bytes : ℤ), state.db.buckets[key]? = some bytes →
    0 ≤ bytes
  since : ∀ (username : String) (row : UserTrafficRow), state.db.users[username]? = some row →
    ∃ collector, state.db.collector = some collector ∧ row.sinceTS ≤ collector.lastSuccessTS
  absent : ∀ username : String, state.db.users[username]? = none → state.deltas username = []
  counted : (∀ collector, state.db.collector = some collector → collector.lastSuccessTS ≤ asOf) →
    ∀ username, state.db.selectedBytes windows username =
      state.deliveredBytes asOf windows username

variable {policy : StoragePolicy} {asOf : ℤ} {windows : List TrafficWindow}
  {state : TrafficHistory} {username : String}

theorem selectedBytes_congr {db next : SQLiteTraffic}
    (same : ∀ tier ts, trafficSQLPredicate windows ⟨username, tier, ts⟩ = true →
      next.buckets[(⟨username, tier, ts⟩ : UserTrafficBucketKey)]? =
        db.buckets[(⟨username, tier, ts⟩ : UserTrafficBucketKey)]?) :
    next.selectedBytes windows username = db.selectedBytes windows username := by
  apply Table.sumOver_congr
  rintro ⟨userID, tier, ts⟩ isSelected
  simp only [Bool.and_eq_true, decide_eq_true_eq] at isSelected
  rcases isSelected with ⟨isSelected, rfl⟩
  rw [same tier ts isSelected]

/-- A delta is selected once if its time is covered. -/
theorem selectedBytes_credit (reads : ReadWindows policy asOf windows) {db next : SQLiteTraffic}
    {observedAt gain : ℤ} (observedNonneg : 0 ≤ observedAt) (past : observedAt ≤ asOf)
    (nonneg : 0 ≤ gain)
    (buckets : ∀ tier ts, next.buckets[(⟨username, tier, ts⟩ : UserTrafficBucketKey)]? =
      if ts = bucketStart observedAt (trafficTierWidth tier) then
        credit db.buckets[(⟨username, tier, ts⟩ : UserTrafficBucketKey)]? gain
      else db.buckets[(⟨username, tier, ts⟩ : UserTrafficBucketKey)]?) :
    next.selectedBytes windows username = db.selectedBytes windows username +
      if CoveredBy asOf windows observedAt then gain else 0 := by
  rw [← reads.sum_tiers observedNonneg past username gain]
  have added : ∀ key : UserTrafficBucketKey,
      (trafficSQLPredicate windows key && decide (key.userID = username)) = true →
        next.buckets[key]?.getD 0 = db.buckets[key]?.getD 0 + ∑ tier : Fin 3,
          if (⟨username, tier, bucketStart observedAt (trafficTierWidth tier)⟩ :
            UserTrafficBucketKey) = key then gain else 0 := by
    rintro ⟨userID, tier, ts⟩ isSelected
    simp only [Bool.and_eq_true, decide_eq_true_eq] at isSelected
    rcases isSelected with ⟨-, rfl⟩
    have place : ∀ other : Fin 3,
        ((⟨userID, other, bucketStart observedAt (trafficTierWidth other)⟩ :
          UserTrafficBucketKey) = ⟨userID, tier, ts⟩) ↔
          other = tier ∧ ts = bucketStart observedAt (trafficTierWidth tier) := by
      intro other
      simp only [UserTrafficBucketKey.mk.injEq, true_and]
      refine and_congr_right ?_
      rintro rfl
      exact eq_comm
    simp only [buckets, place, ite_and, Finset.sum_ite_eq', Finset.mem_univ, ↓reduceIte]
    split
    · exact credit_getD nonneg _
    · rw [add_zero]
  have total := Table.sumOver_add Finset.univ (fun tier : Fin 3 =>
    (⟨username, tier, bucketStart observedAt (trafficTierWidth tier)⟩ : UserTrafficBucketKey))
    (fun _ => gain) added
  simp only [decide_true, Bool.and_true] at total
  exact total

theorem deliveredBytes_append {more : TrafficDelta} {next : TrafficHistory}
    (appended : next.deltas username = state.deltas username ++ [more]) :
    next.deliveredBytes asOf windows username = state.deliveredBytes asOf windows username +
      if CoveredBy asOf windows more.observedAt then more.bytes else 0 := by
  simp only [deliveredBytes, appended, List.filter_append, List.map_append, List.sum_append]
  congr 1
  by_cases covered : CoveredBy asOf windows more.observedAt
  · simp [covered]
  · simp [covered]

theorem deliveredBytes_nil (none : state.deltas username = []) :
    state.deliveredBytes asOf windows username = 0 := by
  simp [deliveredBytes, none]

theorem counted_empty : Counted asOf windows empty := by
  have noBuckets : ∀ key : UserTrafficBucketKey,
      (∅ : UserTrafficBuckets)[key]? = none := by simp
  refine ⟨?_, ?_, ?_, ?_, ?_⟩
  · intro username _ tier ts
    exact noBuckets _
  · intro key bytes known
    exact absurd (known.symm.trans (noBuckets key)) (by simp)
  · intro username row known
    simp [empty, SQLiteTraffic.empty] at known
  · intro username _
    rfl
  · intro _ username
    rw [deliveredBytes_nil rfl]
    exact SQLiteTraffic.selectedBytes_eq_zero fun tier ts => noBuckets _

/-- An accepted snapshot is counted once. -/
theorem Counted.applyUserTrafficSnapshot (counted : Counted asOf windows state)
    (enabled : policy.enabled = true) (reads : ReadWindows policy asOf windows)
    {snapshot : UserTrafficSnapshot} {result : ℤ × SQLiteTraffic}
    (applied : state.db.applyUserTrafficSnapshot policy snapshot = .ok result) :
    Counted asOf windows ⟨result.2, state.deltasAfter result.2 snapshot.observedAt⟩ := by
  have outcomes := counted.owned.outcomes enabled applied
  rcases SQLiteTraffic.applyUserTrafficSnapshot_eq_ok_iff.mp applied with
    ⟨valid, newer, work, -, written, -, result_eq⟩
  have collector : result.2.collector =
      some (userTrafficPass policy.enabled state.db.collector snapshot).collector := by
    rw [← result_eq]
    rfl
  have observedPos := valid.observedAt_pos
  have older : ∀ (username : String) (row : UserTrafficRow),
      state.db.users[username]? = some row → row.sinceTS < snapshot.observedAt := by
    intro username row known
    rcases counted.since username row known with ⟨last, isLast, le⟩
    exact le.trans_lt (newer last isLast)
  refine ⟨owned_of_outcomes outcomes, ?_, ?_, ?_, ?_⟩
  · rintro ⟨username, tier, ts⟩ bytes known
    have known : result.2.buckets[(⟨username, tier, ts⟩ : UserTrafficBucketKey)]? = some bytes :=
      known
    cases outcomes username with
    | gone user buckets => simp [buckets] at known
    | fresh row user since buckets => simp [buckets] at known
    | kept prior row gain before user since gainNonneg total buckets =>
        have old := counted.nonneg ⟨username, tier, ts⟩
        rw [buckets] at known
        split at known
        · cases found : state.db.buckets[(⟨username, tier, ts⟩ : UserTrafficBucketKey)]? with
          | none =>
              simp only [found, credit, Option.getD_none] at known
              split at known
              · cases known
                omega
              · cases known
          | some prior =>
              have := old prior found
              simp only [found, credit, Option.getD_some] at known
              split at known <;> cases known <;> omega
        · exact old bytes known
  · intro username row known
    have known : result.2.users[username]? = some row := known
    refine ⟨_, collector, ?_⟩
    change row.sinceTS ≤ snapshot.observedAt
    cases outcomes username with
    | gone user buckets => simp [user] at known
    | fresh next user since buckets =>
        cases user.symm.trans known
        exact since.le
    | kept prior next gain before user since gainNonneg total buckets =>
        cases user.symm.trans known
        exact since.le.trans (older username prior before).le
  · intro username absent
    have absent : result.2.users[username]? = none := absent
    simp only [deltasAfter, absent]
  · intro last username
    have past : snapshot.observedAt ≤ asOf := last _ collector
    have before := counted.counted (fun prior isPrior => (newer prior isPrior).le.trans past)
      username
    cases outcomes username with
    | gone user buckets =>
        rw [deliveredBytes_nil (by simp only [deltasAfter, user])]
        exact SQLiteTraffic.selectedBytes_eq_zero buckets
    | fresh row user since buckets =>
        rw [deliveredBytes_nil (by simp only [deltasAfter, user, since, ↓reduceIte])]
        exact SQLiteTraffic.selectedBytes_eq_zero buckets
    | kept prior row gain known user since gainNonneg total buckets =>
        have old := older username prior known
        have appended : state.deltasAfter result.2 snapshot.observedAt username =
            state.deltas username ++ [⟨snapshot.observedAt, gain⟩] := by
          simp only [deltasAfter, user, known, Option.map_some, Option.getD_some]
          rw [if_neg (by omega), total, add_sub_cancel_left]
        rw [deliveredBytes_append appended, ← before]
        exact selectedBytes_credit reads observedPos.le past gainNonneg buckets

/-- A retention pass either deletes a user or only deletes buckets that have outlived their
tier. -/
theorem pruneUserTrafficBatch_user {db : SQLiteTraffic} (owned : db.Owned)
    (sorter : Sorter UserTrafficBucketKey.ts) (now limit : ℤ) (username : String) :
    let next := (db.pruneUserTrafficBatch sorter policy now limit).2
    next.collector = db.collector ∧
      ((next.users[username]? = none ∧
          ∀ tier ts, next.buckets[(⟨username, tier, ts⟩ : UserTrafficBucketKey)]? = none) ∨
        next.users[username]? = db.users[username]? ∧
          ∀ tier ts, next.buckets[(⟨username, tier, ts⟩ : UserTrafficBucketKey)]? =
              db.buckets[(⟨username, tier, ts⟩ : UserTrafficBucketKey)]? ∨
            (SQLiteTraffic.staleUserTraffic policy now ⟨username, tier, ts⟩ = true ∧
              next.buckets[(⟨username, tier, ts⟩ : UserTrafficBucketKey)]? = none)) := by
  simp only [SQLiteTraffic.pruneUserTrafficBatch]
  split
  · exact ⟨rfl, Or.inr ⟨rfl, fun tier ts => Or.inl rfl⟩⟩
  set keys := (sorter.sort (db.buckets.keys.filter
    (SQLiteTraffic.staleUserTraffic policy now))).take limit.toNat with keysEq
  have stale : ∀ key ∈ keys, SQLiteTraffic.staleUserTraffic policy now key = true := by
    intro key mem
    have sorted := sorter.mem_sort.mp (List.mem_of_mem_take mem)
    exact (List.mem_filter.mp sorted).2
  have erasedOwned : SQLiteTraffic.Owned
      { db with buckets := keys.foldl (·.erase ·) db.buckets } := by
    intro other absent tier ts
    rw [Table.lookup_eraseAll, owned other absent tier ts, ite_self]
  refine ⟨rfl, ?_⟩
  rcases erasedOwned.pruned_user now (retentionSecs policy) username with gone | ⟨user, buckets⟩
  · exact Or.inl gone
  · refine Or.inr ⟨user, fun tier ts => ?_⟩
    rw [buckets, Table.lookup_eraseAll]
    split
    · rename_i erased
      exact Or.inr ⟨stale _ erased, rfl⟩
    · exact Or.inl rfl

/-- A retention pass deletes nothing that the windows select, unless it deletes the user. -/
theorem Counted.pruneUserTrafficBatch (counted : Counted asOf windows state)
    (reads : ReadWindows policy asOf windows) (sorter : Sorter UserTrafficBucketKey.ts)
    {now : ℤ} (past : now ≤ asOf) (limit : ℤ) :
    Counted asOf windows (state.step policy (.pruneUserTrafficBatch sorter now limit)) := by
  have passed := @pruneUserTrafficBatch_user policy _ counted.owned sorter now limit
  simp only [step]
  set next := (state.db.pruneUserTrafficBatch sorter policy now limit).2 with nextEq
  refine ⟨?_, ?_, ?_, ?_, ?_⟩
  · intro username absent tier ts
    rcases (passed username).2 with ⟨-, none⟩ | ⟨user, buckets⟩
    · exact none tier ts
    · rcases buckets tier ts with same | ⟨-, erased⟩
      · exact same.trans (counted.owned username (user.symm.trans absent) tier ts)
      · exact erased
  · rintro ⟨username, tier, ts⟩ bytes known
    have known : next.buckets[(⟨username, tier, ts⟩ : UserTrafficBucketKey)]? = some bytes := known
    rcases (passed username).2 with ⟨-, none⟩ | ⟨-, buckets⟩
    · simp [none] at known
    · rcases buckets tier ts with same | ⟨-, erased⟩
      · exact counted.nonneg _ bytes (same.symm.trans known)
      · simp [erased] at known
  · intro username row known
    have known : next.users[username]? = some row := known
    rw [show next.collector = state.db.collector from (passed username).1]
    rcases (passed username).2 with ⟨absent, -⟩ | ⟨user, -⟩
    · simp [absent] at known
    · exact counted.since username row (user.symm.trans known)
  · intro username absent
    exact if_pos absent
  · intro last username
    have last : ∀ collector, next.collector = some collector → collector.lastSuccessTS ≤ asOf :=
      last
    rw [show next.collector = state.db.collector from (passed username).1] at last
    have before := counted.counted last username
    rcases (passed username).2 with ⟨absent, none⟩ | ⟨user, buckets⟩
    · rw [deliveredBytes_nil (if_pos absent)]
      exact SQLiteTraffic.selectedBytes_eq_zero none
    have kept : next.selectedBytes windows username =
        state.db.selectedBytes windows username := by
      apply selectedBytes_congr
      intro tier ts isSelected
      rcases buckets tier ts with same | ⟨stale, -⟩
      · exact same
      · have recent := reads.recent isSelected
        simp only [SQLiteTraffic.staleUserTraffic, decide_eq_true_eq] at stale recent
        omega
    change next.selectedBytes windows username = _
    rw [kept, before]
    simp only [deliveredBytes]
    split
    · rename_i absent
      rw [counted.absent username (user.symm.trans absent)]
    · rfl

/-- Every call keeps the count. -/
theorem Counted.step (counted : Counted asOf windows state) (enabled : policy.enabled = true)
    (reads : ReadWindows policy asOf windows) {call : TrafficHistoryCall}
    (past : PrunedBy asOf call) : Counted asOf windows (state.step policy call) := by
  cases call with
  | applyUserTrafficSnapshot snapshot =>
      cases applied : state.db.applyUserTrafficSnapshot policy snapshot with
      | error refusal =>
          simp only [TrafficHistory.step, applied]
          exact counted
      | ok result =>
          simp only [TrafficHistory.step, applied]
          exact counted.applyUserTrafficSnapshot enabled reads applied
  | pruneUserTrafficBatch sorter now limit =>
      exact counted.pruneUserTrafficBatch reads sorter past limit

theorem counted_after (enabled : policy.enabled = true) (reads : ReadWindows policy asOf windows)
    {calls : List TrafficHistoryCall} (past : ∀ call ∈ calls, PrunedBy asOf call) :
    Counted asOf windows (after (step policy) empty calls) :=
  invariant_after (fun _ _ counted allowed => counted.step enabled reads allowed) counted_empty
    (permitted_of_forall past)

end TrafficHistory

section Reads

variable {windows : List TrafficWindow} {db : SQLiteTraffic}

theorem aggregatePoints_nonneg (nonneg : ∀ (key : UserTrafficBucketKey) (bytes : ℤ),
    db.buckets[key]? = some bytes → 0 ≤ bytes) :
    ∀ point ∈ db.aggregatePoints windows, 0 ≤ point.bytes := by
  intro point mem
  simp only [SQLiteTraffic.aggregatePoints, Sorter.mem_sort, List.mem_flatMap,
    trafficAggregateRows, List.mem_map] at mem
  rcases mem with ⟨window, -, group, -, rfl⟩
  apply List.sum_nonneg
  intro bytes mem
  rcases List.mem_map.mp mem with ⟨row, rowMem, rfl⟩
  have present := (List.mem_filter.mp (List.mem_filter.mp rowMem).1).1
  exact nonneg row.1 row.2 ((Table.mem_toList _ _ _).mp present)

/-- While history is enabled, a range read returns every delta of the user whose time is covered
by the planned windows once, and an aggregation returns those of all users if they fit. -/
theorem range_reads_count_once (policies : ActivePolicies)
    (enabled : (policies.get .userTraffic).enabled = true) (calls : List TrafficHistoryCall)
    (asOf : ℤ) (asOfLe : asOf ≤ maxInt64)
    (pruned : ∀ call ∈ calls, TrafficHistory.PrunedBy asOf call)
    (last : ∀ collector ∈ (after (TrafficHistory.step (policies.get .userTraffic)) .empty
      calls).db.collector, collector.lastSuccessTS ≤ asOf)
    (fromSecs toSecs : ℤ) (le : fromSecs ≤ toSecs) :
    let policy := policies.get .userTraffic
    let state := after (TrafficHistory.step policy) .empty calls
    ∃ windows coverage,
      SQLiteTraffic.planRead policy asOf fromSecs toSecs = .ok (windows, coverage) ∧
      (∀ username, ∃ points,
        state.db.range policy asOf username fromSecs toSecs = .ok (points, coverage) ∧
          (points.map (·.bytes)).sum = state.deliveredBytes asOf windows username) ∧
      ∀ total, (∃ points,
          state.db.aggregate policy asOf fromSecs toSecs = .ok (total, points, coverage)) ↔
        total ≤ maxInt64 ∧
          total = (state.db.users.keys.map (state.deliveredBytes asOf windows)).sum := by
  intro policy state
  have valid : policy.Valid := policies.valid_get (by decide)
  rcases exists_planRead valid enabled asOfLe le with ⟨windows, coverage, isPlan, reads⟩
  have counted := TrafficHistory.counted_after enabled reads pruned
  have delivered : ∀ username, state.db.selectedBytes windows username =
      state.deliveredBytes asOf windows username := counted.counted last
  refine ⟨windows, coverage, isPlan, ?_, ?_⟩
  · intro username
    refine ⟨state.db.rangePoints windows username, ?_, ?_⟩
    · simp only [SQLiteTraffic.range, isPlan]
      rfl
    · rw [sum_rangePoints counted.owned, delivered]
  · intro total
    have sum := sum_aggregatePoints counted.owned reads.apart
    have sameSum : state.db.users.keys.map (state.db.selectedBytes windows) =
        state.db.users.keys.map (state.deliveredBytes asOf windows) :=
      List.map_congr_left fun username _ => delivered username
    have accepted := @aggregateTotal_eq_ok_iff (state.db.aggregatePoints windows) 0 total
      (aggregatePoints_nonneg counted.nonneg) le_rfl maxInt64_nonneg
    rw [zero_add, sum, sameSum] at accepted
    have folded : (∃ points, state.db.aggregate policy asOf fromSecs toSecs =
        .ok (total, points, coverage)) ↔
        aggregateTotal 0 (state.db.aggregatePoints windows) = .ok total := by
      simp only [SQLiteTraffic.aggregate, isPlan, bind, Except.bind]
      cases aggregateTotal 0 (state.db.aggregatePoints windows) with
      | error refusal => simp
      | ok result => simp
    rw [folded, accepted]
    constructor
    · rintro ⟨fits, rfl⟩
      exact ⟨fits, rfl⟩
    · rintro ⟨fits, rfl⟩
      exact ⟨fits, rfl⟩

/-- Two deltas of a user and a retention pass. -/
def sampleTrafficHistory : List TrafficHistoryCall :=
  [.applyUserTrafficSnapshot ⟨1000, 500, true, [⟨"alice", 5⟩]⟩,
    .applyUserTrafficSnapshot ⟨2000, 500, true, [⟨"alice", 9⟩, ⟨"bob", 2⟩]⟩,
    .applyUserTrafficSnapshot ⟨95000, 500, true, [⟨"alice", 10⟩, ⟨"bob", 8⟩]⟩,
    .pruneUserTrafficBatch (.stable _) 95000 1]

theorem sampleTrafficHistory_counts_once :
    let policy := ActivePolicies.default.get .userTraffic
    let state := after (TrafficHistory.step policy) .empty sampleTrafficHistory
    ∃ windows coverage, SQLiteTraffic.planRead policy 96000 0 96000 = .ok (windows, coverage) ∧
      ∃ points, state.db.range policy 96000 "alice" 0 96000 = .ok (points, coverage) ∧
        (points.map (·.bytes)).sum = state.deliveredBytes 96000 windows "alice" := by
  rcases range_reads_count_once .default rfl sampleTrafficHistory 96000 (by decide)
    (by simp [sampleTrafficHistory, TrafficHistory.PrunedBy]) (by decide +kernel) 0 96000
    (by decide) with ⟨windows, coverage, isPlan, ranges, -⟩
  exact ⟨windows, coverage, isPlan, ranges "alice"⟩

end Reads

end TelemtPanel.Store
