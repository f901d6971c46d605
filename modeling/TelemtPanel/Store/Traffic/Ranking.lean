import TelemtPanel.Library.Keyset
import TelemtPanel.Store.Traffic.MemoryLedger
import TelemtPanel.Store.Traffic.Read

/-!
# Ranking users by their traffic

Users are ranked by the bytes of their buckets in the windows of a plan, and by name among equals.
A ranking is read page by page; a page ends with the cursor of the next one.

Every page plans its windows for the time at which it is read.
-/

namespace TelemtPanel.Store

open TelemtPanel.Library

structure UserTrafficRank where
  username : String
  bytes : ℤ
  observedTotal : ℤ
  currentMonth : ℤ
  deletedEpochSecs : ℤ
  continuity : UserTrafficContinuity
deriving DecidableEq, Repr

structure UserTrafficRankCursor where
  bytes : ℤ
  username : String
deriving DecidableEq, Repr

/-- The position of a rank. -/
def UserTrafficRank.cursor (rank : UserTrafficRank) : UserTrafficRankCursor :=
  ⟨rank.bytes, rank.username⟩

/-- Most bytes first, by name among equals. -/
def UserTrafficRankCursor.order (cursor : UserTrafficRankCursor) : ℤᵒᵈ ×ₗ String :=
  toLex (OrderDual.toDual cursor.bytes, cursor.username)

/-- The rank of a user with some bytes in the windows. -/
def UserTrafficRankCursor.rank (cursor : UserTrafficRankCursor) (summary : UserTrafficSummary) :
    UserTrafficRank :=
  ⟨cursor.username, cursor.bytes, summary.observedTotalBytes, summary.currentMonthBytes,
    summary.deletedEpochSecs, summary.continuity⟩

inductive TrafficRankingError where
  | plan (error : TrafficPlanError)
  | rangeExceedsInt64 (username : String)
  | sumOverflow
deriving DecidableEq, Repr

/-- Text of a refusal; `quote` is the format `%q`. -/
def TrafficRankingError.text (quote : String → String) : TrafficRankingError → String
  | .plan error => error.text
  | .rangeExceedsInt64 username => "user " ++ quote username ++ " range traffic exceeds int64"
  | .sumOverflow => "integer overflow"

def trafficWindowContains (windows : List TrafficWindow) (tier : MetricTier) (ts : ℤ) : Bool :=
  windows.any fun window =>
    decide (window.tier = tier) && decide (ts ≥ window.fromSecs) && decide (ts < window.toSecs)

namespace MemoryTraffic

/-- Tiers of a read of the process-local store. -/
def trafficReadTiers (policy : StoragePolicy) : List TrafficTierPolicy :=
  if policy.enabled = true then [⟨.metricTierQuarter, 900, userTrafficMemoryRetentionSecs⟩] else []

/-- The summary of a user as read at a given time. -/
def summaryAt (memory : MemoryTraffic) (asOf : ℤ) (username : String) : UserTrafficSummary :=
  (memory.userTraffic[username]?.map fun current =>
    current.summary.readIn (utcMonthKey asOf)).getD .zero

/-- Bytes of a user in the windows. -/
def selectedBytes (memory : MemoryTraffic) (windows : List TrafficWindow) (username : String) :
    ℤ :=
  Table.sumOver memory.userTrafficBuckets fun key =>
    trafficWindowContains windows .metricTierQuarter key.ts && decide (key.username = username)

/-- The loop over the buckets in `memoryTrafficReadSnapshot.Ranking`. -/
def rankingPeriod (windows : List TrafficWindow) (period : Table String ℤ) :
    List (MemoryUserTrafficBucketKey × ℤ) → Except TrafficRankingError (Table String ℤ)
  | [] => .ok period
  | row :: rows =>
      if trafficWindowContains windows .metricTierQuarter row.1.ts = false then
        rankingPeriod windows period rows
      else if row.2 > maxInt64 - period[row.1.username]?.getD 0 then
        .error (.rangeExceedsInt64 row.1.username)
      else rankingPeriod windows
        (period.insert row.1.username (period[row.1.username]?.getD 0 + row.2)) rows

/-- The users that are listed in a ranking. -/
def rankingUsers (memory : MemoryTraffic) (asOf : ℤ) (includeDeleted : Bool)
    (period : Table String ℤ) : List UserTrafficRankCursor :=
  (period.toList.filter fun row => !(row.2 = 0 ||
    (!includeDeleted && (memory.summaryAt asOf row.1).deletedEpochSecs ≠ 0))).map
      fun row => ⟨row.2, row.1⟩

/-- `memoryTrafficReadSnapshot.Ranking` -/
def ranking (memory : MemoryTraffic) (policy : StoragePolicy) (asOf fromSecs toSecs : ℤ)
    (includeDeleted : Bool) (limit : ℤ) (cursor : Option UserTrafficRankCursor) :
    Except TrafficRankingError (List UserTrafficRank × TrafficCoverage) := do
  let (windows, coverage) ←
    (planTrafficWindows fromSecs toSecs asOf (trafficReadTiers policy)).mapError .plan
  let period ← if limit > 0 then rankingPeriod windows ∅ memory.userTrafficBuckets.toList
    else .ok ∅
  let users := (memory.rankingUsers asOf includeDeleted period).filter fun user =>
    !cursor.any fun cursor => user.bytes > cursor.bytes ||
      (user.bytes = cursor.bytes && user.username ≤ cursor.username)
  let ranks := ((Sorter.stable UserTrafficRankCursor.order).sort users).map fun user =>
    user.rank (memory.summaryAt asOf user.username)
  .ok (if ranks.length > limit ∧ limit > 0 then ranks.take limit.toNat else ranks, coverage)

/-- `Memory.UserTrafficRanking`, read at a given time. -/
def userTrafficRanking (memory : MemoryTraffic) (policy : StoragePolicy) (asOf fromSecs toSecs : ℤ)
    (includeDeleted : Bool) (limit : ℤ) (cursor : Option UserTrafficRankCursor) :
    Except TrafficRankingError (List UserTrafficRank) :=
  (memory.ranking policy asOf fromSecs toSecs includeDeleted limit cursor).map (·.1)

end MemoryTraffic

namespace SQLiteTraffic

/-- The summary of a user as read at a given time. -/
def summaryAt (db : SQLiteTraffic) (asOf : ℤ) (username : String) : UserTrafficSummary :=
  (db.users[username]?.map fun row =>
    (StoredUserTraffic.ofRow username row).summary.readIn (utcMonthKey asOf)).getD .zero

/-- The groups of the query, one for every user that has a bucket in the windows. -/
def rankingUsers (db : SQLiteTraffic) (windows : List TrafficWindow) (includeDeleted : Bool) :
    List UserTrafficRankCursor :=
  (db.users.toList.filter fun user => (includeDeleted || user.2.deletedTS.isNone) &&
    db.buckets.keys.any fun key => trafficSQLPredicate windows key && key.userID = user.1).map
      fun user => ⟨db.selectedBytes windows user.1, user.1⟩

/-- `sqlTrafficReadSnapshot.Ranking` -/
def ranking (db : SQLiteTraffic) (policy : StoragePolicy) (asOf fromSecs toSecs : ℤ)
    (includeDeleted : Bool) (limit : ℤ) (cursor : Option UserTrafficRankCursor) :
    Except TrafficRankingError (List UserTrafficRank × TrafficCoverage) := do
  let (windows, coverage) ←
    (planTrafficWindows fromSecs toSecs asOf (Store.trafficReadTiers policy)).mapError .plan
  if limit ≤ 0 then .ok ([], coverage)
  else
    let groups := db.rankingUsers windows includeDeleted
    -- A sum that overflows fails the query, whichever rows it would return.
    if groups.any (fun user => user.bytes > maxInt64) then .error .sumOverflow
    else
      let users := groups.filter fun user => cursor.all fun cursor => user.bytes < cursor.bytes ||
        (user.bytes = cursor.bytes && user.username > cursor.username)
      .ok ((((Sorter.stable UserTrafficRankCursor.order).sort users).take limit.toNat).map fun user =>
        user.rank (db.summaryAt asOf user.username), coverage)

/-- `SQLite.UserTrafficRanking`, read at a given time. -/
def userTrafficRanking (db : SQLiteTraffic) (policy : StoragePolicy) (asOf fromSecs toSecs : ℤ)
    (includeDeleted : Bool) (limit : ℤ) (cursor : Option UserTrafficRankCursor) :
    Except TrafficRankingError (List UserTrafficRank) :=
  (db.ranking policy asOf fromSecs toSecs includeDeleted limit cursor).map (·.1)

end SQLiteTraffic

/-- What a page lists. -/
def rankItems : Except TrafficRankingError (List UserTrafficRank) → List UserTrafficRankCursor
  | .ok ranks => ranks.map UserTrafficRank.cursor
  | .error _ => []

/-- A page that is as long as the limit may be followed by another one. -/
def rankMore (limit : ℤ) (page : Except TrafficRankingError (List UserTrafficRank)) : Bool :=
  decide (limit ≤ (rankItems page).length)

/-- What the pages of a ranking hold together. -/
structure RankingPages (ranked : UserTrafficRankCursor → Prop) (limit : ℤ)
    (pages : List (Except TrafficRankingError (List UserTrafficRank))) : Prop where
  ordered : (pages.flatMap rankItems).Pairwise fun a b => a.order < b.order
  complete : ∀ user, user ∈ pages.flatMap rankItems ↔ ranked user
  answered : ∀ p ∈ pages, ∃ ranks, p = .ok ranks
  last : ∃ front final, pages = front ++ [final] ∧ (∀ p ∈ front, rankMore limit p = true) ∧
    rankMore limit final = false

section Pages

/-- Pages that are cut behind the last user of the page before hold everything together. -/
theorem rankingPages_of_cut {listed : List UserTrafficRankCursor} {limit : ℤ}
    (positive : 0 < limit) (distinct : (listed.map (·.username)).Nodup)
    {page : ℕ → Option UserTrafficRankCursor →
      Except TrafficRankingError (List UserTrafficRank)}
    (cut : ∀ round last, ∃ ranks, page round last = .ok ranks ∧
      ranks.map UserTrafficRank.cursor = ((Sorter.stable UserTrafficRankCursor.order).sort
        (listed.filter (behind UserTrafficRankCursor.order last))).take limit.toNat)
    {rounds : ℕ} (enough : listed.length < rounds) :
    RankingPages (fun user => user ∈ listed) limit
      (followPages page rankItems (rankMore limit) id rounds 0 none) := by
  set sorted := (Sorter.stable UserTrafficRankCursor.order).sort listed with sortedEq
  have length : sorted.length < rounds := by
    rw [sortedEq, Sorter.length_sort]
    exact enough
  have ordered : sorted.Pairwise fun a b => a.order < b.order := by
    apply Sorter.pairwise_lt_sort
    refine List.pairwise_map.mpr ((List.pairwise_map.mp distinct).imp ?_)
    intro left right apart same
    exact apart (congrArg (fun rank => (ofLex rank).2) same)
  have named : ∀ round count, ∃ ranks, pageAt page id sorted round count = .ok ranks ∧
      ranks.map UserTrafficRank.cursor = (sorted.drop count).take limit.toNat := by
    intro round count
    rcases cut round (sorted.take count).getLast? with ⟨ranks, isPage, isCut⟩
    rw [← Sorter.filter_stable_sort, filter_behind ordered] at isCut
    exact ⟨ranks, by rw [pageAt, Option.map_id_apply, isPage], isCut⟩
  have here : ∀ round count, rankItems (pageAt page id sorted round count) =
      (sorted.drop count).take limit.toNat := by
    intro round count
    rcases named round count with ⟨ranks, isPage, isCut⟩
    rw [isPage, ← isCut]
    rfl
  have continues : Continues page rankItems (rankMore limit) id sorted limit.toNat := by
    constructor
    · intro round count _
      exact here round count
    · intro round count _ isMore
      have more := of_decide_eq_true isMore
      rw [here, List.length_take, List.length_drop] at more
      omega
    · intro round count _ isLast
      have noMore := of_decide_eq_false isLast
      rw [here, List.length_take, List.length_drop] at noMore
      omega
  rcases continues.followPages (by omega) 0 (Nat.zero_le _) length with ⟨whole, last, each⟩
  rw [List.drop_zero] at whole
  refine ⟨?_, ?_, ?_, last⟩
  · exact whole ▸ ordered
  · intro user
    exact whole ▸ Sorter.mem_sort _
  · intro p mem
    rcases each p mem with ⟨round, read, -, rfl⟩
    rcases named round read with ⟨ranks, isPage, -⟩
    exact ⟨ranks, isPage⟩

theorem behind_order (last : Option UserTrafficRankCursor) (user : UserTrafficRankCursor) :
    behind UserTrafficRankCursor.order last user =
      last.all fun last => user.bytes < last.bytes ||
        (user.bytes = last.bytes && user.username > last.username) := by
  cases last with
  | none => rfl
  | some last =>
      rw [Bool.eq_iff_iff]
      simp only [behind, UserTrafficRankCursor.order, Prod.Lex.toLex_lt_toLex,
        OrderDual.toDual_lt_toDual, OrderDual.toDual_inj, Option.all_some, Bool.or_eq_true,
        Bool.and_eq_true, decide_eq_true_eq, gt_iff_lt, @eq_comm _ last.bytes]

/-- The exclusion of the process-local store is the selection of the durable one. -/
theorem not_any_eq_behind (last : Option UserTrafficRankCursor) (user : UserTrafficRankCursor) :
    (!last.any fun last => user.bytes > last.bytes ||
      (user.bytes = last.bytes && user.username ≤ last.username)) =
      behind UserTrafficRankCursor.order last user := by
  rw [behind_order]
  cases last with
  | none => rfl
  | some last =>
      rw [Bool.eq_iff_iff]
      simp only [Option.any_some, Option.all_some, Bool.not_eq_true', Bool.or_eq_false_iff,
        Bool.and_eq_false_iff, decide_eq_false_iff_not, Bool.or_eq_true, Bool.and_eq_true,
        decide_eq_true_eq, gt_iff_lt, not_lt, not_le]
      rcases lt_trichotomy user.bytes last.bytes with less | same | more
      · simp [less, less.le, less.ne]
      · simp [same]
      · simp [more.ne', more.not_gt, more.not_ge]

theorem map_cursor_rank (users : List UserTrafficRankCursor)
    (summary : String → UserTrafficSummary) :
    (users.map fun user => user.rank (summary user.username)).map UserTrafficRank.cursor =
      users := by
  rw [List.map_map]
  exact List.map_id users

end Pages

section Memory

variable {memory : MemoryTraffic} {windows : List TrafficWindow}

/-- The loop adds the buckets of every user up. -/
theorem MemoryTraffic.rankingPeriod_ok {rows : List (MemoryUserTrafficBucketKey × ℤ)}
    {period sums : Table String ℤ} (ok : rankingPeriod windows period rows = .ok sums)
    (username : String) :
    sums[username]?.getD 0 = period[username]?.getD 0 + ((rows.filter fun row =>
      trafficWindowContains windows .metricTierQuarter row.1.ts &&
        decide (row.1.username = username)).map (·.2)).sum := by
  induction rows generalizing period with
  | nil =>
      cases ok
      simp
  | cons row rows ih =>
      rw [rankingPeriod] at ok
      split at ok
      · rename_i outside
        rw [ih ok, List.filter_cons_of_neg (by simp [outside])]
      · rename_i inside
        rw [Bool.not_eq_false] at inside
        split at ok
        · cases ok
        · rw [ih ok, Table.lookup_insert]
          by_cases here : row.1.username = username
          · subst here
            rw [List.filter_cons_of_pos (by simp [inside]), if_pos rfl, List.map_cons,
              List.sum_cons, Option.getD_some, add_assoc]
          · rw [List.filter_cons_of_neg (by simp [here]), if_neg here]

/-- Whether a user is deleted does not depend on the time of the read. -/
theorem MemoryTraffic.deletedEpochSecs_summaryAt (asOf other : ℤ) (username : String) :
    (memory.summaryAt asOf username).deletedEpochSecs =
      (memory.summaryAt other username).deletedEpochSecs := by
  unfold summaryAt
  cases memory.userTraffic[username]? with
  | none => rfl
  | some current =>
      simp only [Option.map_some, Option.getD_some, UserTrafficSummary.readIn]
      split <;> split <;> rfl

theorem MemoryTraffic.rankingUsers_eq (asOf other : ℤ) (includeDeleted : Bool)
    (period : Table String ℤ) :
    memory.rankingUsers asOf includeDeleted period =
      memory.rankingUsers other includeDeleted period := by
  unfold rankingUsers
  congr 2
  funext row
  rw [deletedEpochSecs_summaryAt asOf other]

/-- The users that a ranking of the process-local store lists. -/
def MemoryTraffic.Ranked (memory : MemoryTraffic) (windows : List TrafficWindow)
    (includeDeleted : Bool) (user : UserTrafficRankCursor) : Prop :=
  user.bytes = memory.selectedBytes windows user.username ∧ user.bytes ≠ 0 ∧
    (includeDeleted = true ∨ (memory.summaryAt 0 user.username).deletedEpochSecs = 0)

theorem MemoryTraffic.mem_rankingUsers {period : Table String ℤ} {includeDeleted : Bool}
    (sums : ∀ username : String,
      period[username]?.getD 0 = memory.selectedBytes windows username)
    (user : UserTrafficRankCursor) : user ∈ memory.rankingUsers 0 includeDeleted period ↔
      memory.Ranked windows includeDeleted user := by
  have found : user.bytes ≠ 0 → (period[user.username]? = some user.bytes ↔
      user.bytes = memory.selectedBytes windows user.username) := by
    intro nonzero
    rw [← sums]
    cases period[user.username]? with
    | none => simp [nonzero]
    | some bytes => simp [eq_comm]
  simp only [rankingUsers, List.mem_map, List.mem_filter, Bool.not_eq_true',
    Bool.or_eq_false_iff, decide_eq_false_iff_not, Bool.and_eq_false_iff, Bool.not_eq_false',
    ne_eq, Decidable.not_not]
  constructor
  · rintro ⟨row, ⟨mem, nonzero, alive⟩, rfl⟩
    exact ⟨(found nonzero).mp ((Table.mem_toList _ _ _).mp mem), nonzero, alive⟩
  · rintro ⟨bytes, nonzero, alive⟩
    exact ⟨(user.username, user.bytes),
      ⟨(Table.mem_toList _ _ _).mpr ((found nonzero).mpr bytes), nonzero, alive⟩, rfl⟩

/-- A page of the process-local store whose plan and whose sums are known. -/
theorem MemoryTraffic.userTrafficRanking_eq {policy : StoragePolicy} {asOf fromSecs toSecs : ℤ}
    {includeDeleted : Bool} {limit : ℤ} {last : Option UserTrafficRankCursor}
    (planned : (planTrafficWindows fromSecs toSecs asOf (trafficReadTiers policy)).map (·.1) =
      .ok windows) (positive : 0 < limit) :
    memory.userTrafficRanking policy asOf fromSecs toSecs includeDeleted limit last =
      (rankingPeriod windows ∅ memory.userTrafficBuckets.toList).map fun period =>
        (((Sorter.stable UserTrafficRankCursor.order).sort
          ((memory.rankingUsers 0 includeDeleted period).filter
            (behind UserTrafficRankCursor.order last))).take limit.toNat).map fun user =>
              user.rank (memory.summaryAt asOf user.username) := by
  cases plan : planTrafficWindows fromSecs toSecs asOf (trafficReadTiers policy) with
  | error refusal =>
      rw [plan] at planned
      cases planned
  | ok answer =>
      rw [plan] at planned
      cases planned
      have cut : ∀ ranks : List UserTrafficRank,
          (if ranks.length > limit ∧ limit > 0 then ranks.take limit.toNat else ranks) =
            ranks.take limit.toNat := by
        intro ranks
        split
        · rfl
        · rename_i short
          rw [List.take_of_length_le (by omega)]
      unfold userTrafficRanking ranking
      simp only [plan, Except.mapError, bind, Except.bind]
      rw [if_pos positive]
      cases rankingPeriod answer.1 ∅ memory.userTrafficBuckets.toList with
      | error refusal => rfl
      | ok period =>
          simp only [Except.map, cut, not_any_eq_behind, rankingUsers_eq asOf 0, List.map_take]

/-- Pages of the process-local store whose plans agree list every ranked user once and in order. -/
theorem MemoryTraffic.rankingPages {policy : StoragePolicy} {asOf : ℕ → ℤ} {fromSecs toSecs : ℤ}
    {includeDeleted : Bool} {limit : ℤ} (positive : 0 < limit)
    (planned : ∀ round, (planTrafficWindows fromSecs toSecs (asOf round)
      (trafficReadTiers policy)).map (·.1) = .ok windows) {ranks : List UserTrafficRank}
    (answered : memory.userTrafficRanking policy (asOf 0) fromSecs toSecs includeDeleted limit
      none = .ok ranks) :
    ∃ enough, ∀ rounds ≥ enough, RankingPages (memory.Ranked windows includeDeleted) limit
      (followPages (fun round cursor => memory.userTrafficRanking policy (asOf round) fromSecs
        toSecs includeDeleted limit cursor) rankItems (rankMore limit) id rounds 0 none) := by
  cases known : rankingPeriod windows ∅ memory.userTrafficBuckets.toList with
  | error refusal =>
      rw [userTrafficRanking_eq (planned 0) positive, known] at answered
      cases answered
  | ok period =>
      have sums : ∀ username : String,
          period[username]?.getD 0 = memory.selectedBytes windows username := by
        intro username
        rw [rankingPeriod_ok known]
        simp [selectedBytes, Table.sumOver]
      have distinct : ((memory.rankingUsers 0 includeDeleted period).map (·.username)).Nodup := by
        have keys := Table.nodup_keys period
        rw [rankingUsers, List.map_map]
        exact keys.sublist ((List.filter_sublist).map _)
      refine ⟨(memory.rankingUsers 0 includeDeleted period).length + 1, fun rounds enough => ?_⟩
      have pages := @rankingPages_of_cut _ _ positive distinct
        (fun round cursor => memory.userTrafficRanking policy (asOf round) fromSecs toSecs
          includeDeleted limit cursor) ?_ rounds (by omega)
      · refine ⟨pages.ordered, fun user => ?_, pages.answered, pages.last⟩
        rw [pages.complete, mem_rankingUsers sums]
      · intro round last
        refine ⟨_, by rw [userTrafficRanking_eq (planned round) positive, known]; rfl, ?_⟩
        exact map_cursor_rank _ _

end Memory

section Durable

variable {db : SQLiteTraffic} {windows : List TrafficWindow}

/-- The users that a ranking of the durable store lists. -/
def SQLiteTraffic.Ranked (db : SQLiteTraffic) (windows : List TrafficWindow)
    (includeDeleted : Bool) (user : UserTrafficRankCursor) : Prop :=
  user.bytes = db.selectedBytes windows user.username ∧
    (∃ tier ts, trafficSQLPredicate windows ⟨user.username, tier, ts⟩ = true ∧
      db.buckets[(⟨user.username, tier, ts⟩ : UserTrafficBucketKey)]?.isSome = true) ∧
    ∃ row, db.users[user.username]? = some row ∧ (includeDeleted = true ∨ row.deletedTS = none)

theorem SQLiteTraffic.mem_rankingUsers {includeDeleted : Bool} (user : UserTrafficRankCursor) :
    user ∈ db.rankingUsers windows includeDeleted ↔ db.Ranked windows includeDeleted user := by
  have bucket : (db.buckets.keys.any fun key => trafficSQLPredicate windows key &&
      key.userID = user.username) = true ↔
      ∃ tier ts, trafficSQLPredicate windows ⟨user.username, tier, ts⟩ = true ∧
        db.buckets[(⟨user.username, tier, ts⟩ : UserTrafficBucketKey)]?.isSome = true := by
    rw [List.any_eq_true]
    constructor
    · rintro ⟨⟨userID, tier, ts⟩, mem, selected⟩
      rw [Bool.and_eq_true, decide_eq_true_eq] at selected
      rcases selected with ⟨selected, rfl⟩
      refine ⟨tier, ts, selected, ?_⟩
      simpa using mem
    · rintro ⟨tier, ts, selected, present⟩
      refine ⟨⟨user.username, tier, ts⟩, by simpa using present, ?_⟩
      rw [selected, Bool.true_and, decide_eq_true_eq]
  rw [Ranked, ← bucket]
  simp only [rankingUsers, List.mem_map, List.mem_filter, Bool.and_eq_true, Bool.or_eq_true,
    Option.isNone_iff_eq_none]
  constructor
  · rintro ⟨row, ⟨mem, alive, selected⟩, rfl⟩
    exact ⟨rfl, selected, row.2, (Table.mem_toList _ _ _).mp mem, alive⟩
  · rintro ⟨bytes, selected, row, found, alive⟩
    refine ⟨(user.username, row), ⟨(Table.mem_toList _ _ _).mpr found, alive, selected⟩, ?_⟩
    rw [← bytes]

/-- A page of the durable store whose plan is known. -/
theorem SQLiteTraffic.userTrafficRanking_eq {policy : StoragePolicy} {asOf fromSecs toSecs : ℤ}
    {includeDeleted : Bool} {limit : ℤ} {last : Option UserTrafficRankCursor}
    (planned : (planTrafficWindows fromSecs toSecs asOf (trafficReadTiers policy)).map (·.1) =
      .ok windows) (positive : 0 < limit) :
    db.userTrafficRanking policy asOf fromSecs toSecs includeDeleted limit last =
      if (db.rankingUsers windows includeDeleted).any (fun user => user.bytes > maxInt64) then
        .error .sumOverflow
      else .ok ((((Sorter.stable UserTrafficRankCursor.order).sort
        ((db.rankingUsers windows includeDeleted).filter
          (behind UserTrafficRankCursor.order last))).take limit.toNat).map fun user =>
            user.rank (db.summaryAt asOf user.username)) := by
  cases plan : planTrafficWindows fromSecs toSecs asOf (trafficReadTiers policy) with
  | error refusal =>
      rw [plan] at planned
      cases planned
  | ok answer =>
      rw [plan] at planned
      cases planned
      unfold userTrafficRanking ranking
      simp only [plan, Except.mapError, bind, Except.bind]
      rw [if_neg (not_le.mpr positive)]
      split
      · rfl
      · simp only [Except.map, ← behind_order]

/-- Pages of the durable store whose plans agree list every ranked user once and in order. -/
theorem SQLiteTraffic.rankingPages {policy : StoragePolicy} {asOf : ℕ → ℤ} {fromSecs toSecs : ℤ}
    {includeDeleted : Bool} {limit : ℤ} (positive : 0 < limit)
    (planned : ∀ round, (planTrafficWindows fromSecs toSecs (asOf round)
      (trafficReadTiers policy)).map (·.1) = .ok windows) {ranks : List UserTrafficRank}
    (answered : db.userTrafficRanking policy (asOf 0) fromSecs toSecs includeDeleted limit none =
      .ok ranks) :
    ∃ enough, ∀ rounds ≥ enough, RankingPages (db.Ranked windows includeDeleted) limit
      (followPages (fun round cursor => db.userTrafficRanking policy (asOf round) fromSecs toSecs
        includeDeleted limit cursor) rankItems (rankMore limit) id rounds 0 none) := by
  have fits : ¬(db.rankingUsers windows includeDeleted).any
      (fun user => user.bytes > maxInt64) = true := by
    intro overflow
    rw [userTrafficRanking_eq (planned 0) positive, if_pos overflow] at answered
    cases answered
  have distinct : ((db.rankingUsers windows includeDeleted).map (·.username)).Nodup := by
    have keys := Table.nodup_keys db.users
    rw [rankingUsers, List.map_map]
    exact keys.sublist ((List.filter_sublist).map _)
  refine ⟨(db.rankingUsers windows includeDeleted).length + 1, fun rounds enough => ?_⟩
  have pages := @rankingPages_of_cut _ _ positive distinct
    (fun round cursor => db.userTrafficRanking policy (asOf round) fromSecs toSecs includeDeleted
      limit cursor) ?_ rounds (by omega)
  · refine ⟨pages.ordered, fun user => ?_, pages.answered, pages.last⟩
    rw [pages.complete, mem_rankingUsers]
  · intro round last
    refine ⟨_, by rw [userTrafficRanking_eq (planned round) positive, if_neg fits], ?_⟩
    exact map_cursor_rank _ _

end Durable

end TelemtPanel.Store
