import TelemtPanel.Library.Loop
import TelemtPanel.Library.Sorter
import TelemtPanel.Store.Traffic.Ledger

/-!
# The durable traffic store

A snapshot is applied in one transaction.  The rows of all users are read once;
a row is written back only when something visible has changed, which leaves the
month of an idle user behind.  The buckets of all tiers are collected during the
loop and written at its end.

Users have a surrogate key which is identified with the user name here, as the
name is unique.  Deleting a user deletes the buckets that refer to it.
-/

namespace TelemtPanel.Store

open TelemtPanel.Library

/-- Row of `user_traffic_users`, addressed by the user name. -/
structure UserTrafficRow where
  totalBytes : ℤ
  sinceTS : ℤ
  updatedTS : ℤ
  monthKey : ℤ
  monthBytes : ℤ
  lastRawOctets : Option ℤ
  lastSourceStartedAt : Option ℤ
  deletedTS : Option ℤ
  continuity : UserTrafficContinuity
deriving DecidableEq, Repr

/-- Primary key of `user_traffic_buckets`. -/
structure UserTrafficBucketKey where
  userID : String
  tier : Fin 3
  ts : ℤ
deriving DecidableEq, Repr

namespace UserTrafficBucketKey

/-- The primary key orders buckets by user, tier and start. -/
def order (key : UserTrafficBucketKey) : String ×ₗ Fin 3 ×ₗ ℤ :=
  toLex (key.userID, toLex (key.tier, key.ts))

theorem order_injective : Function.Injective order := by
  rintro ⟨userID, tier, ts⟩ ⟨other, otherTier, otherTS⟩ same
  cases same
  rfl

instance : Ord UserTrafficBucketKey := ordOn order

instance : Std.TransOrd UserTrafficBucketKey := transOrd_ordOn order

instance : Std.LawfulEqOrd UserTrafficBucketKey := lawfulEqOrd_ordOn order order_injective

end UserTrafficBucketKey

abbrev UserTrafficUsers : Type := Table String UserTrafficRow

abbrev UserTrafficBuckets : Type := Table UserTrafficBucketKey ℤ

/-- The traffic tables of the durable store. -/
structure SQLiteTraffic where
  users : UserTrafficUsers
  buckets : UserTrafficBuckets
  collector : Option UserTrafficCollectorState

/-- A user as read into memory. -/
structure StoredUserTraffic where
  summary : UserTrafficSummary
  lastRaw : Option ℤ
  lastSourceStart : Option ℤ
deriving DecidableEq, Repr

/-- A bucket to be written. -/
structure UserTrafficBucket where
  key : UserTrafficBucketKey
  bytes : ℤ
deriving DecidableEq, Repr

/-- Whether a user has a bucket of any tier that starts at or after `cutoff`. -/
def hasBucketsSince (buckets : UserTrafficBuckets) (username : String) (cutoff : ℤ) : Bool :=
  buckets.keys.any fun key => key.userID = username ∧ cutoff ≤ key.ts

/-- Whether `pruneTrafficSummariesTx` selects a user. -/
def expiredUserRow (buckets : UserTrafficBuckets) (now retention : ℤ) (username : String)
    (row : UserTrafficRow) : Bool :=
  match row.deletedTS with
  | none => false
  | some deleted =>
      decide (deleted < now - retention) &&
        expiredTrafficSummary { UserTrafficSummary.zero with deletedEpochSecs := deleted }
          (hasBucketsSince buckets username (now - retention)) now retention

/-- Deletes expired users together with their buckets. -/
def pruneTrafficSummariesTx (db : SQLiteTraffic) (now retention : ℤ) : SQLiteTraffic :=
  let expired := expiredUserRow db.buckets now retention
  { db with
    users := db.users.filter fun username row => !expired username row
    buckets := db.buckets.filter fun key _ =>
      !(db.users[key.userID]?.any (expired key.userID)) }

/-- A row as read by `readUserTrafficUsersTx`. -/
def StoredUserTraffic.ofRow (username : String) (row : UserTrafficRow) : StoredUserTraffic where
  summary := ⟨username, row.totalBytes, row.monthBytes, row.monthKey, row.sinceTS, row.updatedTS,
    row.deletedTS.getD 0, row.continuity⟩
  lastRaw := row.lastRawOctets
  lastSourceStart := row.lastSourceStartedAt

def readUserTrafficUsersTx (users : UserTrafficUsers) : Table String StoredUserTraffic :=
  users.map StoredUserTraffic.ofRow

def insertUserTrafficBaselineTx (users : UserTrafficUsers) (summary : UserTrafficSummary)
    (raw sourceStart : ℤ) : UserTrafficUsers :=
  users.insert summary.username ⟨0, summary.observedSinceEpochSecs, 0, summary.monthKey, 0,
    some raw, some sourceStart, none, summary.continuity⟩

/-- Columns written by `updateUserTrafficSummaryTx`. -/
def UserTrafficRow.update (summary : UserTrafficSummary) (raw sourceStart : Option ℤ)
    (row : UserTrafficRow) : UserTrafficRow :=
  { row with
    totalBytes := summary.observedTotalBytes
    updatedTS := summary.lastActivityEpochSecs
    monthKey := summary.monthKey
    monthBytes := summary.currentMonthBytes
    lastRawOctets := raw
    lastSourceStartedAt := sourceStart
    deletedTS := if summary.deletedEpochSecs ≠ 0 then some summary.deletedEpochSecs else none
    continuity := summary.continuity }

def updateUserTrafficSummaryTx (users : UserTrafficUsers) (userID : String)
    (summary : UserTrafficSummary) (raw sourceStart : Option ℤ) : UserTrafficUsers :=
  users.alter userID fun row => row.map (·.update summary raw sourceStart)

def appendUserTrafficBuckets (rows : List UserTrafficBucket) (userID : String) (ts bytes : ℤ) :
    List UserTrafficBucket :=
  rows ++ (List.finRange 3).map fun tier =>
    ⟨⟨userID, tier, bucketStart ts (trafficTierWidth tier)⟩, bytes⟩

/-- The column is strict: a sum that leaves the range is no integer and is refused. -/
def upsertUserTrafficBucket (buckets : UserTrafficBuckets) (row : UserTrafficBucket) :
    Except UserTrafficError UserTrafficBuckets :=
  let bytes := buckets[row.key]?.getD 0 + row.bytes
  if bytes > maxInt64 then .error .upsertBuckets else .ok (buckets.insert row.key bytes)

def upsertUserTrafficBucketsTx (buckets : UserTrafficBuckets) (rows : List UserTrafficBucket) :
    Except UserTrafficError UserTrafficBuckets :=
  rows.foldlM upsertUserTrafficBucket buckets

/-- Refuses a snapshot that is not newer than the last accepted one. -/
def checkUserTrafficStale (collector : Option UserTrafficCollectorState)
    (snapshot : UserTrafficSnapshot) : Except UserTrafficError Unit :=
  match collector with
  | none => .ok ()
  | some collector =>
      if snapshot.observedAt ≤ collector.lastSuccessTS then
        .error (.stale snapshot.observedAt collector.lastSuccessTS)
      else .ok ()

theorem checkUserTrafficStale_ok_iff {collector : Option UserTrafficCollectorState}
    {snapshot : UserTrafficSnapshot} :
    checkUserTrafficStale collector snapshot = .ok () ↔
      ∀ state, collector = some state → state.lastSuccessTS < snapshot.observedAt := by
  rcases collector with _ | collector
  · simp [checkUserTrafficStale]
  · simp only [checkUserTrafficStale, Option.some.injEq, forall_eq']
    split
    · rename_i old
      simp [old]
    · rename_i newer
      simpa using newer

/-- Buckets are written when history is enabled and there are any. -/
def writeUserTrafficBuckets (historyEnabled : Bool) (buckets : UserTrafficBuckets)
    (rows : List UserTrafficBucket) : Except UserTrafficError UserTrafficBuckets :=
  if historyEnabled = true ∧ rows.length > 0 then upsertUserTrafficBucketsTx buckets rows
  else .ok buckets

/-- Data of the transaction that the loop over the users changes. -/
structure SQLiteTrafficWork where
  users : UserTrafficUsers
  stored : Table String StoredUserTraffic
  buckets : List UserTrafficBucket
  deltaBytes : ℤ

/-- Growth of the counter of a user. -/
def StoredUserTraffic.delta (pass : UserTrafficPass) (raw : ℤ) (current : StoredUserTraffic) : ℤ :=
  match current.lastRaw, current.lastSourceStart with
  | some lastRaw, some lastSourceStart =>
      userTrafficDelta lastRaw lastSourceStart raw pass.snapshot.sourceStartedAt
  | _, _ => 0

/-- Whether a snapshot ends the deletion or the continuity of a listed user. -/
abbrev StoredUserTraffic.Revived (pass : UserTrafficPass) (current : StoredUserTraffic) : Prop :=
  current.summary.deletedEpochSecs ≠ 0 ∨
    current.summary.continuity ≠ pass.merge current.summary.continuity

/-- Whether the row of a listed user is written back. -/
abbrev StoredUserTraffic.Changed (pass : UserTrafficPass) (raw delta : ℤ)
    (current : StoredUserTraffic) : Prop :=
  delta > 0 ∨ current.lastRaw ≠ some raw ∨
    current.lastSourceStart ≠ some pass.snapshot.sourceStartedAt ∨ current.Revived pass

/-- The body of the loop over the users of a snapshot. -/
def applySQLiteObservation (pass : UserTrafficPass) (work : SQLiteTrafficWork)
    (observation : UserTrafficObservation) : Except UserTrafficError SQLiteTrafficWork :=
  let username := observation.username
  let raw : ℤ := observation.rawOctets
  let sourceStart := pass.snapshot.sourceStartedAt
  match work.stored[username]? with
  | none =>
      if pass.snapshot.telemetryEnabled = false then .ok work
      else
        let summary : UserTrafficSummary :=
          ⟨username, 0, 0, pass.monthKey, pass.snapshot.observedAt, 0, 0, pass.continuity⟩
        .ok { work with
          users := insertUserTrafficBaselineTx work.users summary raw sourceStart
          stored := work.stored.insert username ⟨summary, some raw, some sourceStart⟩ }
  | some current =>
      let continuity := pass.merge current.summary.continuity
      if pass.snapshot.telemetryEnabled = false then
        if current.Revived pass then
          .ok { work with
            users := updateUserTrafficSummaryTx work.users username
              { current.summary with deletedEpochSecs := 0, continuity := continuity }
              current.lastRaw current.lastSourceStart }
        else .ok work
      else
        let delta := current.delta pass raw
        if delta > maxInt64 - current.summary.observedTotalBytes then
          .error (.accumulatedExceedsInt64 username)
        else if delta > maxInt64 - work.deltaBytes then .error .deltaExceedsInt64
        else if work.deltaBytes > maxInt64 - delta then .error .aggregateExceedsInt64
        else
          let total := current.summary.observedTotalBytes + delta
          match { current.summary with observedTotalBytes := total }.accrueMonth
              pass.monthKey delta with
          | none => .error (.monthlyExceedsInt64 username)
          | some accrued =>
              let summary := { accrued with
                lastActivityEpochSecs :=
                  if delta > 0 then pass.snapshot.observedAt
                  else accrued.lastActivityEpochSecs
                deletedEpochSecs := 0
                continuity := continuity }
              .ok { work with
                users :=
                  if current.Changed pass raw delta then
                    updateUserTrafficSummaryTx work.users username summary (some raw)
                      (some sourceStart)
                  else work.users
                buckets :=
                  if delta > 0 ∧ pass.historyEnabled = true then
                    appendUserTrafficBuckets work.buckets username pass.snapshot.observedAt delta
                  else work.buckets
                deltaBytes := if delta > 0 then work.deltaBytes + delta else work.deltaBytes }

/-- Stored users that the snapshot does not list become deleted. -/
def markSQLiteDeleted (snapshot : UserTrafficSnapshot) (stored : Table String StoredUserTraffic)
    (users : UserTrafficUsers) : UserTrafficUsers :=
  users.map fun username row =>
    match stored[username]? with
    | none => row
    | some current =>
        if snapshot.lists username = true ∨ current.summary.deletedEpochSecs ≠ 0 then row
        else { row with deletedTS := some snapshot.observedAt }

namespace SQLiteTraffic

def empty : SQLiteTraffic := ⟨∅, ∅, none⟩

/-- Tables and copies at the start of the loop. -/
def begin (policy : StoragePolicy) (db : SQLiteTraffic) (now : ℤ) : SQLiteTrafficWork :=
  let pruned := pruneTrafficSummariesTx db now (retentionSecs policy)
  ⟨pruned.users, readUserTrafficUsersTx pruned.users, [], 0⟩

/-- Tables at the end of the transaction: missing users are marked and expired ones deleted. -/
def finish (policy : StoragePolicy) (pass : UserTrafficPass) (work : SQLiteTrafficWork)
    (buckets : UserTrafficBuckets) : SQLiteTraffic :=
  pruneTrafficSummariesTx
    { users := markSQLiteDeleted pass.snapshot work.stored work.users
      buckets := buckets
      collector := some pass.collector } pass.snapshot.observedAt (retentionSecs policy)

/-- The body of the transaction. -/
def applyUserTrafficSnapshotTx (policy : StoragePolicy) (db : SQLiteTraffic)
    (snapshot : UserTrafficSnapshot) : Except UserTrafficError (ℤ × SQLiteTraffic) := do
  checkUserTrafficStale db.collector snapshot
  let pass := userTrafficPass policy.enabled db.collector snapshot
  let pruned := pruneTrafficSummariesTx db snapshot.observedAt (retentionSecs policy)
  let work ← snapshot.users.foldlM (applySQLiteObservation pass)
    (db.begin policy snapshot.observedAt)
  let buckets ← writeUserTrafficBuckets policy.enabled pruned.buckets work.buckets
  .ok (work.deltaBytes, finish policy pass work buckets)

/-- `SQLite.ApplyUserTrafficSnapshotContext`: the accepted bytes and the committed tables. -/
def applyUserTrafficSnapshot (policy : StoragePolicy) (db : SQLiteTraffic)
    (snapshot : UserTrafficSnapshot) : Except UserTrafficError (ℤ × SQLiteTraffic) := do
  validateUserTrafficSnapshot snapshot
  (db.applyUserTrafficSnapshotTx policy snapshot).mapError .applySnapshot

/-- Summaries of a read snapshot taken at a given time. -/
def summaries (db : SQLiteTraffic) (asOf : ℤ) : Table String UserTrafficSummary :=
  db.users.map fun username row =>
    (StoredUserTraffic.ofRow username row).summary.readIn (utcMonthKey asOf)

/-- `SQLite.UserTrafficCollectorState` -/
def collectorState (db : SQLiteTraffic) : UserTrafficCollectorState := db.collector.getD .absent

/-- Raw baseline of a user: the last accepted counter and the start of its process. -/
def baseline (db : SQLiteTraffic) (username : String) : Option (ℤ × ℤ) :=
  db.users[username]?.bind fun row =>
    match row.lastRawOctets, row.lastSourceStartedAt with
    | some lastRaw, some lastSourceStart => some (lastRaw, lastSourceStart)
    | _, _ => none

/-- `SQLite.DeleteUserHistoryContext` -/
def deleteUserHistory (db : SQLiteTraffic) (username : String) : SQLiteTraffic :=
  { db with
    users := db.users.erase username
    buckets := db.buckets.filter fun key _ => !decide (key.userID = username) }

/-- `SQLite.ResetUserTrafficContext` -/
def resetUserTraffic (_ : SQLiteTraffic) : SQLiteTraffic := empty

end SQLiteTraffic

section Loop

variable {pass : UserTrafficPass}

/-- What the loop owns for one user: the copy, the row, and the bytes to be written. -/
structure SQLiteTrafficRow where
  stored : Option StoredUserTraffic
  user : Option UserTrafficRow
  appended : Fin 3 → ℤ → ℤ

namespace StoredUserTraffic

/-- Bytes that a listed user contributes. -/
def gain (pass : UserTrafficPass) (raw : ℤ) : Option StoredUserTraffic → ℤ
  | none => 0
  | some current => if pass.snapshot.telemetryEnabled = false then 0 else current.delta pass raw

theorem delta_nonneg (pass : UserTrafficPass) {raw : ℤ} (nonneg : 0 ≤ raw)
    (current : StoredUserTraffic) :
    0 ≤ current.delta pass raw := by
  simp only [delta]
  split
  · exact userTrafficDelta_nonneg nonneg _ _
  · exact le_rfl

theorem gain_nonneg (pass : UserTrafficPass) {raw : ℤ} (nonneg : 0 ≤ raw)
    (stored : Option StoredUserTraffic) :
    0 ≤ gain pass raw stored := by
  rcases stored with _ | current
  · exact le_rfl
  simp only [gain]
  split
  · exact le_rfl
  · exact delta_nonneg pass nonneg current

/-- Summary of a listed user whose counter has grown by `delta`. -/
def settle (pass : UserTrafficPass) (delta : ℤ) (current : StoredUserTraffic) :
    UserTrafficSummary :=
  { current.summary with
    observedTotalBytes := current.summary.observedTotalBytes + delta
    monthKey := pass.monthKey
    currentMonthBytes := (if current.summary.monthKey = pass.monthKey then
      current.summary.currentMonthBytes else 0) + delta
    lastActivityEpochSecs :=
      if delta > 0 then pass.snapshot.observedAt else current.summary.lastActivityEpochSecs
    deletedEpochSecs := 0
    continuity := pass.merge current.summary.continuity }

/-- The update made for a listed user, if any. -/
def write (pass : UserTrafficPass) (raw : ℤ) (current : StoredUserTraffic) :
    Option (UserTrafficRow → UserTrafficRow) :=
  if pass.snapshot.telemetryEnabled = false then
    if current.Revived pass then
      some (·.update { current.summary with
        deletedEpochSecs := 0, continuity := pass.merge current.summary.continuity }
        current.lastRaw current.lastSourceStart)
    else none
  else if current.Changed pass raw (current.delta pass raw) then
    some (·.update (current.settle pass (current.delta pass raw)) (some raw)
      (some pass.snapshot.sourceStartedAt))
  else none

/-- A user that is listed for the first time. -/
def first (pass : UserTrafficPass) (username : String) (raw : ℤ) : StoredUserTraffic :=
  ⟨⟨username, 0, 0, pass.monthKey, pass.snapshot.observedAt, 0, 0, pass.continuity⟩, some raw,
    some pass.snapshot.sourceStartedAt⟩

/-- Total of a possibly absent user. -/
def total (stored : Option StoredUserTraffic) : ℤ :=
  (stored.map (·.summary.observedTotalBytes)).getD 0

end StoredUserTraffic

/-- Row inserted for a user that is listed for the first time. -/
def UserTrafficRow.first (pass : UserTrafficPass) (raw : ℤ) : UserTrafficRow :=
  ⟨0, pass.snapshot.observedAt, 0, pass.monthKey, 0, some raw,
    some pass.snapshot.sourceStartedAt, none, pass.continuity⟩

namespace SQLiteTrafficWork

/-- What the body of the loop checks. -/
structure Accepts (pass : UserTrafficPass) (work : SQLiteTrafficWork)
    (current : StoredUserTraffic) (delta : ℤ) : Prop where
  total : current.summary.observedTotalBytes + delta ≤ maxInt64
  sum : work.deltaBytes + delta ≤ maxInt64
  month : current.summary.monthKey = pass.monthKey →
    current.summary.currentMonthBytes + delta ≤ maxInt64

/-- What the body of the loop makes of the data of the transaction. -/
def next (pass : UserTrafficPass) (work : SQLiteTrafficWork)
    (observation : UserTrafficObservation) : SQLiteTrafficWork :=
  let username := observation.username
  let raw : ℤ := observation.rawOctets
  let delta := StoredUserTraffic.gain pass raw work.stored[username]?
  { users :=
      match work.stored[username]? with
      | none =>
          if pass.snapshot.telemetryEnabled = false then work.users
          else work.users.insert username (.first pass raw)
      | some current =>
          match current.write pass raw with
          | none => work.users
          | some change => work.users.alter username (Option.map change)
    stored :=
      if work.stored[username]? = none ∧ pass.snapshot.telemetryEnabled = true then
        work.stored.insert username (.first pass username raw)
      else work.stored
    buckets :=
      if delta > 0 ∧ pass.historyEnabled = true then
        appendUserTrafficBuckets work.buckets username pass.snapshot.observedAt delta
      else work.buckets
    deltaBytes := work.deltaBytes + delta }

end SQLiteTrafficWork

/-- The body of the loop, in one equation. -/
theorem applySQLiteObservation_eq_ok_iff {work result : SQLiteTrafficWork}
    {observation : UserTrafficObservation} :
    applySQLiteObservation pass work observation = .ok result ↔
      (∀ current, work.stored[observation.username]? = some current →
        pass.snapshot.telemetryEnabled = true →
          work.Accepts pass current (current.delta pass observation.rawOctets)) ∧
        work.next pass observation = result := by
  simp only [applySQLiteObservation, SQLiteTrafficWork.next]
  cases found : work.stored[observation.username]? with
  | none =>
      simp only [reduceCtorEq, false_implies, implies_true, true_and, StoredUserTraffic.gain,
        gt_iff_lt, lt_irrefl, false_and, ↓reduceIte, add_zero]
      by_cases paused : pass.snapshot.telemetryEnabled = false
      · simp [paused]
      · simp [paused, insertUserTrafficBaselineTx, StoredUserTraffic.first, UserTrafficRow.first]
  | some current =>
      by_cases paused : pass.snapshot.telemetryEnabled = false
      · simp only [paused, ↓reduceIte, Bool.false_eq_true, false_implies, implies_true, true_and,
          StoredUserTraffic.gain, StoredUserTraffic.write, reduceCtorEq, false_and, gt_iff_lt,
          lt_irrefl, add_zero, updateUserTrafficSummaryTx]
        split <;> simp
      have active : pass.snapshot.telemetryEnabled = true := by simpa using paused
      have nonneg : 0 ≤ current.delta pass observation.rawOctets :=
        StoredUserTraffic.delta_nonneg pass (Int.natCast_nonneg _) current
      simp only [active, Bool.true_eq_false, ↓reduceIte, Option.some.injEq, forall_eq',
        forall_const, StoredUserTraffic.gain, StoredUserTraffic.write, reduceCtorEq, false_and]
      generalize current.delta pass observation.rawOctets = delta at nonneg
      have sumEq : (if delta > 0 then work.deltaBytes + delta else work.deltaBytes) =
          work.deltaBytes + delta := by
        split <;> omega
      constructor
      · intro done
        split at done
        · cases done
        split at done
        · cases done
        split at done
        · cases done
        rename_i totalFits sumFits _
        split at done
        · cases done
        rename_i accrued isAccrued
        rcases UserTrafficSummary.accrueMonth_eq_some_iff.mp isAccrued with ⟨month, rfl⟩
        cases done
        refine ⟨⟨by omega, by omega, month⟩, ?_⟩
        rw [sumEq]
        by_cases changed : current.Changed pass observation.rawOctets delta
        · rw [if_pos changed, if_pos changed]
          rfl
        · rw [if_neg changed, if_neg changed]
      · rintro ⟨accepted, rfl⟩
        have total := accepted.total
        have sum := accepted.sum
        have accrued := (@UserTrafficSummary.accrueMonth_eq_some_iff
          { current.summary with
            observedTotalBytes := current.summary.observedTotalBytes + delta } _
          pass.monthKey delta).mpr ⟨accepted.month, rfl⟩
        rw [if_neg (by omega), if_neg (by omega), if_neg (by omega), accrued]
        dsimp only
        rw [sumEq]
        by_cases changed : current.Changed pass observation.rawOctets delta
        · rw [if_pos changed, if_pos changed]
          rfl
        · rw [if_neg changed, if_neg changed]

/-- Bytes that a list of rows adds to a bucket. -/
def appendedBytes (rows : List UserTrafficBucket) (key : UserTrafficBucketKey) : ℤ :=
  ((rows.filter (·.key = key)).map (·.bytes)).sum

@[simp]
theorem appendedBytes_nil (key : UserTrafficBucketKey) : appendedBytes [] key = 0 := rfl

theorem appendedBytes_cons (row : UserTrafficBucket) (rows : List UserTrafficBucket)
    (key : UserTrafficBucketKey) :
    appendedBytes (row :: rows) key =
      (if row.key = key then row.bytes else 0) + appendedBytes rows key := by
  simp only [appendedBytes, List.filter_cons, decide_eq_true_eq]
  split <;> simp

theorem appendedBytes_append (rows more : List UserTrafficBucket) (key : UserTrafficBucketKey) :
    appendedBytes (rows ++ more) key = appendedBytes rows key + appendedBytes more key := by
  simp [appendedBytes]

theorem appendedBytes_nonneg {rows : List UserTrafficBucket}
    (positive : ∀ row ∈ rows, 0 < row.bytes) (key : UserTrafficBucketKey) :
    0 ≤ appendedBytes rows key := by
  apply List.sum_nonneg
  intro bytes mem
  rcases List.mem_map.mp mem with ⟨row, rowMem, rfl⟩
  exact (positive row (List.mem_of_mem_filter rowMem)).le

/-- A delta is appended once per tier. -/
theorem appendedBytes_appendUserTrafficBuckets (rows : List UserTrafficBucket) (userID : String)
    (observedAt bytes : ℤ) (other : String) (tier : Fin 3) (ts : ℤ) :
    appendedBytes (appendUserTrafficBuckets rows userID observedAt bytes) ⟨other, tier, ts⟩ =
      appendedBytes rows ⟨other, tier, ts⟩ +
        if userID = other ∧ ts = bucketStart observedAt (trafficTierWidth tier) then bytes
        else 0 := by
  rw [appendUserTrafficBuckets, appendedBytes_append]
  congr 1
  have tiers : List.finRange 3 = [0, 1, 2] := rfl
  simp only [tiers, List.map_cons, List.map_nil, appendedBytes_cons, appendedBytes_nil,
    UserTrafficBucketKey.mk.injEq]
  fin_cases tier <;> simp [eq_comm]

theorem upsertUserTrafficBucket_eq_ok_iff {buckets next : UserTrafficBuckets}
    {row : UserTrafficBucket} :
    upsertUserTrafficBucket buckets row = .ok next ↔
      buckets[row.key]?.getD 0 + row.bytes ≤ maxInt64 ∧
        buckets.insert row.key (buckets[row.key]?.getD 0 + row.bytes) = next := by
  simp only [upsertUserTrafficBucket]
  split
  · rename_i overflow
    simp only [reduceCtorEq, false_iff, not_and]
    omega
  · rename_i fits
    simp only [Except.ok.injEq, iff_and_self]
    omega

/-- Writing one row credits its bucket. -/
theorem lookup_upsertUserTrafficBucket {buckets next : UserTrafficBuckets}
    {row : UserTrafficBucket} (positive : 0 < row.bytes)
    (written : upsertUserTrafficBucket buckets row = .ok next) (key : UserTrafficBucketKey) :
    next[key]? = credit buckets[key]? (if row.key = key then row.bytes else 0) := by
  rw [← (upsertUserTrafficBucket_eq_ok_iff.mp written).2, Table.lookup_insert]
  split
  · rename_i same
    simp [credit, positive, same]
  · simp

/-- The first row of a successful write. -/
theorem exists_of_upsert_cons {buckets result : UserTrafficBuckets} {row : UserTrafficBucket}
    {rows : List UserTrafficBucket}
    (written : upsertUserTrafficBucketsTx buckets (row :: rows) = .ok result) :
    ∃ next, upsertUserTrafficBucket buckets row = .ok next ∧
      upsertUserTrafficBucketsTx next rows = .ok result := by
  simp only [upsertUserTrafficBucketsTx, List.foldlM_cons, bind, Except.bind] at written
  split at written
  · cases written
  · rename_i next first
    exact ⟨next, first, written⟩

/-- Writing rows credits every bucket with the bytes of its rows. -/
theorem lookup_upsertUserTrafficBucketsTx {buckets result : UserTrafficBuckets}
    {rows : List UserTrafficBucket} (positive : ∀ row ∈ rows, 0 < row.bytes)
    (written : upsertUserTrafficBucketsTx buckets rows = .ok result)
    (key : UserTrafficBucketKey) :
    result[key]? = credit buckets[key]? (appendedBytes rows key) := by
  induction rows generalizing buckets with
  | nil =>
      cases written
      simp
  | cons row rows ih =>
      rcases exists_of_upsert_cons written with ⟨next, first, rest⟩
      rcases List.forall_mem_cons.mp positive with ⟨rowPositive, restPositive⟩
      rw [ih restPositive rest, lookup_upsertUserTrafficBucket rowPositive first,
        credit_credit _ (appendedBytes_nonneg restPositive key), appendedBytes_cons]
      split <;> omega

/-- Rows are written when no bucket overflows. -/
theorem exists_upsertUserTrafficBucketsTx {buckets : UserTrafficBuckets}
    {rows : List UserTrafficBucket} (positive : ∀ row ∈ rows, 0 < row.bytes)
    (fits : ∀ key : UserTrafficBucketKey,
      buckets[key]?.getD 0 + appendedBytes rows key ≤ maxInt64) :
    ∃ result, upsertUserTrafficBucketsTx buckets rows = .ok result := by
  induction rows generalizing buckets with
  | nil => exact ⟨buckets, rfl⟩
  | cons row rows ih =>
      rcases List.forall_mem_cons.mp positive with ⟨rowPositive, restPositive⟩
      have rowFits := fits row.key
      rw [appendedBytes_cons, if_pos rfl] at rowFits
      have restNonneg := appendedBytes_nonneg restPositive row.key
      have first : upsertUserTrafficBucket buckets row =
          .ok (buckets.insert row.key (buckets[row.key]?.getD 0 + row.bytes)) :=
        upsertUserTrafficBucket_eq_ok_iff.mpr ⟨by omega, rfl⟩
      have restFits : ∀ key : UserTrafficBucketKey,
          (buckets.insert row.key (buckets[row.key]?.getD 0 + row.bytes))[key]?.getD 0 +
            appendedBytes rows key ≤ maxInt64 := by
        intro key
        rw [lookup_upsertUserTrafficBucket rowPositive first, credit_getD (by split <;> omega),
          add_assoc, ← appendedBytes_cons]
        exact fits key
      rcases ih restPositive restFits with ⟨result, rest⟩
      refine ⟨result, ?_⟩
      simp only [upsertUserTrafficBucketsTx, List.foldlM_cons, bind, Except.bind, first]
      exact rest

namespace SQLiteTrafficWork

/-- Copy, row and appended bytes of a user. -/
def row (work : SQLiteTrafficWork) (username : String) : SQLiteTrafficRow :=
  ⟨work.stored[username]?, work.users[username]?,
    fun tier ts => appendedBytes work.buckets ⟨username, tier, ts⟩⟩

end SQLiteTrafficWork

/-- Row of a listed user after the loop. -/
def SQLiteTrafficRow.observe (pass : UserTrafficPass) (observation : UserTrafficObservation)
    (row : SQLiteTrafficRow) : SQLiteTrafficRow where
  stored :=
    if row.stored = none ∧ pass.snapshot.telemetryEnabled = true then
      some (.first pass observation.username observation.rawOctets)
    else row.stored
  user :=
    match row.stored with
    | none =>
        if pass.snapshot.telemetryEnabled = false then row.user
        else some (.first pass observation.rawOctets)
    | some current =>
        match current.write pass observation.rawOctets with
        | none => row.user
        | some change => row.user.map change
  appended tier ts :=
    if pass.historyEnabled = true ∧
        ts = bucketStart pass.snapshot.observedAt (trafficTierWidth tier) then
      row.appended tier ts + StoredUserTraffic.gain pass observation.rawOctets row.stored
    else row.appended tier ts

theorem SQLiteTrafficWork.row_next (work : SQLiteTrafficWork)
    (observation : UserTrafficObservation) :
    (work.next pass observation).row = Function.update work.row observation.username
      ((work.row observation.username).observe pass observation) := by
  funext username
  by_cases same : observation.username = username
  · subst same
    rw [Function.update_self]
    simp only [row, SQLiteTrafficRow.observe, SQLiteTrafficRow.mk.injEq]
    refine ⟨?_, ?_, ?_⟩
    · simp only [next]
      split
      · rename_i absent
        rw [Table.lookup_insert, if_pos rfl]
        exact (if_pos absent).symm
      · rename_i present
        exact (if_neg present).symm
    · simp only [next]
      cases work.stored[observation.username]? with
      | none =>
          dsimp only
          split <;> simp
      | some current =>
          cases written : current.write pass observation.rawOctets with
          | none => simp [written]
          | some change => simp [written]
    · funext tier ts
      have nonneg := StoredUserTraffic.gain_nonneg pass
        (Int.natCast_nonneg observation.rawOctets) work.stored[observation.username]?
      simp only [next]
      generalize StoredUserTraffic.gain pass observation.rawOctets
        work.stored[observation.username]? = delta at nonneg
      by_cases enabled : pass.historyEnabled = true
      · by_cases positive : delta > 0
        · simp only [enabled, positive, and_self, ↓reduceIte, true_and,
            appendedBytes_appendUserTrafficBuckets]
          split <;> simp
        · have zero : delta = 0 := by omega
          simp [zero]
      · simp [enabled]
  · rw [Function.update_of_ne (Ne.symm same)]
    simp only [row, SQLiteTrafficRow.mk.injEq]
    refine ⟨?_, ?_, ?_⟩
    · simp only [next]
      split
      · rw [Table.lookup_insert, if_neg same]
      · rfl
    · simp only [next]
      split
      · split
        · rfl
        · rw [Table.lookup_insert, if_neg same]
      · split
        · rfl
        · rw [Table.lookup_alter, if_neg same]
    · funext tier ts
      simp only [next]
      split
      · simp [appendedBytes_appendUserTrafficBuckets, same]
      · rfl

/-- The loop over the users of a snapshot. -/
def sqliteLoop (pass : UserTrafficPass) :
    KeyedLoop SQLiteTrafficWork UserTrafficObservation String SQLiteTrafficRow
      UserTrafficError where
  step := applySQLiteObservation pass
  key := UserTrafficObservation.username
  row := SQLiteTrafficWork.row
  change := SQLiteTrafficRow.observe pass
  gauge := SQLiteTrafficWork.deltaBytes
  gain observation row := StoredUserTraffic.gain pass observation.rawOctets row.stored
  row_step := by
    intro work next observation stepped
    rw [← (applySQLiteObservation_eq_ok_iff.mp stepped).2, SQLiteTrafficWork.row_next]
  gauge_step := by
    intro work next observation stepped
    rw [← (applySQLiteObservation_eq_ok_iff.mp stepped).2]
    rfl

/-- Bounds of a row under which only totals can overflow. -/
structure SQLiteTrafficRow.Sound (pass : UserTrafficPass) (row : SQLiteTrafficRow) : Prop where
  month_le : ∀ current, row.stored = some current → current.summary.monthKey = pass.monthKey →
    current.summary.currentMonthBytes ≤ current.summary.observedTotalBytes
  total_le : ∀ current, row.stored = some current →
    current.summary.observedTotalBytes ≤ maxInt64

/-- On sound rows the loop succeeds exactly when every total and the sum of the deltas fit. -/
theorem sqliteLoop_ok_iff {work : SQLiteTrafficWork} {users : List UserTrafficObservation}
    (within : work.deltaBytes ≤ maxInt64)
    (sound : ∀ user ∈ users, (work.row user.username).Sound pass)
    (distinct : (users.map (·.username)).Nodup) :
    (∃ final, users.foldlM (applySQLiteObservation pass) work = .ok final) ↔
      (∀ user ∈ users, StoredUserTraffic.total work.stored[user.username]? +
        StoredUserTraffic.gain pass user.rawOctets work.stored[user.username]? ≤ maxInt64) ∧
      work.deltaBytes + (users.map fun user =>
        StoredUserTraffic.gain pass user.rawOctets work.stored[user.username]?).sum ≤
          maxInt64 := by
  refine (sqliteLoop pass).run_ok_iff maxInt64
    (fun user row => StoredUserTraffic.total row.stored +
      StoredUserTraffic.gain pass user.rawOctets row.stored ≤ maxInt64)
    (SQLiteTrafficRow.Sound pass) ?_ ?_ within sound distinct
  · intro user row _
    exact StoredUserTraffic.gain_nonneg pass (Int.natCast_nonneg _) _
  · intro work user within sound
    simp only [sqliteLoop, applySQLiteObservation_eq_ok_iff, exists_eq_right',
      SQLiteTrafficWork.row] at within sound ⊢
    cases found : work.stored[user.username]? with
    | none =>
        simpa [StoredUserTraffic.total, StoredUserTraffic.gain, maxInt64_nonneg] using within
    | some current =>
        rw [found] at sound
        have month := sound.month_le current rfl
        have total := sound.total_le current rfl
        by_cases paused : pass.snapshot.telemetryEnabled = false
        · simpa [StoredUserTraffic.total, StoredUserTraffic.gain, paused] using ⟨total, within⟩
        have active : pass.snapshot.telemetryEnabled = true := by simpa using paused
        simp only [Option.some.injEq, forall_eq', active, forall_const, StoredUserTraffic.total,
          StoredUserTraffic.gain, Bool.true_eq_false, ↓reduceIte, Option.map_some,
          Option.getD_some]
        constructor
        · intro accepted
          exact ⟨accepted.total, accepted.sum⟩
        · rintro ⟨totalFits, sumFits⟩
          refine ⟨totalFits, sumFits, fun sameMonth => ?_⟩
          exact (Int.add_le_add_right (month sameMonth) _).trans totalFits

/-- The loop only collects positive deltas. -/
theorem sqliteLoop_positive {work final : SQLiteTrafficWork} {users : List UserTrafficObservation}
    (done : users.foldlM (applySQLiteObservation pass) work = .ok final)
    (initially : ∀ row ∈ work.buckets, 0 < row.bytes) : ∀ row ∈ final.buckets, 0 < row.bytes := by
  refine (sqliteLoop pass).invariant_run (fun work => ∀ row ∈ work.buckets, 0 < row.bytes)
    ?_ done initially
  intro work next observation stepped positive row mem
  rw [← (applySQLiteObservation_eq_ok_iff.mp stepped).2] at mem
  simp only [SQLiteTrafficWork.next] at mem
  split at mem
  · rename_i credited
    rw [appendUserTrafficBuckets, List.mem_append] at mem
    rcases mem with old | fresh
    · exact positive row old
    · rcases List.mem_map.mp fresh with ⟨tier, -, rfl⟩
      exact credited.1
  · exact positive row mem

section Result

variable {snapshot : UserTrafficSnapshot} {work final : SQLiteTrafficWork}

theorem sqliteLoop_row_of_unlisted
    (done : snapshot.users.foldlM (applySQLiteObservation pass) work = .ok final)
    {username : String} (unlisted : snapshot.rawOf username = none) :
    final.row username = work.row username :=
  (sqliteLoop pass).row_run_of_notMem done (UserTrafficSnapshot.rawOf_eq_none_iff.mp unlisted)

theorem sqliteLoop_row_of_listed
    (done : snapshot.users.foldlM (applySQLiteObservation pass) work = .ok final)
    (distinct : (snapshot.users.map (·.username)).Nodup)
    {user : UserTrafficObservation} (mem : user ∈ snapshot.users) :
    final.row user.username = (work.row user.username).observe pass user :=
  (sqliteLoop pass).row_run_of_mem done distinct mem

/-- Bytes that the loop adds for a user. -/
def SQLiteTrafficWork.gainOf (pass : UserTrafficPass) (work : SQLiteTrafficWork)
    (username : String) : ℤ :=
  match pass.snapshot.rawOf username with
  | none => 0
  | some raw => StoredUserTraffic.gain pass raw work.stored[username]?

/-- Bytes collected by the loop, bucket by bucket. -/
theorem sqliteLoop_appended (same : pass.snapshot = snapshot)
    (done : snapshot.users.foldlM (applySQLiteObservation pass) work = .ok final)
    (distinct : (snapshot.users.map (·.username)).Nodup) (username : String) (tier : Fin 3)
    (ts : ℤ) :
    appendedBytes final.buckets ⟨username, tier, ts⟩ =
      appendedBytes work.buckets ⟨username, tier, ts⟩ +
        if pass.historyEnabled = true ∧
            ts = bucketStart pass.snapshot.observedAt (trafficTierWidth tier) then
          work.gainOf pass username
        else 0 := by
  simp only [SQLiteTrafficWork.gainOf, same]
  cases listed : snapshot.rawOf username with
  | none =>
      rw [ite_self, add_zero]
      exact congrFun (congrFun (congrArg SQLiteTrafficRow.appended
        (sqliteLoop_row_of_unlisted done listed)) tier) ts
  | some raw =>
      rcases UserTrafficSnapshot.exists_of_rawOf listed with ⟨user, mem, rfl, rfl⟩
      refine (congrFun (congrFun (congrArg SQLiteTrafficRow.appended
        (sqliteLoop_row_of_listed done distinct mem)) tier) ts).trans ?_
      simp only [SQLiteTrafficRow.observe, SQLiteTrafficWork.row, same]
      split
      · rfl
      · rw [add_zero]

/-- Collected bytes reach the buckets. -/
theorem lookup_writeUserTrafficBuckets (same : pass.snapshot = snapshot)
    (done : snapshot.users.foldlM (applySQLiteObservation pass) work = .ok final)
    (distinct : (snapshot.users.map (·.username)).Nodup) (nothing : work.buckets = [])
    {buckets written : UserTrafficBuckets}
    (isWritten : writeUserTrafficBuckets pass.historyEnabled buckets final.buckets = .ok written)
    (username : String) (tier : Fin 3) (ts : ℤ) :
    written[(⟨username, tier, ts⟩ : UserTrafficBucketKey)]? =
      if pass.historyEnabled = true ∧
          ts = bucketStart pass.snapshot.observedAt (trafficTierWidth tier) then
        credit buckets[(⟨username, tier, ts⟩ : UserTrafficBucketKey)]?
          (work.gainOf pass username)
      else buckets[(⟨username, tier, ts⟩ : UserTrafficBucketKey)]? := by
  have positive := sqliteLoop_positive done (by simp [nothing])
  have appended := sqliteLoop_appended same done distinct username tier ts
  rw [nothing, appendedBytes_nil, zero_add] at appended
  have credited : written[(⟨username, tier, ts⟩ : UserTrafficBucketKey)]? =
      credit buckets[(⟨username, tier, ts⟩ : UserTrafficBucketKey)]?
        (appendedBytes final.buckets ⟨username, tier, ts⟩) := by
    simp only [writeUserTrafficBuckets] at isWritten
    split at isWritten
    · exact lookup_upsertUserTrafficBucketsTx positive isWritten _
    · rename_i unwritten
      cases isWritten
      rw [appended]
      by_cases enabled : pass.historyEnabled = true
      · have empty : final.buckets = [] := by
          simpa [enabled] using unwritten
        rw [← appended, empty, appendedBytes_nil, credit_zero]
      · rw [if_neg (fun here => enabled here.1), credit_zero]
  rw [credited, appended]
  split
  · rfl
  · exact credit_zero _

end Result

end Loop

namespace SQLiteTraffic

variable {policy : StoragePolicy} {db : SQLiteTraffic} {snapshot : UserTrafficSnapshot}

/-- A snapshot is accepted when it is valid, not stale, its loop succeeds and its buckets
can be written. -/
theorem applyUserTrafficSnapshot_eq_ok_iff {result : ℤ × SQLiteTraffic} :
    db.applyUserTrafficSnapshot policy snapshot = .ok result ↔
      snapshot.Valid ∧
      (∀ collector, db.collector = some collector →
        collector.lastSuccessTS < snapshot.observedAt) ∧
      ∃ work, snapshot.users.foldlM
          (applySQLiteObservation (userTrafficPass policy.enabled db.collector snapshot))
          (db.begin policy snapshot.observedAt) = .ok work ∧
        ∃ buckets, writeUserTrafficBuckets policy.enabled
            (pruneTrafficSummariesTx db snapshot.observedAt (retentionSecs policy)).buckets
            work.buckets = .ok buckets ∧
          (work.deltaBytes, finish policy
            (userTrafficPass policy.enabled db.collector snapshot) work buckets) = result := by
  simp only [applyUserTrafficSnapshot, applyUserTrafficSnapshotTx]
  cases validated : validateUserTrafficSnapshot snapshot with
  | error refusal =>
      have invalid : ¬snapshot.Valid := by
        rw [← validateUserTrafficSnapshot_ok_iff, validated]
        simp
      simp [bind, Except.bind, invalid]
  | ok _ =>
      have valid := validateUserTrafficSnapshot_ok_iff.mp validated
      rw [← checkUserTrafficStale_ok_iff]
      cases checked : checkUserTrafficStale db.collector snapshot with
      | error refusal => simp [bind, Except.bind, Except.mapError]
      | ok _ =>
          simp only [bind, Except.bind, valid, true_and]
          split
          · rename_i refusal failed
            simp [failed, Except.mapError]
          · rename_i work done
            split
            · rename_i refusal failed
              simp [done, failed, Except.mapError]
            · rename_i buckets written
              simp [done, written, Except.mapError]

end SQLiteTraffic

end TelemtPanel.Store
