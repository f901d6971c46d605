import TelemtPanel.Store.Traffic.SQLite

/-!
# The durable traffic store refines the ledger

As long as no tombstone reaches the age of a day, every row of the store is the
account of the ledger, read in the month of the last observation, and the buckets
of every tier hold the bytes of the ledger.

A row that is not written back because nothing visible has changed still shows
the same account: an unchanged counter adds nothing, and the bytes of a month
that has passed are read as zero.
-/

namespace TelemtPanel.Store

open TelemtPanel.Library

section Rows

variable {pass : UserTrafficPass}

/-- Account that a row stands for in a given month. -/
def UserTrafficRow.account (month : ℤ) (row : UserTrafficRow) : Account where
  totalBytes := row.totalBytes
  monthBytes := if row.monthKey = month then row.monthBytes else 0
  observedSince := row.sinceTS
  lastActivity := row.updatedTS
  deletedAt := row.deletedTS.getD 0
  continuity := row.continuity
  baseline := match row.lastRawOctets, row.lastSourceStartedAt with
    | some lastRaw, some lastSourceStart => some (lastRaw, lastSourceStart)
    | _, _ => none

namespace UserTrafficRow

/-- Later months see an old row as rolled over. -/
theorem account_roll {month later : ℤ} {row : UserTrafficRow} (past : row.monthKey ≤ month)
    (le : month ≤ later) : (row.account month).roll (month ≠ later) = row.account later := by
  simp only [Account.roll, account]
  by_cases same : month = later
  · simp [same]
  · have : row.monthKey ≠ later := by omega
    simp [same, this]

theorem total_account (username : String) (month : ℤ) (row : Option UserTrafficRow) :
    Account.total (row.map (account month)) =
      StoredUserTraffic.total (row.map (StoredUserTraffic.ofRow username)) := by
  rcases row with _ | row <;> rfl

theorem delta_account (username : String) (month raw : ℤ) (row : UserTrafficRow) :
    (row.account month).delta pass raw = (StoredUserTraffic.ofRow username row).delta pass raw := by
  simp only [account, Account.delta, StoredUserTraffic.delta, StoredUserTraffic.ofRow]
  cases row.lastRawOctets <;> cases row.lastSourceStartedAt <;> rfl

theorem gain_account (username : String) (month raw : ℤ) (row : Option UserTrafficRow) :
    Account.gain pass raw (row.map (account month)) =
      StoredUserTraffic.gain pass raw (row.map (StoredUserTraffic.ofRow username)) := by
  rcases row with _ | row
  · rfl
  · simp only [Option.map_some, Account.gain, StoredUserTraffic.gain,
      delta_account username month raw row]

/-- Row of a listed user after the loop, whether it is written back or not. -/
def observe (pass : UserTrafficPass) (username : String) (raw : ℤ) :
    Option UserTrafficRow → Option UserTrafficRow
  | none => if pass.snapshot.telemetryEnabled = false then none else some (.first pass raw)
  | some row =>
      match (StoredUserTraffic.ofRow username row).write pass raw with
      | none => some row
      | some change => some (change row)

/-- Observing a row observes its account. -/
theorem account_observe (username : String) {raw : ℤ} (rawNonneg : 0 ≤ raw)
    (row : Option UserTrafficRow) :
    (observe pass username raw row).map (account pass.monthKey) =
      Account.observe pass raw (row.map (account pass.monthKey)) := by
  rcases row with _ | row
  · simp only [observe, Account.observe, Option.map_none]
    split
    · rfl
    · simp [first, account]
  set current := StoredUserTraffic.ofRow username row with currentEq
  have nonneg := current.delta_nonneg pass rawNonneg
  have growth : (row.account pass.monthKey).delta pass raw = current.delta pass raw :=
    delta_account username pass.monthKey raw row
  have seen : observe pass username raw (some row) = match current.write pass raw with
    | none => some row
    | some change => some (change row) := rfl
  rw [seen, StoredUserTraffic.write, Option.map_some, Account.observe, growth]
  generalize current.delta pass raw = delta at nonneg
  by_cases paused : pass.snapshot.telemetryEnabled = false
  · rw [if_pos paused, if_pos paused]
    by_cases revived : current.Revived pass
    · rw [if_pos revived]
      rfl
    · rw [if_neg revived]
      simp only [StoredUserTraffic.Revived, not_or, not_not] at revived
      have alive : row.deletedTS.getD 0 = 0 := revived.1
      have unchanged : pass.merge row.continuity = row.continuity := revived.2.symm
      simp only [Option.map_some, account, alive, unchanged]
  · rw [if_neg paused, if_neg paused]
    by_cases changed : current.Changed pass raw delta
    · rw [if_pos changed]
      simp [account, update, StoredUserTraffic.settle, currentEq, StoredUserTraffic.ofRow]
    · rw [if_neg changed]
      simp only [StoredUserTraffic.Changed, StoredUserTraffic.Revived, not_or, not_not] at changed
      rcases changed with ⟨idle, sameRaw, sameStart, revived⟩
      have sameRaw : row.lastRawOctets = some raw := sameRaw
      have sameStart : row.lastSourceStartedAt = some pass.snapshot.sourceStartedAt := sameStart
      have alive : row.deletedTS.getD 0 = 0 := revived.1
      have unchanged : pass.merge row.continuity = row.continuity := revived.2.symm
      have zero : delta = 0 := by omega
      simp [account, zero, sameRaw, sameStart, alive, unchanged]

/-- Rows read as accounts. -/
def view : AccountView UserTrafficRow where
  account := account
  monthKey := monthKey
  account_roll := account_roll

/-- Marking a row lets its account vanish. -/
theorem account_mark (month : ℤ) (row : UserTrafficRow) :
    (if row.deletedTS.getD 0 ≠ 0 then row
      else { row with deletedTS := some pass.snapshot.observedAt }).account month =
      (row.account month).vanish pass := by
  by_cases alive : row.deletedTS.getD 0 = 0
  · simp [Account.vanish, account, alive]
  · simp [Account.vanish, account, alive]

/-- A row is written with the month of the observation or with its own. -/
theorem monthKey_observe {username : String} {raw : ℤ} {before : Option UserTrafficRow}
    {row : UserTrafficRow} (observed : observe pass username raw before = some row) :
    row.monthKey = pass.monthKey ∨ ∃ prior, before = some prior ∧ row.monthKey = prior.monthKey := by
  rcases before with _ | prior
  · simp only [observe] at observed
    split at observed <;> cases observed
    exact Or.inl rfl
  · simp only [observe] at observed
    split at observed
    · cases observed
      exact Or.inr ⟨_, rfl, rfl⟩
    · rename_i change written
      cases observed
      simp only [StoredUserTraffic.write] at written
      split at written <;> split at written <;> cases written
      · exact Or.inr ⟨prior, rfl, rfl⟩
      · exact Or.inl rfl

end UserTrafficRow

end Rows

/-- The tables of the store hold what the ledger holds. -/
structure SQLiteRefines (ledger : TrafficLedger) (db : SQLiteTraffic) : Prop where
  collector : db.collector = ledger.collector
  entries : UserTrafficRow.view.Shows ledger fun username => db.users[username]?
  bucket : ∀ username tier ts,
    db.buckets[(⟨username, tier, ts⟩ : UserTrafficBucketKey)]? = ledger.history username tier ts

/-- Pruning changes nothing exactly when no user is selected. -/
theorem pruneTrafficSummariesTx_eq_self_iff {db : SQLiteTraffic} {now retention : ℤ} :
    pruneTrafficSummariesTx db now retention = db ↔
      ∀ (username : String) (row : UserTrafficRow), db.users[username]? = some row →
        expiredUserRow db.buckets now retention username row = false := by
  constructor
  · intro same username row known
    have users : (pruneTrafficSummariesTx db now retention).users = db.users := by rw [same]
    simpa using Table.filter_eq_self_iff.mp users username row known
  · intro kept
    have users : (pruneTrafficSummariesTx db now retention).users = db.users := by
      apply Table.filter_eq_self_iff.mpr
      intro username row known
      simp [kept username row known]
    have buckets : (pruneTrafficSummariesTx db now retention).buckets = db.buckets := by
      apply Table.filter_eq_self_iff.mpr
      intro key bytes _
      cases known : db.users[key.userID]? with
      | none => rfl
      | some row => simp [kept key.userID row known]
    calc pruneTrafficSummariesTx db now retention
        = ⟨(pruneTrafficSummariesTx db now retention).users,
            (pruneTrafficSummariesTx db now retention).buckets, db.collector⟩ := rfl
      _ = db := by rw [users, buckets]

/-- Nothing is deleted while no tombstone has passed the retention. -/
theorem pruneTrafficSummariesTx_eq_self {db : SQLiteTraffic} {now retention : ℤ}
    (fresh : ∀ (username : String) (row : UserTrafficRow), db.users[username]? = some row →
      row.deletedTS.getD 0 ≠ 0 → now - retention ≤ row.deletedTS.getD 0) :
    pruneTrafficSummariesTx db now retention = db := by
  apply pruneTrafficSummariesTx_eq_self_iff.mpr
  intro username row known
  have young := fresh username row known
  simp only [expiredUserRow]
  cases isDeleted : row.deletedTS with
  | none => rfl
  | some deleted =>
      simp only [isDeleted, Option.getD_some] at young
      by_cases alive : deleted = 0
      · simp [expiredTrafficSummary, alive]
      · have := young alive
        simp [this]

namespace SQLiteTraffic

variable {policy : StoragePolicy} {db : SQLiteTraffic} {snapshot : UserTrafficSnapshot}
  {ledger : TrafficLedger}

theorem le_retentionSecs (valid : policy.Valid) :
    userTrafficMemoryRetentionSecs ≤ retentionSecs policy := by
  have := valid.retentionLower
  simp only [minRetentionDays] at this
  simp only [userTrafficMemoryRetentionSecs, retentionSecs]
  omega

/-- While the tombstones of the ledger are fresh, pruning the tables changes nothing. -/
theorem prune_of_fresh (valid : policy.Valid) {now : ℤ} (fresh : ledger.Fresh now)
    (entries : UserTrafficRow.view.Shows ledger fun username => db.users[username]?) :
    pruneTrafficSummariesTx db now (retentionSecs policy) = db := by
  apply pruneTrafficSummariesTx_eq_self
  intro username row known deleted
  have young := fresh username _ (entries.account_of known) deleted
  simp only [UserTrafficRow.view, UserTrafficRow.account] at young
  have := le_retentionSecs valid
  omega

theorem lookup_readUserTrafficUsersTx (users : UserTrafficUsers) (username : String) :
    (readUserTrafficUsersTx users)[username]? =
      users[username]?.map (StoredUserTraffic.ofRow username) :=
  Table.lookup_map _ _ _

/-- A read snapshot shows the accounts. -/
theorem summaries_eq (db : SQLiteTraffic) (asOf : ℤ) (username : String) :
    (db.summaries asOf)[username]?.map (·.dropMonthKey) =
      (db.users[username]?.map (UserTrafficRow.account (utcMonthKey asOf))).map
        (Account.summary username) := by
  simp only [summaries, Table.lookup_map, Option.map_map]
  congr 1
  funext row
  simp only [Function.comp_apply, UserTrafficSummary.readIn, UserTrafficSummary.dropMonthKey,
    Account.summary, UserTrafficRow.account, StoredUserTraffic.ofRow]
  by_cases same : row.monthKey = utcMonthKey asOf
  · simp [same]
  · simp [same]

/-- The raw baseline is the baseline of the account. -/
theorem baseline_eq (db : SQLiteTraffic) (month : ℤ) (username : String) :
    db.baseline username =
      (db.users[username]?.map (UserTrafficRow.account month)).bind (·.baseline) := by
  simp only [baseline, Option.bind_map]
  rfl

/-- Work of the transaction before the loop. -/
def start (db : SQLiteTraffic) : SQLiteTrafficWork :=
  ⟨db.users, readUserTrafficUsersTx db.users, [], 0⟩

theorem begin_of_fresh (valid : policy.Valid) (refines : SQLiteRefines ledger db)
    (fresh : ledger.Fresh snapshot.observedAt) :
    db.begin policy snapshot.observedAt = db.start := by
  simp only [begin, start, prune_of_fresh valid fresh refines.entries]

/-- Gains of the loop are the gains of the ledger. -/
theorem gainOf_start (refines : SQLiteRefines ledger db) (pass : UserTrafficPass)
    (username : String) : db.start.gainOf pass username = ledger.gain pass username := by
  have entry : db.users[username]?.map (UserTrafficRow.account ledger.month) =
    ledger.accounts username := refines.entries.entry username
  simp only [SQLiteTrafficWork.gainOf, TrafficLedger.gain, start, lookup_readUserTrafficUsersTx]
  cases pass.snapshot.rawOf username with
  | none => rfl
  | some raw =>
      dsimp only
      rw [← entry, UserTrafficRow.gain_account username]

theorem total_of_refines (refines : SQLiteRefines ledger db) (username : String) :
    StoredUserTraffic.total (readUserTrafficUsersTx db.users)[username]? =
      Account.total (ledger.accounts username) := by
  have entry : db.users[username]?.map (UserTrafficRow.account ledger.month) =
    ledger.accounts username := refines.entries.entry username
  rw [lookup_readUserTrafficUsersTx, ← entry, UserTrafficRow.total_account username]

/-- Rows at the start of the loop are within the bounds of the ledger. -/
theorem sound_row {pass : UserTrafficPass} (refines : SQLiteRefines ledger db)
    (sound : ledger.Sound) (le : ledger.collector ≠ none → ledger.month ≤ pass.monthKey)
    (username : String) : (db.start.row username).Sound pass := by
  refine ⟨?_, ?_⟩ <;> intro current known <;>
    simp only [SQLiteTrafficWork.row, start, lookup_readUserTrafficUsersTx,
      Option.map_eq_some_iff] at known <;>
    rcases known with ⟨row, known, rfl⟩
  · intro sameMonth
    have sameMonth : row.monthKey = pass.monthKey := sameMonth
    have bounds := sound.account username _ (refines.entries.account_of known)
    rcases refines.entries.month_le username row known with ⟨found, past⟩
    have here : row.monthKey = ledger.month := le_antisymm past (sameMonth ▸ le found)
    simpa [UserTrafficRow.view, UserTrafficRow.account, here, StoredUserTraffic.ofRow]
      using bounds.month_le
  · exact (sound.account username _ (refines.entries.account_of known)).total_le

/-- The loop succeeds exactly when the ledger accepts the observation. -/
theorem loop_ok_iff {pass : UserTrafficPass} (refines : SQLiteRefines ledger db)
    (sound : ledger.Sound) (le : ledger.collector ≠ none → ledger.month ≤ pass.monthKey)
    (snapshotValid : pass.snapshot.Valid) :
    (∃ work, pass.snapshot.users.foldlM (applySQLiteObservation pass) db.start = .ok work) ↔
      ledger.Fits pass := by
  have gains : ∀ user ∈ pass.snapshot.users,
      StoredUserTraffic.gain pass user.rawOctets
        (readUserTrafficUsersTx db.users)[user.username]? = ledger.gain pass user.username := by
    intro user mem
    have listed := UserTrafficSnapshot.rawOf_of_mem snapshotValid.distinct mem
    rw [← gainOf_start refines]
    simp only [SQLiteTrafficWork.gainOf, listed, start]
  rw [sqliteLoop_ok_iff maxInt64_nonneg
    (fun user _ => sound_row refines sound le user.username) snapshotValid.distinct]
  simp only [start, TrafficLedger.Fits, TrafficLedger.deltaBytes, total_of_refines refines]
  rw [List.map_congr_left gains, zero_add]
  refine and_congr_left' (forall₂_congr fun user mem => ?_)
  rw [gains user mem]

/-- Buckets stay below the totals, so that they can be written whenever the loop succeeds. -/
theorem exists_written {pass : UserTrafficPass} (refines : SQLiteRefines ledger db)
    (sound : ledger.Sound) (fits : ledger.Fits pass) (snapshotValid : pass.snapshot.Valid)
    {work : SQLiteTrafficWork}
    (done : pass.snapshot.users.foldlM (applySQLiteObservation pass) db.start = .ok work) :
    ∃ buckets, writeUserTrafficBuckets pass.historyEnabled db.buckets work.buckets =
      .ok buckets := by
  simp only [writeUserTrafficBuckets]
  split
  · apply exists_upsertUserTrafficBucketsTx
    · exact sqliteLoop_positive done (by simp [start])
    · rintro ⟨username, tier, ts⟩
      have appended := sqliteLoop_appended rfl done snapshotValid.distinct username tier ts
      simp only [start, appendedBytes_nil, zero_add] at appended
      have total := fits.total_le sound username
      have history := sound.history_le_total username tier ts
      have gained := ledger.gain_nonneg pass username
      rw [refines.bucket, appended]
      split
      · have same := gainOf_start refines pass username
        simp only [start] at same
        omega
      · omega
  · exact ⟨db.buckets, rfl⟩

/-- The row of every user after the loop. -/
theorem lookup_users_of_loop {pass : UserTrafficPass} (snapshotValid : pass.snapshot.Valid)
    {work : SQLiteTrafficWork}
    (done : pass.snapshot.users.foldlM (applySQLiteObservation pass) db.start = .ok work)
    (username : String) :
    work.users[username]? = match pass.snapshot.rawOf username with
      | none => db.users[username]?
      | some raw => UserTrafficRow.observe pass username raw db.users[username]? := by
  cases listed : pass.snapshot.rawOf username with
  | none =>
      exact congrArg SQLiteTrafficRow.user (sqliteLoop_row_of_unlisted done listed)
  | some raw =>
      rcases UserTrafficSnapshot.exists_of_rawOf listed with ⟨user, mem, rfl, rfl⟩
      refine (congrArg SQLiteTrafficRow.user
        (sqliteLoop_row_of_listed done snapshotValid.distinct mem)).trans ?_
      simp only [SQLiteTrafficRow.observe, SQLiteTrafficWork.row, start,
        lookup_readUserTrafficUsersTx]
      cases db.users[user.username]? with
      | none =>
          simp only [Option.map_none, UserTrafficRow.observe]
      | some row => rfl

/-- Copies of unlisted users after the loop. -/
theorem lookup_stored_of_loop {pass : UserTrafficPass} {work : SQLiteTrafficWork}
    (done : pass.snapshot.users.foldlM (applySQLiteObservation pass) db.start = .ok work)
    {username : String} (unlisted : pass.snapshot.rawOf username = none) :
    work.stored[username]? = db.users[username]?.map (StoredUserTraffic.ofRow username) :=
  (congrArg SQLiteTrafficRow.stored (sqliteLoop_row_of_unlisted done unlisted)).trans
    (lookup_readUserTrafficUsersTx db.users username)

/-- Rows after marking, user by user. -/
theorem lookup_markSQLiteDeleted {pass : UserTrafficPass} (snapshotValid : pass.snapshot.Valid)
    {work : SQLiteTrafficWork}
    (done : pass.snapshot.users.foldlM (applySQLiteObservation pass) db.start = .ok work)
    (username : String) :
    (markSQLiteDeleted pass.snapshot work.stored work.users)[username]? =
      match pass.snapshot.rawOf username with
      | none => db.users[username]?.map fun row =>
          if row.deletedTS.getD 0 ≠ 0 then row
          else { row with deletedTS := some pass.snapshot.observedAt }
      | some raw => UserTrafficRow.observe pass username raw db.users[username]? := by
  have users := lookup_users_of_loop snapshotValid done username
  rw [markSQLiteDeleted, Table.lookup_map, users]
  cases listed : pass.snapshot.rawOf username with
  | none =>
      have unlisted : ¬pass.snapshot.lists username = true := by
        rw [UserTrafficSnapshot.lists_iff]
        exact UserTrafficSnapshot.rawOf_eq_none_iff.mp listed
      dsimp only
      rw [lookup_stored_of_loop done listed]
      cases db.users[username]? with
      | none => rfl
      | some row =>
          simp only [Option.map_some, unlisted, Bool.false_eq_true, false_or]
          rfl
  | some raw =>
      have isListed : pass.snapshot.lists username = true := by
        rcases UserTrafficSnapshot.exists_of_rawOf listed with ⟨user, mem, rfl, -⟩
        exact UserTrafficSnapshot.lists_iff.mpr (List.mem_map_of_mem mem)
      simp only [isListed, true_or, ↓reduceIte]
      cases work.stored[username]? <;> simp

/-- After marking, the rows are the accounts of the ledger after the observation. -/
theorem shows_marked {pass : UserTrafficPass} (refines : SQLiteRefines ledger db)
    (le : ledger.collector ≠ none → ledger.month ≤ pass.monthKey)
    (monthKey : pass.monthKey = utcMonthKey pass.snapshot.observedAt)
    (snapshotValid : pass.snapshot.Valid) {work : SQLiteTrafficWork}
    (done : pass.snapshot.users.foldlM (applySQLiteObservation pass) db.start = .ok work) :
    UserTrafficRow.view.Shows (ledger.observed pass) fun username =>
      (markSQLiteDeleted pass.snapshot work.stored work.users)[username]? := by
  have month : (ledger.observed pass).month = pass.monthKey := monthKey.symm
  have rolled : ∀ username, db.users[username]?.map (UserTrafficRow.account pass.monthKey) =
      ledger.rolled pass username := refines.entries.rolled le
  refine ⟨?_, ?_⟩
  · intro username
    rw [month, lookup_markSQLiteDeleted snapshotValid done]
    simp only [TrafficLedger.observed, ← rolled, UserTrafficRow.view]
    cases listed : pass.snapshot.rawOf username with
    | none =>
        simp only [Option.map_map]
        congr 1
        funext row
        exact UserTrafficRow.account_mark pass.monthKey row
    | some raw =>
        exact UserTrafficRow.account_observe username
          (UserTrafficSnapshot.rawOf_nonneg listed) _
  · intro username row known
    refine ⟨by rintro ⟨⟩, ?_⟩
    rw [month]
    have old : ∀ prior, db.users[username]? = some prior → prior.monthKey ≤ pass.monthKey :=
      fun _ present => refines.entries.monthKey_le le present
    rw [lookup_markSQLiteDeleted snapshotValid done] at known
    split at known
    · simp only [Option.map_eq_some_iff] at known
      rcases known with ⟨prior, present, rfl⟩
      refine le_trans (le_of_eq ?_) (old prior present)
      simp only [UserTrafficRow.view]
      split <;> rfl
    · rcases UserTrafficRow.monthKey_observe known with here | ⟨prior, present, there⟩
      · exact here.le
      · exact there.le.trans (old prior present)

theorem deltaBytes_of_loop {pass : UserTrafficPass} (refines : SQLiteRefines ledger db)
    (snapshotValid : pass.snapshot.Valid) {work : SQLiteTrafficWork}
    (done : pass.snapshot.users.foldlM (applySQLiteObservation pass) db.start = .ok work) :
    work.deltaBytes = ledger.deltaBytes pass := by
  have gauged := (sqliteLoop pass).gauge_run done snapshotValid.distinct
  refine gauged.trans ((zero_add _).trans ?_)
  rw [TrafficLedger.deltaBytes]
  congr 1
  apply List.map_congr_left
  intro user mem
  have listed := UserTrafficSnapshot.rawOf_of_mem snapshotValid.distinct mem
  rw [← gainOf_start refines]
  simp only [SQLiteTrafficWork.gainOf, listed, sqliteLoop, SQLiteTrafficWork.row]

/-- The store accepts the snapshots that the ledger accepts. -/
theorem applyUserTrafficSnapshot_ok_iff (valid : policy.Valid) (refines : SQLiteRefines ledger db)
    (sound : ledger.Sound) (fresh : ledger.Admits snapshot → ledger.Fresh snapshot.observedAt) :
    (∃ result, db.applyUserTrafficSnapshot policy snapshot = .ok result) ↔
      ledger.Accepts policy.enabled snapshot := by
  constructor
  · rintro ⟨result, accepted⟩
    rcases applyUserTrafficSnapshot_eq_ok_iff.mp accepted with ⟨snapshotValid, newer, work, done, -⟩
    rw [refines.collector] at newer done
    have admits : ledger.Admits snapshot := ⟨snapshotValid, newer⟩
    rw [begin_of_fresh valid refines (fresh admits)] at done
    exact ⟨admits, (loop_ok_iff refines sound (admits.month_le policy.enabled)
      snapshotValid).mp ⟨work, done⟩⟩
  · rintro ⟨admits, fits⟩
    rcases (loop_ok_iff refines sound (admits.month_le policy.enabled) admits.valid).mpr fits
      with ⟨work, done⟩
    rcases exists_written refines sound fits admits.valid done with ⟨buckets, written⟩
    refine ⟨_, applyUserTrafficSnapshot_eq_ok_iff.mpr
      ⟨admits.valid, ?_, work, ?_, buckets, ?_, rfl⟩⟩
    · rw [refines.collector]
      exact admits.newer
    · rw [refines.collector, begin_of_fresh valid refines (fresh admits)]
      exact done
    · rw [prune_of_fresh valid (fresh admits) refines.entries]
      exact written

/-- An accepted snapshot adds the bytes of the ledger and leads to its next state. -/
theorem applyUserTrafficSnapshot_refines (valid : policy.Valid) (refines : SQLiteRefines ledger db)
    (fresh : ledger.Admits snapshot → ledger.Fresh snapshot.observedAt)
    {result : ℤ × SQLiteTraffic}
    (accepted : db.applyUserTrafficSnapshot policy snapshot = .ok result) :
    result.1 = ledger.deltaBytes (ledger.pass policy.enabled snapshot) ∧
      SQLiteRefines (ledger.observed (ledger.pass policy.enabled snapshot)) result.2 := by
  rcases applyUserTrafficSnapshot_eq_ok_iff.mp accepted with
    ⟨snapshotValid, newer, work, done, buckets, written, rfl⟩
  rw [refines.collector] at newer done ⊢
  have admits : ledger.Admits snapshot := ⟨snapshotValid, newer⟩
  have young := fresh admits
  rw [begin_of_fresh valid refines young] at done
  rw [prune_of_fresh valid young refines.entries] at written
  set pass := ledger.pass policy.enabled snapshot with passEq
  have marked := shows_marked refines (admits.month_le policy.enabled) rfl
    snapshotValid done
  have finished : finish policy pass work buckets =
      ⟨markSQLiteDeleted snapshot work.stored work.users, buckets, some pass.collector⟩ :=
    prune_of_fresh valid (young.observed pass rfl) marked
  refine ⟨deltaBytes_of_loop refines snapshotValid done, ?_⟩
  change SQLiteRefines _ (finish policy pass work buckets)
  rw [finished]
  refine ⟨rfl, marked, ?_⟩
  intro username tier ts
  refine (lookup_writeUserTrafficBuckets rfl done snapshotValid.distinct rfl written username tier
    ts).trans ?_
  rw [gainOf_start refines, refines.bucket]
  rfl

theorem refines_empty : SQLiteRefines .empty .empty := by
  refine ⟨rfl, ⟨?_, ?_⟩, ?_⟩
  · intro username
    simp [empty, TrafficLedger.empty]
  · intro username row known
    simp [empty] at known
  · intro username tier ts
    simp [empty, TrafficLedger.empty]

/-- Deleting the history of a user closes the account. -/
theorem deleteUserHistory_refines (refines : SQLiteRefines ledger db) (username : String) :
    SQLiteRefines (ledger.forget username) (db.deleteUserHistory username) := by
  refine ⟨refines.collector, ?_, ?_⟩
  · convert refines.entries.forget username using 1
    funext other
    simp only [deleteUserHistory, Table.lookup_erase, Function.update_apply,
      eq_comm (a := username)]
  · intro other tier ts
    simp only [deleteUserHistory, Table.lookup_filter, TrafficLedger.forget,
      Function.update_apply, refines.bucket]
    split
    · rename_i same
      cases ledger.history other tier ts <;> simp [same]
    · rename_i apart
      cases ledger.history other tier ts <;> simp [apart]

end SQLiteTraffic

end TelemtPanel.Store
