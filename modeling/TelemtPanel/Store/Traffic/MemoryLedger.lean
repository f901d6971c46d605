import TelemtPanel.Store.Traffic.Memory

/-!
# The process-local traffic store refines the ledger

As long as no tombstone expires and no bucket is evicted for lack of room, every
entry of the store is the account of the ledger, read in the month of the last
observation, and every bucket that has not left the process-local history holds
the bytes of the ledger.

An instant called `horizon` bounds the times at which the store has dropped old
buckets so far.
-/

namespace TelemtPanel.Store

open TelemtPanel.Library

section Entries

variable {pass : UserTrafficPass}

/-- Account that an entry stands for in a given month. -/
def MemoryUserTraffic.account (month : ℤ) (current : MemoryUserTraffic) : Account where
  totalBytes := current.summary.observedTotalBytes
  monthBytes := if current.summary.monthKey = month then current.summary.currentMonthBytes else 0
  observedSince := current.summary.observedSinceEpochSecs
  lastActivity := current.summary.lastActivityEpochSecs
  deletedAt := current.summary.deletedEpochSecs
  continuity := current.summary.continuity
  baseline := if current.hasBaseline then some (current.lastRaw, current.lastSourceStart) else none

namespace MemoryUserTraffic

/-- Later months see an old entry as rolled over. -/
theorem account_roll {month later : ℤ} {current : MemoryUserTraffic}
    (past : current.summary.monthKey ≤ month) (le : month ≤ later) :
    (current.account month).roll (month ≠ later) = current.account later := by
  simp only [Account.roll, account]
  by_cases same : month = later
  · simp [same]
  · have : current.summary.monthKey ≠ later := by omega
    simp [same, this]

theorem total_account (month : ℤ) (entry : Option MemoryUserTraffic) :
    Account.total (entry.map (account month)) = total entry := by
  rcases entry with _ | current <;> rfl

theorem delta_account (month raw : ℤ) (current : MemoryUserTraffic) :
    (current.account month).delta pass raw = current.delta pass raw := by
  simp only [Account.delta, delta, account]
  cases current.hasBaseline <;> rfl

theorem gain_account (month raw : ℤ) (entry : Option MemoryUserTraffic) :
    Account.gain pass raw (entry.map (account month)) = gain pass raw entry := by
  rcases entry with _ | current
  · rfl
  · simp only [Option.map_some, Account.gain, gain, delta_account]

/-- Observing an entry observes its account. -/
theorem account_observe (username : String) (raw : ℤ) (entry : Option MemoryUserTraffic) :
    (observe pass username raw entry).map (account pass.monthKey) =
      Account.observe pass raw (entry.map (account pass.monthKey)) := by
  rcases entry with _ | current
  · simp only [observe, Account.observe, Option.map_none]
    split
    · rfl
    · simp [first, account]
  · by_cases paused : pass.snapshot.telemetryEnabled = false
    · simp [observe, Account.observe, paused, revive, account]
    · have active : pass.snapshot.telemetryEnabled = true := by simpa using paused
      simp only [observe, Option.map_some, Account.observe, active, Bool.true_eq_false,
        ↓reduceIte, delta_account]
      simp only [account, settle, revive, ↓reduceIte]
      rfl

/-- Entries read as accounts. -/
def view : AccountView MemoryUserTraffic where
  account := account
  monthKey current := current.summary.monthKey
  account_roll := account_roll

/-- An observed entry keeps its month or moves to the month of the observation. -/
theorem monthKey_observe {username : String} {raw : ℤ} {entry : Option MemoryUserTraffic}
    {current : MemoryUserTraffic} (observed : observe pass username raw entry = some current) :
    current.summary.monthKey = pass.monthKey ∨
      ∃ prior, entry = some prior ∧ current.summary.monthKey = prior.summary.monthKey := by
  rcases entry with _ | prior
  · simp only [observe] at observed
    split at observed <;> cases observed
    exact Or.inl rfl
  · simp only [observe] at observed
    split at observed <;> cases observed
    · exact Or.inr ⟨prior, rfl, rfl⟩
    · exact Or.inl rfl

/-- An observed entry keeps its name. -/
theorem username_observe {username : String} {raw : ℤ} {entry : Option MemoryUserTraffic}
    {current : MemoryUserTraffic}
    (named : ∀ prior, entry = some prior → prior.summary.username = username)
    (observed : observe pass username raw entry = some current) :
    current.summary.username = username := by
  rcases entry with _ | prior
  · simp only [observe] at observed
    split at observed <;> cases observed
    rfl
  · simp only [observe] at observed
    split at observed <;> cases observed
    · exact named prior rfl
    · exact named prior rfl

/-- Marking an entry lets its account vanish. -/
theorem account_mark (month : ℤ) (current : MemoryUserTraffic) :
    (if current.summary.deletedEpochSecs ≠ 0 then current
      else { current with summary := { current.summary with
        deletedEpochSecs := pass.snapshot.observedAt } }).account month =
      (current.account month).vanish pass := by
  by_cases alive : current.summary.deletedEpochSecs = 0
  · simp [Account.vanish, account, alive]
  · simp [Account.vanish, account, alive]

end MemoryUserTraffic

end Entries

section Pruning

variable {sorter : Sorter MemoryUserTrafficBucketKey.ts}

/-- While there is room, only the age of a bucket decides. -/
theorem lookup_pruneMemoryUserTrafficBuckets {buckets : MemoryBucketTable} {now : ℤ}
    (room : (recentMemoryBuckets buckets now).size ≤ userTrafficMemoryMaxBuckets)
    (key : MemoryUserTrafficBucketKey) :
    (pruneMemoryUserTrafficBuckets sorter buckets now)[key]? =
      if key.ts < now - userTrafficMemoryRetentionSecs then none else buckets[key]? := by
  simp only [pruneMemoryUserTrafficBuckets, if_pos room]
  simp only [recentMemoryBuckets, Table.lookup_filter]
  split
  · rename_i old
    cases buckets[key]? <;> simp [old]
  · rename_i recent
    cases buckets[key]? <;> simp [recent]

/-- Entries that are not expired stay. -/
theorem pruneMemoryTrafficSummaries_eq_self {traffic : MemoryTrafficTable}
    {buckets : MemoryBucketTable} {now retention : ℤ}
    (fresh : ∀ (username : String) (current : MemoryUserTraffic),
      traffic[username]? = some current → current.summary.deletedEpochSecs ≠ 0 →
        now - retention ≤ current.summary.deletedEpochSecs) :
    pruneMemoryTrafficSummaries traffic buckets now retention = traffic := by
  apply Table.filter_eq_self_iff.mpr
  intro username current found
  simp only [expiredTrafficSummary]
  by_cases alive : current.summary.deletedEpochSecs = 0
  · simp [alive]
  · have := fresh username current found alive
    simp [alive, this]

/-- Pruning changes nothing exactly when every bucket is recent and there is room for all. -/
theorem pruneMemoryUserTrafficBuckets_eq_self_iff {buckets : MemoryBucketTable} {now : ℤ} :
    pruneMemoryUserTrafficBuckets sorter buckets now = buckets ↔
      (∀ (key : MemoryUserTrafficBucketKey) (bytes : ℤ), buckets[key]? = some bytes →
        now - userTrafficMemoryRetentionSecs ≤ key.ts) ∧
        buckets.size ≤ userTrafficMemoryMaxBuckets := by
  have recent_iff : recentMemoryBuckets buckets now = buckets ↔
      ∀ (key : MemoryUserTrafficBucketKey) (bytes : ℤ), buckets[key]? = some bytes →
        now - userTrafficMemoryRetentionSecs ≤ key.ts := by
    simp [recentMemoryBuckets, Table.filter_eq_self_iff]
  rw [← recent_iff]
  simp only [pruneMemoryUserTrafficBuckets]
  split
  · rename_i room
    constructor
    · intro same
      rw [same] at room
      exact ⟨same, room⟩
    · exact And.left
  · rename_i full
    constructor
    · intro same
      have listed : (sorter.sort (recentMemoryBuckets buckets now).keys).length =
          (recentMemoryBuckets buckets now).size := by
        rw [(sorter.perm _).length_eq, Std.ExtTreeMap.length_keys]
      -- The first bucket that is evicted was there before.
      have evicts : 0 < ((sorter.sort (recentMemoryBuckets buckets now).keys).take
          ((sorter.sort (recentMemoryBuckets buckets now).keys).length -
            userTrafficMemoryMaxBuckets)).length := by
        rw [List.length_take]
        omega
      rcases List.exists_mem_of_length_pos evicts with ⟨first, evicted⟩
      have absent : buckets[first]? = none := by
        rw [← same, Table.lookup_eraseAll, if_pos evicted]
      have stayed : first ∈ recentMemoryBuckets buckets now :=
        Std.ExtTreeMap.mem_keys.mp ((sorter.perm _).mem_iff.mp (List.mem_of_mem_take evicted))
      rw [recentMemoryBuckets, Std.ExtTreeMap.mem_iff_isSome_getElem?, Table.lookup_filter,
        absent] at stayed
      exact absurd stayed Bool.false_ne_true
    · rintro ⟨same, room⟩
      rw [same] at full
      exact absurd room full

theorem memoryTombstoneRetention_of_valid {policy : StoragePolicy} (valid : policy.Valid) :
    memoryTombstoneRetention policy = userTrafficMemoryRetentionSecs := by
  have := valid.retentionLower
  simp only [minRetentionDays] at this
  simp only [memoryTombstoneRetention, userTrafficMemoryRetentionSecs, retentionSecs]
  omega

end Pruning

/-- What a store that drops old buckets retains of a ledger. -/
structure MemoryRefines (horizon : ℤ) (ledger : TrafficLedger) (memory : MemoryTraffic) :
    Prop where
  collector : memory.collector? = ledger.collector
  entries : MemoryUserTraffic.view.Shows ledger fun username => memory.userTraffic[username]?
  named : ∀ (username : String) (current : MemoryUserTraffic),
    memory.userTraffic[username]? = some current → current.summary.username = username
  bucket : ∀ username ts, horizon - userTrafficMemoryRetentionSecs ≤ ts →
    memory.userTrafficBuckets[(⟨username, ts⟩ : MemoryUserTrafficBucketKey)]? =
      ledger.history username 0 ts
  bucket_le : ∀ username ts,
    memory.userTrafficBuckets[(⟨username, ts⟩ : MemoryUserTrafficBucketKey)]?.getD 0 ≤
      (ledger.history username 0 ts).getD 0

theorem MemoryRefines.entry {horizon : ℤ} {ledger : TrafficLedger} {memory : MemoryTraffic}
    (refines : MemoryRefines horizon ledger memory) (username : String) :
    memory.userTraffic[username]?.map (MemoryUserTraffic.account ledger.month) =
      ledger.accounts username :=
  refines.entries.entry username

/-- There is room for all buckets that are not too old. -/
def MemoryRoom (buckets : MemoryBucketTable) (now : ℤ) : Prop :=
  (recentMemoryBuckets buckets now).size ≤ userTrafficMemoryMaxBuckets

instance (buckets : MemoryBucketTable) (now : ℤ) : Decidable (MemoryRoom buckets now) :=
  inferInstanceAs (Decidable (_ ≤ _))

namespace MemoryTraffic

variable {sorter : Sorter MemoryUserTrafficBucketKey.ts} {policy : StoragePolicy}
  {memory : MemoryTraffic} {snapshot : UserTrafficSnapshot} {horizon : ℤ}
  {ledger : TrafficLedger}

/-- No tombstone has reached the age of a day. -/
def Young (memory : MemoryTraffic) (now : ℤ) : Prop :=
  ∀ (username : String) (current : MemoryUserTraffic),
    memory.userTraffic[username]? = some current → current.summary.deletedEpochSecs ≠ 0 →
      now - current.summary.deletedEpochSecs < userTrafficMemoryRetentionSecs

instance (memory : MemoryTraffic) (now : ℤ) : Decidable (memory.Young now) :=
  decidable_of_iff (∀ entry ∈ memory.userTraffic.toList,
      entry.2.summary.deletedEpochSecs ≠ 0 →
        now - entry.2.summary.deletedEpochSecs < userTrafficMemoryRetentionSecs)
    ⟨fun young username current known =>
      young (username, current) ((Table.mem_toList _ _ _).mpr known),
    fun young entry mem => young entry.1 entry.2 ((Table.mem_toList _ _ _).mp mem)⟩

/-- Applying a snapshot neither meets an expired tombstone nor runs out of room. -/
structure Quiet (sorter : Sorter MemoryUserTrafficBucketKey.ts) (policy : StoragePolicy)
    (memory : MemoryTraffic) (snapshot : UserTrafficSnapshot) : Prop where
  tombstones : memory.Young snapshot.observedAt
  roomBefore : MemoryRoom memory.userTrafficBuckets snapshot.observedAt
  roomAfter : ∀ work, snapshot.users.foldlM
      (applyMemoryObservation (userTrafficPass policy.enabled memory.collector? snapshot))
      (memory.begin sorter policy snapshot.observedAt) = .ok work →
    MemoryRoom work.buckets snapshot.observedAt

instance : Decidable (Quiet sorter policy memory snapshot) :=
  decidable_of_iff
    (memory.Young snapshot.observedAt ∧ MemoryRoom memory.userTrafficBuckets snapshot.observedAt ∧
      ∀ work ∈ (snapshot.users.foldlM
          (applyMemoryObservation (userTrafficPass policy.enabled memory.collector? snapshot))
          (memory.begin sorter policy snapshot.observedAt)).toOption,
        MemoryRoom work.buckets snapshot.observedAt)
    ⟨fun ⟨young, before, after⟩ =>
      ⟨young, before, fun work done => after work (mem_toOption_iff.mpr done)⟩,
    fun ⟨young, before, after⟩ =>
      ⟨young, before, fun work mem => after work (mem_toOption_iff.mp mem)⟩⟩

theorem Quiet.begin_traffic (quiet : memory.Quiet sorter policy snapshot) (valid : policy.Valid) :
    (memory.begin sorter policy snapshot.observedAt).traffic = memory.userTraffic := by
  apply pruneMemoryTrafficSummaries_eq_self
  intro username current known deleted
  have := quiet.tombstones username current known deleted
  rw [memoryTombstoneRetention_of_valid valid]
  omega

theorem Quiet.begin_bucket (quiet : memory.Quiet sorter policy snapshot)
    (key : MemoryUserTrafficBucketKey) :
    (memory.begin sorter policy snapshot.observedAt).buckets[key]? =
      if key.ts < snapshot.observedAt - userTrafficMemoryRetentionSecs then none
      else memory.userTrafficBuckets[key]? :=
  lookup_pruneMemoryUserTrafficBuckets quiet.roomBefore key

/-- Read in the month of a new snapshot, the entries are the rolled accounts. -/
theorem entries_rolled {pass : UserTrafficPass} (refines : MemoryRefines horizon ledger memory)
    (le : ledger.collector ≠ none → ledger.month ≤ pass.monthKey) (username : String) :
    memory.userTraffic[username]?.map (MemoryUserTraffic.account pass.monthKey) =
      ledger.rolled pass username :=
  refines.entries.rolled le username

/-- A read snapshot shows the accounts. -/
theorem summaries_eq (refines : MemoryRefines horizon ledger memory) (asOf : ℤ)
    (username : String) :
    (memory.summaries asOf)[username]?.map (·.dropMonthKey) =
      (memory.userTraffic[username]?.map (MemoryUserTraffic.account (utcMonthKey asOf))).map
        (Account.summary username) := by
  simp only [summaries, Table.lookup_map]
  cases known : memory.userTraffic[username]? with
  | none => rfl
  | some current =>
      have named := refines.named username current known
      simp only [Option.map_some, UserTrafficSummary.readIn, UserTrafficSummary.dropMonthKey,
        Account.summary, MemoryUserTraffic.account, ← named]
      by_cases same : current.summary.monthKey = utcMonthKey asOf
      · simp [same]
      · simp [same]

/-- The raw baseline is the baseline of the account. -/
theorem baseline_eq (memory : MemoryTraffic) (month : ℤ) (username : String) :
    memory.baseline username =
      (memory.userTraffic[username]?.map (MemoryUserTraffic.account month)).bind
        (·.baseline) := by
  simp only [baseline, Option.bind_map]
  rfl

/-- Gains of the loop are the gains of the ledger. -/
theorem gainOf_of_refines {pass : UserTrafficPass}
    (refines : MemoryRefines horizon ledger memory) {work : MemoryTrafficWork}
    (same : work.traffic = memory.userTraffic) (username : String) :
    work.gainOf pass username = ledger.gain pass username := by
  simp only [MemoryTrafficWork.gainOf, TrafficLedger.gain]
  cases pass.snapshot.rawOf username with
  | none => rfl
  | some raw =>
      dsimp only
      rw [same, ← refines.entry username, MemoryUserTraffic.gain_account]

theorem total_of_refines (refines : MemoryRefines horizon ledger memory) (username : String) :
    MemoryUserTraffic.total memory.userTraffic[username]? =
      Account.total (ledger.accounts username) := by
  rw [← refines.entry username, MemoryUserTraffic.total_account]

/-- Rows at the start of the loop are within the bounds of the ledger. -/
theorem Quiet.sound_row (quiet : memory.Quiet sorter policy snapshot) (valid : policy.Valid)
    {pass : UserTrafficPass} (refines : MemoryRefines horizon ledger memory)
    (sound : ledger.Sound) (le : ledger.collector ≠ none → ledger.month ≤ pass.monthKey)
    (username : String) :
    ((memory.begin sorter policy snapshot.observedAt).row username).Sound pass := by
  have accountOf : ∀ current, memory.userTraffic[username]? = some current →
      ledger.accounts username = some (current.account ledger.month) :=
    fun _ known => refines.entries.account_of known
  refine ⟨?_, ?_, ?_⟩ <;> intro current known <;>
    simp only [MemoryTrafficWork.row, quiet.begin_traffic valid] at known
  · intro sameMonth
    have bounds := sound.account username _ (accountOf current known)
    rcases refines.entries.month_le username current known with ⟨found, past⟩
    have here : current.summary.monthKey = ledger.month := le_antisymm past (sameMonth ▸ le found)
    simpa [MemoryUserTraffic.account, here] using bounds.month_le
  · exact (sound.account username _ (accountOf current known)).total_le
  · intro ts
    have bounded := (refines.bucket_le username ts).trans (sound.history_le_total username 0 ts)
    have total := sound.total_nonneg username
    rw [accountOf current known] at bounded total
    simp only [MemoryTrafficWork.row, quiet.begin_bucket]
    split
    · exact total
    · exact bounded

/-- The loop succeeds exactly when the ledger accepts the observation. -/
theorem Quiet.loop_ok_iff (quiet : memory.Quiet sorter policy snapshot) (valid : policy.Valid)
    {pass : UserTrafficPass} (refines : MemoryRefines horizon ledger memory)
    (sound : ledger.Sound) (le : ledger.collector ≠ none → ledger.month ≤ pass.monthKey)
    (same : pass.snapshot = snapshot) (snapshotValid : snapshot.Valid) :
    (∃ work, snapshot.users.foldlM (applyMemoryObservation pass)
      (memory.begin sorter policy snapshot.observedAt) = .ok work) ↔ ledger.Fits pass := by
  subst same
  have gains : ∀ user ∈ pass.snapshot.users,
      MemoryUserTraffic.gain pass user.rawOctets memory.userTraffic[user.username]? =
        ledger.gain pass user.username := by
    intro user mem
    have listed := UserTrafficSnapshot.rawOf_of_mem snapshotValid.distinct mem
    rw [← gainOf_of_refines refines (quiet.begin_traffic valid)]
    simp only [MemoryTrafficWork.gainOf, listed, quiet.begin_traffic valid]
  rw [memoryLoop_ok_iff maxInt64_nonneg
    (fun user _ => quiet.sound_row valid refines sound le user.username) snapshotValid.distinct]
  simp only [quiet.begin_traffic valid, TrafficLedger.Fits, TrafficLedger.deltaBytes,
    total_of_refines refines]
  rw [List.map_congr_left gains]
  refine and_congr (forall₂_congr fun user mem => ?_) ?_
  · rw [gains user mem]
  · simp only [begin, zero_add]

/-- Marking is vanishing for the users that are not listed. -/
theorem lookup_markMemoryDeleted (traffic : MemoryTrafficTable) (username : String) :
    (markMemoryDeleted snapshot traffic)[username]? =
      traffic[username]?.map fun current =>
        if snapshot.lists username = true ∨ current.summary.deletedEpochSecs ≠ 0 then current
        else { current with
          summary := { current.summary with deletedEpochSecs := snapshot.observedAt } } :=
  Table.lookup_map _ _ _

/-- After marking, the entries are the accounts of the ledger after the observation. -/
theorem Quiet.marked_account (quiet : memory.Quiet sorter policy snapshot) (valid : policy.Valid)
    {pass : UserTrafficPass} (refines : MemoryRefines horizon ledger memory)
    (le : ledger.collector ≠ none → ledger.month ≤ pass.monthKey)
    (same : pass.snapshot = snapshot) (snapshotValid : snapshot.Valid) {work : MemoryTrafficWork}
    (done : snapshot.users.foldlM (applyMemoryObservation pass)
      (memory.begin sorter policy snapshot.observedAt) = .ok work) (username : String) :
    (markMemoryDeleted snapshot work.traffic)[username]?.map
      (MemoryUserTraffic.account pass.monthKey) = (ledger.observed pass).accounts username := by
  subst same
  rw [lookup_markMemoryDeleted, memoryLoop_entry done snapshotValid.distinct,
    quiet.begin_traffic valid]
  simp only [TrafficLedger.observed]
  cases listed : pass.snapshot.rawOf username with
  | none =>
      have unlisted : pass.snapshot.lists username = false := by
        have absent := UserTrafficSnapshot.rawOf_eq_none_iff.mp listed
        rwa [← UserTrafficSnapshot.lists_iff, Bool.not_eq_true] at absent
      simp only [unlisted, Bool.false_eq_true, false_or, Option.map_map,
        ← entries_rolled refines le]
      congr 1
      funext current
      exact MemoryUserTraffic.account_mark pass.monthKey current
  | some raw =>
      have isListed : pass.snapshot.lists username = true := by
        rcases UserTrafficSnapshot.exists_of_rawOf listed with ⟨user, mem, rfl, -⟩
        exact UserTrafficSnapshot.lists_iff.mpr (List.mem_map_of_mem mem)
      simp only [isListed, true_or, ↓reduceIte, Option.map_id_fun', id_eq,
        MemoryUserTraffic.account_observe, entries_rolled refines le]

/-- Tombstones of the store are tombstones of the ledger. -/
theorem Quiet.fresh (quiet : memory.Quiet sorter policy snapshot)
    (refines : MemoryRefines horizon ledger memory) :
    ledger.Fresh snapshot.observedAt := by
  intro username account known deleted
  rw [← refines.entry username, Option.map_eq_some_iff] at known
  rcases known with ⟨current, present, rfl⟩
  exact quiet.tombstones username current present deleted

/-- The store after an accepted snapshot refines the ledger after the observation. -/
theorem Quiet.refines_finish (quiet : memory.Quiet sorter policy snapshot) (valid : policy.Valid)
    (refines : MemoryRefines horizon ledger memory) (sound : ledger.Sound)
    (admits : ledger.Admits snapshot) {work : MemoryTrafficWork} {later : ℤ}
    (done : snapshot.users.foldlM (applyMemoryObservation (ledger.pass policy.enabled snapshot))
      (memory.begin sorter policy snapshot.observedAt) = .ok work)
    (le : horizon ≤ later) (observed : snapshot.observedAt ≤ later) :
    MemoryRefines later (ledger.observed (ledger.pass policy.enabled snapshot))
      (finish sorter policy (ledger.pass policy.enabled snapshot) work) := by
  set pass := ledger.pass policy.enabled snapshot with passEq
  have same : pass.snapshot = snapshot := rfl
  have snapshotValid := admits.valid
  have monthLe : ledger.collector ≠ none → ledger.month ≤ pass.monthKey :=
    admits.month_le policy.enabled
  have marked := quiet.marked_account valid refines monthLe same snapshotValid done
  have room := quiet.roomAfter work (by rw [refines.collector]; exact done)
  have kept : (finish sorter policy pass work).userTraffic =
      markMemoryDeleted snapshot work.traffic := by
    apply pruneMemoryTrafficSummaries_eq_self
    intro username current known deleted
    have account := marked username
    rw [same] at known
    rw [known, Option.map_some] at account
    have fresh := (quiet.fresh refines).observed pass rfl username _ account.symm deleted
    simp only [MemoryUserTraffic.account] at fresh
    rw [memoryTombstoneRetention_of_valid valid]
    simp only [same]
    omega
  have bucketAfter : ∀ username ts,
      (finish sorter policy pass work).userTrafficBuckets[
        (⟨username, ts⟩ : MemoryUserTrafficBucketKey)]? =
      if ts < snapshot.observedAt - userTrafficMemoryRetentionSecs then none
      else if pass.historyEnabled = true ∧ ts = bucketStart snapshot.observedAt 900 then
        credit memory.userTrafficBuckets[(⟨username, ts⟩ : MemoryUserTrafficBucketKey)]?
          (ledger.gain pass username)
      else memory.userTrafficBuckets[(⟨username, ts⟩ : MemoryUserTrafficBucketKey)]? := by
    intro username ts
    rw [← gainOf_of_refines refines (quiet.begin_traffic valid)]
    refine (lookup_pruneMemoryUserTrafficBuckets room _).trans ?_
    rw [memoryLoop_bucket same done snapshotValid.distinct, quiet.begin_bucket]
    simp only [same]
    split <;> rfl
  refine ⟨rfl, ⟨?_, ?_⟩, ?_, ?_, ?_⟩
  · intro username
    rw [kept]
    exact marked username
  · intro username current known
    refine ⟨by rintro ⟨⟩, ?_⟩
    rw [kept, lookup_markMemoryDeleted, memoryLoop_entry done snapshotValid.distinct,
      quiet.begin_traffic valid, Option.map_eq_some_iff] at known
    rcases known with ⟨unmarked, entry, rfl⟩
    have old : ∀ prior, memory.userTraffic[username]? = some prior →
        prior.summary.monthKey ≤ pass.monthKey :=
      fun _ present => refines.entries.monthKey_le monthLe present
    have unmarkedLe : unmarked.summary.monthKey ≤ pass.monthKey := by
      split at entry
      · exact old unmarked entry
      · rcases MemoryUserTraffic.monthKey_observe entry with here | ⟨prior, present, there⟩
        · exact here.le
        · exact there ▸ old prior present
    refine le_trans (le_of_eq ?_) unmarkedLe
    split <;> rfl
  · intro username current known
    rw [kept, lookup_markMemoryDeleted, memoryLoop_entry done snapshotValid.distinct,
      quiet.begin_traffic valid, Option.map_eq_some_iff] at known
    rcases known with ⟨unmarked, entry, rfl⟩
    have unmarkedNamed : unmarked.summary.username = username := by
      split at entry
      · exact refines.named username unmarked entry
      · exact MemoryUserTraffic.username_observe (refines.named username) entry
    split <;> exact unmarkedNamed
  · intro username ts recent
    rw [bucketAfter, if_neg (by omega), refines.bucket username ts (by omega)]
    rfl
  · intro username ts
    rw [bucketAfter]
    have before := refines.bucket_le username ts
    have nonneg := sound.history_nonneg username 0 ts
    have gained := ledger.gain_nonneg pass username
    have after : (ledger.observed pass).history username 0 ts =
        if pass.historyEnabled = true ∧ ts = bucketStart snapshot.observedAt 900 then
          credit (ledger.history username 0 ts) (ledger.gain pass username)
        else ledger.history username 0 ts := rfl
    rw [after]
    by_cases here : pass.historyEnabled = true ∧ ts = bucketStart snapshot.observedAt 900
    · rw [if_pos here, if_pos here, credit_getD gained]
      split
      · simp only [Option.getD_none]
        omega
      · rw [credit_getD gained]
        omega
    · rw [if_neg here, if_neg here]
      split
      · exact nonneg
      · exact before

theorem Quiet.deltaBytes_eq (quiet : memory.Quiet sorter policy snapshot) (valid : policy.Valid)
    {pass : UserTrafficPass} (refines : MemoryRefines horizon ledger memory)
    (same : pass.snapshot = snapshot) (snapshotValid : snapshot.Valid) {work : MemoryTrafficWork}
    (done : snapshot.users.foldlM (applyMemoryObservation pass)
      (memory.begin sorter policy snapshot.observedAt) = .ok work) :
    work.deltaBytes = ledger.deltaBytes pass := by
  subst same
  have gauged := (memoryLoop pass).gauge_run done snapshotValid.distinct
  refine gauged.trans ((zero_add _).trans ?_)
  rw [TrafficLedger.deltaBytes]
  congr 1
  apply List.map_congr_left
  intro user mem
  have listed := UserTrafficSnapshot.rawOf_of_mem snapshotValid.distinct mem
  rw [← gainOf_of_refines refines (quiet.begin_traffic valid)]
  simp only [MemoryTrafficWork.gainOf, listed, quiet.begin_traffic valid, memoryLoop,
    MemoryTrafficWork.row]

/-- The store accepts the snapshots that the ledger accepts. -/
theorem applyUserTrafficSnapshot_ok_iff (valid : policy.Valid)
    (refines : MemoryRefines horizon ledger memory) (sound : ledger.Sound)
    (quiet : ledger.Admits snapshot → memory.Quiet sorter policy snapshot) :
    (∃ result, memory.applyUserTrafficSnapshot sorter policy snapshot = .ok result) ↔
      ledger.Accepts policy.enabled snapshot := by
  have loop : ledger.Admits snapshot → ((∃ work, snapshot.users.foldlM
      (applyMemoryObservation (ledger.pass policy.enabled snapshot))
      (memory.begin sorter policy snapshot.observedAt) = .ok work) ↔
        ledger.Fits (ledger.pass policy.enabled snapshot)) := by
    intro admits
    exact (quiet admits).loop_ok_iff valid refines sound (admits.month_le policy.enabled) rfl
      admits.valid
  constructor
  · rintro ⟨result, accepted⟩
    rcases applyUserTrafficSnapshot_eq_ok_iff.mp accepted with ⟨snapshotValid, newer, work, done, -⟩
    rw [refines.collector] at newer done
    have admits : ledger.Admits snapshot := ⟨snapshotValid, newer⟩
    exact ⟨admits, (loop admits).mp ⟨work, done⟩⟩
  · rintro ⟨admits, fits⟩
    rcases (loop admits).mpr fits with ⟨work, done⟩
    refine ⟨_, applyUserTrafficSnapshot_eq_ok_iff.mpr ⟨admits.valid, ?_, work, ?_, rfl⟩⟩
    · rw [refines.collector]
      exact admits.newer
    · rw [refines.collector]
      exact done

/-- An accepted snapshot adds the bytes of the ledger and leads to its next state. -/
theorem applyUserTrafficSnapshot_refines (valid : policy.Valid)
    (refines : MemoryRefines horizon ledger memory) (sound : ledger.Sound)
    (quiet : ledger.Admits snapshot → memory.Quiet sorter policy snapshot)
    {result : ℤ × MemoryTraffic} {later : ℤ}
    (accepted : memory.applyUserTrafficSnapshot sorter policy snapshot = .ok result)
    (le : horizon ≤ later) (observed : snapshot.observedAt ≤ later) :
    result.1 = ledger.deltaBytes (ledger.pass policy.enabled snapshot) ∧
      MemoryRefines later (ledger.observed (ledger.pass policy.enabled snapshot)) result.2 := by
  rcases applyUserTrafficSnapshot_eq_ok_iff.mp accepted with
    ⟨snapshotValid, newer, work, done, rfl⟩
  rw [refines.collector] at newer done ⊢
  have still := quiet ⟨snapshotValid, newer⟩
  exact ⟨still.deltaBytes_eq valid refines rfl snapshotValid done,
    still.refines_finish valid refines sound ⟨snapshotValid, newer⟩ done le observed⟩

/-- Deleting the history of a user closes the account. -/
theorem deleteUserHistory_refines (refines : MemoryRefines horizon ledger memory)
    (username : String) :
    MemoryRefines horizon (ledger.forget username) (memory.deleteUserHistory username) := by
  have bucketAfter : ∀ other ts, (memory.deleteUserHistory username).userTrafficBuckets[
      (⟨other, ts⟩ : MemoryUserTrafficBucketKey)]? = if other = username then none
        else memory.userTrafficBuckets[(⟨other, ts⟩ : MemoryUserTrafficBucketKey)]? := by
    intro other ts
    simp only [deleteUserHistory, Table.lookup_filter]
    split
    · rename_i same
      cases memory.userTrafficBuckets[(⟨other, ts⟩ : MemoryUserTrafficBucketKey)]? <;>
        simp [same]
    · rename_i apart
      cases memory.userTrafficBuckets[(⟨other, ts⟩ : MemoryUserTrafficBucketKey)]? <;>
        simp [apart]
  have historyAfter : ∀ other tier ts, (ledger.forget username).history other tier ts =
      if other = username then none else ledger.history other tier ts := by
    intro other tier ts
    simp only [TrafficLedger.forget, Function.update_apply]
    split <;> rfl
  refine ⟨refines.collector, ?_, ?_, ?_, ?_⟩
  · convert refines.entries.forget username using 1
    funext other
    simp only [deleteUserHistory, Table.lookup_erase, Function.update_apply,
      eq_comm (a := username)]
  · intro other current known
    simp only [deleteUserHistory, Table.lookup_erase] at known
    split at known
    · cases known
    · exact refines.named other current known
  · intro other ts recent
    rw [bucketAfter, historyAfter, refines.bucket other ts recent]
  · intro other ts
    rw [bucketAfter, historyAfter]
    split
    · exact le_rfl
    · exact refines.bucket_le other ts

theorem refines_empty (horizon : ℤ) : MemoryRefines horizon .empty .empty := by
  refine ⟨rfl, ⟨?_, ?_⟩, ?_, ?_, ?_⟩
  · intro username
    simp [empty, TrafficLedger.empty]
  · intro username current known
    simp [empty] at known
  · intro username current known
    simp [empty] at known
  · intro username ts _
    simp [empty, TrafficLedger.empty]
  · intro username ts
    simp [empty, TrafficLedger.empty]

/-- Dropping old buckets is invisible to the ledger. -/
theorem pruneUserTrafficBuckets_refines (valid : policy.Valid)
    (refines : MemoryRefines horizon ledger memory) (sound : ledger.Sound) {now later : ℤ}
    (fresh : ledger.Fresh now) (room : MemoryRoom memory.userTrafficBuckets now)
    (le : horizon ≤ later) (nowLe : now ≤ later) :
    MemoryRefines later ledger (memory.pruneUserTrafficBuckets sorter policy now) := by
  have kept : (memory.pruneUserTrafficBuckets sorter policy now).userTraffic =
      memory.userTraffic := by
    apply pruneMemoryTrafficSummaries_eq_self
    intro username current known deleted
    have account := refines.entry username
    rw [known, Option.map_some] at account
    have young := fresh username _ account.symm deleted
    simp only [MemoryUserTraffic.account] at young
    rw [memoryTombstoneRetention_of_valid valid]
    omega
  refine ⟨refines.collector, ?_, ?_, ?_, ?_⟩
  · rw [kept]
    exact refines.entries
  · rw [kept]
    exact refines.named
  · intro username ts recent
    refine (lookup_pruneMemoryUserTrafficBuckets room _).trans ?_
    rw [if_neg (by simp only; omega)]
    exact refines.bucket username ts (by omega)
  · intro username ts
    refine (le_of_eq (congrArg (Option.getD · 0)
      (lookup_pruneMemoryUserTrafficBuckets room _))).trans ?_
    split
    · exact sound.history_nonneg username 0 ts
    · exact refines.bucket_le username ts

end MemoryTraffic

end TelemtPanel.Store
