import TelemtPanel.Library.Meter
import TelemtPanel.Library.Run
import TelemtPanel.Store.Traffic.MemoryLedger
import TelemtPanel.Store.Traffic.SQLiteLedger

/-!
# Recorded and transferred bytes

A Telemt process counts the bytes of every user from zero, and a counter may drop
back to zero at any moment.  The store only sees snapshots.  We run a backend along
such a history and keep, beside every account, an audit of what the user has
transferred since the first baseline of the account.

Whatever the backend drops on the way, the total of a surviving account is what the
audit has counted up to the last accepted sample, less what no sample could show.
-/

namespace TelemtPanel.Store

open TelemtPanel.Library

/-- What metering needs to know of an account. -/
structure MeteredAccount where
  observedSince : ℤ
  totalBytes : ℤ
  baseline : Option (ℤ × ℤ)
deriving DecidableEq, Repr

namespace MeteredAccount

/-- Growth of the counter since the baseline. -/
def delta (snapshot : UserTrafficSnapshot) (raw : ℤ) (account : MeteredAccount) : ℤ :=
  match account.baseline with
  | none => 0
  | some (lastRaw, lastSourceStart) =>
      userTrafficDelta lastRaw lastSourceStart raw snapshot.sourceStartedAt

/-- A snapshot samples the listed users while telemetry is on. -/
def sample (snapshot : UserTrafficSnapshot) (username : String) (kept : Option MeteredAccount) :
    Option MeteredAccount :=
  match snapshot.rawOf username with
  | none => kept
  | some raw =>
      if snapshot.telemetryEnabled = false then kept
      else match kept with
        | none => some ⟨snapshot.observedAt, 0, some (raw, snapshot.sourceStartedAt)⟩
        | some account => some { account with
            totalBytes := account.totalBytes + account.delta snapshot raw
            baseline := some (raw, snapshot.sourceStartedAt) }

end MeteredAccount

namespace Account

def metered (account : Account) : MeteredAccount :=
  ⟨account.observedSince, account.totalBytes, account.baseline⟩

theorem metered_observe {pass : UserTrafficPass} {username : String} {raw : ℤ}
    (listed : pass.snapshot.rawOf username = some raw) (kept : Option Account) :
    (observe pass raw kept).map metered =
      MeteredAccount.sample pass.snapshot username (kept.map metered) := by
  simp only [MeteredAccount.sample, listed]
  rcases kept with _ | account
  · simp only [observe]
    split <;> rfl
  · simp only [observe, Option.map_some]
    split <;> rfl

end Account

/-- A store of user traffic, as far as metering is concerned.  A snapshot may find an account
expired and may leave it expired. -/
structure TrafficBackend (Store : Type) where
  empty : Store
  apply : StoragePolicy → Sorter MemoryUserTrafficBucketKey.ts → Store → UserTrafficSnapshot →
    Except UserTrafficError (ℤ × Store)
  metered : Store → String → Option MeteredAccount
  lastSuccess : Store → Option ℤ
  metered_empty : ∀ username, metered empty username = none
  newer : ∀ {policy sorter store snapshot result}, apply policy sorter store snapshot = .ok result →
    ∀ last ∈ lastSuccess store, last < snapshot.observedAt
  lastSuccess_apply : ∀ {policy sorter store snapshot result},
    apply policy sorter store snapshot = .ok result →
      lastSuccess result.2 = some snapshot.observedAt
  metered_apply : ∀ {policy sorter store snapshot result},
    apply policy sorter store snapshot = .ok result → ∀ username,
      ∃ kept, (kept = none ∨ kept = metered store username) ∧
        (metered result.2 username = none ∨
          metered result.2 username = MeteredAccount.sample snapshot username kept)

section Backends

def MemoryTraffic.metered (memory : MemoryTraffic) (username : String) : Option MeteredAccount :=
  memory.userTraffic[username]?.map fun current => (current.account 0).metered

def SQLiteTraffic.metered (db : SQLiteTraffic) (username : String) : Option MeteredAccount :=
  db.users[username]?.map fun row => (row.account 0).metered

/-- Of an entry, metering sees the same in every month. -/
theorem MemoryUserTraffic.metered_account (month : ℤ) (current : MemoryUserTraffic) :
    (current.account 0).metered = (current.account month).metered := rfl

theorem UserTrafficRow.metered_account (month : ℤ) (row : UserTrafficRow) :
    (row.account 0).metered = (row.account month).metered := rfl

/-- A filter keeps an entry or drops it. -/
theorem map_filter_eq {Entry Shown : Type} (keep : Entry → Bool) (entry : Option Entry)
    (shown : Entry → Shown) :
    (entry.filter keep).map shown = none ∨ (entry.filter keep).map shown = entry.map shown := by
  rcases entry with _ | entry
  · exact Or.inl rfl
  · by_cases kept : keep entry = true
    · exact Or.inr (by simp [kept])
    · exact Or.inl (by simp [kept])

theorem MemoryTraffic.metered_apply {sorter : Sorter MemoryUserTrafficBucketKey.ts}
    {policy : StoragePolicy} {memory : MemoryTraffic} {snapshot : UserTrafficSnapshot}
    {result : ℤ × MemoryTraffic}
    (applied : memory.applyUserTrafficSnapshot sorter policy snapshot = .ok result)
    (username : String) :
    ∃ kept, (kept = none ∨ kept = memory.metered username) ∧
      (result.2.metered username = none ∨
        result.2.metered username = MeteredAccount.sample snapshot username kept) := by
  rcases applyUserTrafficSnapshot_eq_ok_iff.mp applied with ⟨valid, -, work, done, rfl⟩
  set pass := userTrafficPass policy.enabled memory.collector? snapshot with passEq
  have entry := memoryLoop_entry done valid.distinct username
  refine ⟨((memory.begin sorter policy snapshot.observedAt).traffic[username]?).map
    fun current => (current.account 0).metered, ?_, ?_⟩
  · simp only [begin, pruneMemoryTrafficSummaries, Table.lookup_filter, metered]
    exact map_filter_eq _ _ _
  · simp only [finish, pruneMemoryTrafficSummaries, Table.lookup_filter, metered]
    refine (map_filter_eq _ _ _).imp_right fun kept => kept.trans ?_
    rw [markMemoryDeleted, Table.lookup_map, entry]
    cases listed : snapshot.rawOf username with
    | none =>
        simp only [MeteredAccount.sample, listed, Option.map_map]
        congr 1
        funext current
        simp only [Function.comp_apply]
        split <;> rfl
    | some raw =>
        have lists : snapshot.lists username = true := by
          rcases UserTrafficSnapshot.exists_of_rawOf listed with ⟨user, mem, rfl, -⟩
          exact UserTrafficSnapshot.lists_iff.mpr (List.mem_map_of_mem mem)
        have listed : pass.snapshot.rawOf username = some raw := listed
        simp only [passEq, userTrafficPass, lists, true_or, ↓reduceIte, Option.map_id']
        simp only [MemoryUserTraffic.metered_account pass.monthKey]
        have observed := Account.metered_observe listed
          (((memory.begin sorter policy snapshot.observedAt).traffic[username]?).map
            (MemoryUserTraffic.account pass.monthKey))
        rw [← MemoryUserTraffic.account_observe username, Option.map_map, Option.map_map]
          at observed
        exact observed

theorem SQLiteTraffic.metered_apply {policy : StoragePolicy} {db : SQLiteTraffic}
    {snapshot : UserTrafficSnapshot} {result : ℤ × SQLiteTraffic}
    (applied : db.applyUserTrafficSnapshot policy snapshot = .ok result) (username : String) :
    ∃ kept, (kept = none ∨ kept = db.metered username) ∧
      (result.2.metered username = none ∨
        result.2.metered username = MeteredAccount.sample snapshot username kept) := by
  rcases applyUserTrafficSnapshot_eq_ok_iff.mp applied with
    ⟨valid, -, work, done, buckets, -, rfl⟩
  set pass := userTrafficPass policy.enabled db.collector snapshot with passEq
  set pruned := pruneTrafficSummariesTx db snapshot.observedAt (retentionSecs policy) with prunedEq
  have entry : (markSQLiteDeleted snapshot work.stored work.users)[username]? = _ :=
    lookup_markSQLiteDeleted valid done username
  refine ⟨pruned.metered username, ?_, ?_⟩
  · simp only [prunedEq, pruneTrafficSummariesTx, Table.lookup_filter, metered]
    exact map_filter_eq _ _ _
  · simp only [finish, pruneTrafficSummariesTx, Table.lookup_filter, metered]
    refine (map_filter_eq _ _ _).imp_right fun kept => kept.trans ?_
    have entry : (markSQLiteDeleted pass.snapshot work.stored work.users)[username]? = _ := entry
    rw [entry]
    have sameSnapshot : pass.snapshot = snapshot := rfl
    cases listed : pass.snapshot.rawOf username with
    | none =>
        rw [sameSnapshot] at listed
        simp only [MeteredAccount.sample, listed, Option.map_map]
        congr 1
        funext row
        simp only [Function.comp_apply]
        split <;> rfl
    | some raw =>
        dsimp only
        simp only [UserTrafficRow.metered_account pass.monthKey]
        have observed := Account.metered_observe listed
          ((pruned.users[username]?).map (UserTrafficRow.account pass.monthKey))
        rw [← UserTrafficRow.account_observe username
          (UserTrafficSnapshot.rawOf_nonneg listed), Option.map_map, Option.map_map] at observed
        exact observed

/-- The process-local store. -/
def memoryBackend : TrafficBackend MemoryTraffic where
  empty := .empty
  apply policy sorter memory snapshot := memory.applyUserTrafficSnapshot sorter policy snapshot
  metered := MemoryTraffic.metered
  lastSuccess memory := memory.collector?.map (·.lastSuccessTS)
  metered_empty username := by simp [MemoryTraffic.metered, MemoryTraffic.empty]
  newer applied last known := by
    rcases Option.mem_map.mp known with ⟨collector, isLast, rfl⟩
    exact (MemoryTraffic.applyUserTrafficSnapshot_eq_ok_iff.mp applied).2.1 collector isLast
  lastSuccess_apply applied := by
    rcases MemoryTraffic.applyUserTrafficSnapshot_eq_ok_iff.mp applied with ⟨-, -, work, -, rfl⟩
    rfl
  metered_apply := MemoryTraffic.metered_apply

/-- The durable store. -/
def sqliteBackend : TrafficBackend SQLiteTraffic where
  empty := .empty
  apply policy _ db snapshot := db.applyUserTrafficSnapshot policy snapshot
  metered := SQLiteTraffic.metered
  lastSuccess db := db.collector.map (·.lastSuccessTS)
  metered_empty username := by simp [SQLiteTraffic.metered, SQLiteTraffic.empty]
  newer applied last known := by
    rcases Option.mem_map.mp known with ⟨collector, isLast, rfl⟩
    exact (SQLiteTraffic.applyUserTrafficSnapshot_eq_ok_iff.mp applied).2.1 collector isLast
  lastSuccess_apply applied := by
    rcases SQLiteTraffic.applyUserTrafficSnapshot_eq_ok_iff.mp applied with
      ⟨-, -, work, -, buckets, -, rfl⟩
    rfl
  metered_apply := SQLiteTraffic.metered_apply

end Backends

/-- The running process, the starts of its predecessors, and the counters of the users. -/
structure TelemtWorld where
  startedAt : ℤ
  earlier : List ℤ
  counter : String → ℕ

/-- What can happen: bytes are transferred, a counter drops to zero, another process starts, or
a snapshot reaches the store.  It is applied under the policy then in force, and `sorter` is
the order in which the process-local store evicts equally old buckets. -/
inductive TelemtEvent where
  | transfer (username : String) (bytes : ℕ)
  | drop (username : String)
  | restart (startedAt : ℤ)
  | observe (policy : StoragePolicy) (sorter : Sorter MemoryUserTrafficBucketKey.ts)
      (snapshot : UserTrafficSnapshot)

namespace TelemtWorld

def reading (world : TelemtWorld) (username : String) : Reading ℤ :=
  ⟨world.startedAt, world.counter username⟩

def step (world : TelemtWorld) : TelemtEvent → TelemtWorld
  | .transfer username bytes =>
      { world with
        counter := Function.update world.counter username (world.counter username + bytes) }
  | .drop username => { world with counter := Function.update world.counter username 0 }
  | .restart startedAt => ⟨startedAt, world.startedAt :: world.earlier, fun _ => 0⟩
  | .observe _ _ _ => world

/-- A snapshot shows the running process and the counters of the users it lists. -/
def Samples (world : TelemtWorld) (snapshot : UserTrafficSnapshot) : Prop :=
  snapshot.sourceStartedAt = world.startedAt ∧
    ∀ user ∈ snapshot.users, user.rawOctets = world.counter user.username

/-- Processes have distinct starts, and snapshots are sampled. -/
def Allows (world : TelemtWorld) : TelemtEvent → Prop
  | .transfer _ _ => True
  | .drop _ => True
  | .restart startedAt => startedAt ≠ world.startedAt ∧ startedAt ∉ world.earlier
  | .observe _ _ snapshot => world.Samples snapshot

instance (world : TelemtWorld) : (event : TelemtEvent) → Decidable (world.Allows event)
  | .transfer _ _ => .isTrue trivial
  | .drop _ => .isTrue trivial
  | .restart _ => inferInstanceAs (Decidable (_ ∧ _))
  | .observe _ _ _ => inferInstanceAs (Decidable (_ ∧ _))

theorem Samples.rawOf {world : TelemtWorld} {snapshot : UserTrafficSnapshot} {username : String}
    {raw : ℤ} (samples : world.Samples snapshot) (listed : snapshot.rawOf username = some raw) :
    raw = world.counter username := by
  rcases UserTrafficSnapshot.exists_of_rawOf listed with ⟨user, mem, rfl, rfl⟩
  rw [samples.2 user mem]

end TelemtWorld

/-- A store in its world, with an audit of every account. -/
structure AuditedRun (Store : Type) where
  world : TelemtWorld
  store : Store
  audits : String → Option (Audit ℤ)

namespace TrafficBackend

variable {Store : Type} (backend : TrafficBackend Store)

def start (world : TelemtWorld) : AuditedRun Store := ⟨world, backend.empty, fun _ => none⟩

/-- Audit of a user after an accepted snapshot.  An account observed since this very snapshot
is new and its audit starts here. -/
def auditAfter (state : AuditedRun Store) (snapshot : UserTrafficSnapshot) (next : Store)
    (username : String) : Option (Audit ℤ) :=
  match backend.metered next username with
  | none => none
  | some account =>
      if account.observedSince = snapshot.observedAt then
        some (.start (state.world.reading username))
      else if snapshot.lists username = true ∧ snapshot.telemetryEnabled = true then
        (state.audits username).map (·.sample (state.world.reading username))
      else state.audits username

def step (state : AuditedRun Store) (event : TelemtEvent) : AuditedRun Store :=
  { world := state.world.step event
    store :=
      match event with
      | .observe policy sorter snapshot =>
          match backend.apply policy sorter state.store snapshot with
          | .error _ => state.store
          | .ok (_, next) => next
      | _ => state.store
    audits :=
      match event with
      | .transfer username bytes => Function.update state.audits username
          ((state.audits username).map (·.move (.count bytes)))
      | .drop username => Function.update state.audits username
          ((state.audits username).map (·.move .drop))
      | .restart _ => fun username => (state.audits username).map (·.move .restart)
      | .observe policy sorter snapshot =>
          match backend.apply policy sorter state.store snapshot with
          | .error _ => state.audits
          | .ok (_, next) => backend.auditAfter state snapshot next }

/-- The total of an account is what its audit has counted, less what no sample could show.
It is exact when the counter was never set back. -/
structure Accounted (account : MeteredAccount) (audit : Audit ℤ) : Prop where
  total : account.totalBytes + audit.missed = audit.transferred
  exact : (∀ interval ∈ audit.past, interval.Steady) → account.totalBytes = audit.transferred

/-- The audit of an account knows its baseline and follows the counter from there. -/
structure Follows (world : TelemtWorld) (username : String) (account : MeteredAccount)
    (audit : Audit ℤ) : Prop where
  baseline : account.baseline =
    some ((audit.present.opening.value : ℤ), audit.present.opening.epoch)
  known : audit.present.opening.epoch = world.startedAt ∨
    audit.present.opening.epoch ∈ world.earlier
  leads : audit.present.Leads (world.reading username)
  balanced : ∃ total : ℕ, account.totalBytes = total ∧ audit.Balanced total

/-- Every account has been observed since some accepted snapshot and is followed by its audit. -/
def Audited (state : AuditedRun Store) : Prop :=
  ∀ username account, backend.metered state.store username = some account →
    (∃ last ∈ backend.lastSuccess state.store, account.observedSince ≤ last) ∧
      ∃ audit, state.audits username = some audit ∧
        Follows state.world username account audit

variable {backend} {world : TelemtWorld} {username : String} {account : MeteredAccount}
  {audit : Audit ℤ}

theorem Follows.accounted (follows : Follows world username account audit) :
    Accounted account audit := by
  rcases follows.balanced with ⟨total, same, balanced⟩
  refine ⟨?_, fun steady => ?_⟩
  · rw [same]
    exact_mod_cast balanced
  · rw [same, balanced.exact steady]

/-- The rule of the backends is the growth between two readings. -/
theorem userTrafficDelta_eq_growth (last next : Reading ℤ) :
    userTrafficDelta last.value last.epoch next.value next.epoch = (last.growth next : ℤ) := by
  simp only [userTrafficDelta, Reading.growth, Nat.cast_lt]
  split
  · rfl
  · split
    · rfl
    · omega

/-- A new account is followed from its first sample on. -/
theorem Follows.start (world : TelemtWorld) (username : String) (observedAt : ℤ) :
    Follows world username
      ⟨observedAt, 0, some ((world.counter username : ℤ), world.startedAt)⟩
      (.start (world.reading username)) :=
  ⟨rfl, Or.inl rfl, Interval.Leads.refl _, 0, rfl, Audit.balanced_start _⟩

/-- A sample adds the growth since the baseline. -/
theorem Follows.sample (follows : Follows world username account audit)
    {snapshot : UserTrafficSnapshot} (source : snapshot.sourceStartedAt = world.startedAt) :
    Follows world username
      { account with
        totalBytes := account.totalBytes + account.delta snapshot (world.counter username)
        baseline := some ((world.counter username : ℤ), world.startedAt) }
      (audit.sample (world.reading username)) := by
  rcases follows.balanced with ⟨total, same, balanced⟩
  refine ⟨rfl, Or.inl rfl, Interval.Leads.refl _, _, ?_, balanced.sample follows.leads⟩
  have growth := userTrafficDelta_eq_growth audit.present.opening (world.reading username)
  have seen : account.delta snapshot (world.counter username) =
      audit.present.opening.growth (world.reading username) := by
    simp only [MeteredAccount.delta, follows.baseline, source]
    exact growth
  simp only [seen, same, Nat.cast_add]

theorem Follows.transfer (follows : Follows world username account audit) (bytes : ℕ) :
    Follows { world with
      counter := Function.update world.counter username (world.counter username + bytes) }
      username account (audit.move (.count bytes)) := by
  refine ⟨follows.baseline, follows.known, ?_, follows.balanced⟩
  have counted := follows.leads.count bytes
  simpa [TelemtWorld.reading, Audit.move] using counted

theorem Follows.drop (follows : Follows world username account audit) :
    Follows { world with counter := Function.update world.counter username 0 }
      username account (audit.move .drop) := by
  refine ⟨follows.baseline, follows.known, ?_, follows.balanced⟩
  have dropped := follows.leads.drop
  simpa [TelemtWorld.reading, Audit.move] using dropped

/-- Counters of other users do not matter. -/
theorem Follows.other (follows : Follows world username account audit) {other : String}
    (apart : username ≠ other) (value : ℕ) :
    Follows { world with counter := Function.update world.counter other value }
      username account audit := by
  refine ⟨follows.baseline, follows.known, ?_, follows.balanced⟩
  simpa [TelemtWorld.reading, Function.update_of_ne apart] using follows.leads

theorem Follows.restart (follows : Follows world username account audit) {startedAt : ℤ}
    (fresh : startedAt ≠ world.startedAt ∧ startedAt ∉ world.earlier) :
    Follows ⟨startedAt, world.startedAt :: world.earlier, fun _ => 0⟩ username account
      (audit.move .restart) := by
  have apart : audit.present.opening.epoch ≠ startedAt := by
    rintro rfl
    exact follows.known.elim fresh.1 fresh.2
  refine ⟨follows.baseline, Or.inr ?_, Interval.Leads.restart apart, follows.balanced⟩
  simpa [Audit.move, Interval.append] using follows.known

/-- A movement of the world that an audit follows keeps every account audited. -/
theorem Audited.move {state : AuditedRun Store} (audited : backend.Audited state)
    {world : TelemtWorld} {audits : String → Option (Audit ℤ)}
    (moved : ∀ username account audit, Follows state.world username account audit →
      state.audits username = some audit →
        ∃ next, audits username = some next ∧ Follows world username account next) :
    backend.Audited ⟨world, state.store, audits⟩ := by
  intro username account present
  rcases audited username account present with ⟨observed, audit, known, follows⟩
  exact ⟨observed, moved username account audit follows known⟩

/-- An accepted snapshot keeps every account audited. -/
theorem Audited.observe {state : AuditedRun Store} (audited : backend.Audited state)
    {policy : StoragePolicy} {sorter : Sorter MemoryUserTrafficBucketKey.ts}
    {snapshot : UserTrafficSnapshot} (samples : state.world.Samples snapshot)
    {result : ℤ × Store} (applied : backend.apply policy sorter state.store snapshot = .ok result) :
    backend.Audited ⟨state.world, result.2, backend.auditAfter state snapshot result.2⟩ := by
  intro username account present
  have present : backend.metered result.2 username = some account := present
  have older : ∀ prior, backend.metered state.store username = some prior →
      prior.observedSince < snapshot.observedAt := by
    intro prior known
    rcases (audited username prior known).1 with ⟨last, isLast, since⟩
    exact since.trans_lt (backend.newer applied last isLast)
  rcases backend.metered_apply applied username with ⟨kept, isKept, dropped | sampled⟩
  · rw [dropped] at present
    cases present
  rw [sampled] at present
  have old : ∀ prior, kept = some prior → prior.observedSince < snapshot.observedAt ∧
      ∃ audit, state.audits username = some audit ∧
        Follows state.world username prior audit := by
    rintro prior rfl
    rcases isKept with none | isKept
    · cases none
    · exact ⟨older prior isKept.symm, (audited username prior isKept.symm).2⟩
  have last : snapshot.observedAt ∈ backend.lastSuccess result.2 := backend.lastSuccess_apply applied
  simp only [auditAfter, sampled, present]
  simp only [MeteredAccount.sample] at present
  have lists : snapshot.lists username = true ↔ ∃ raw, snapshot.rawOf username = some raw := by
    rw [UserTrafficSnapshot.lists_iff, ← not_iff_not, ← UserTrafficSnapshot.rawOf_eq_none_iff]
    cases snapshot.rawOf username <;> simp
  split at present
  · -- The user is not listed.
    rename_i unlisted
    rcases old account present with ⟨since, audit, known, follows⟩
    refine ⟨⟨_, last, since.le⟩, audit, ?_, follows⟩
    rw [if_neg since.ne, if_neg (by simp [lists, unlisted])]
    exact known
  rename_i raw listed
  have shown := samples.rawOf listed
  subst shown
  split at present
  · -- Telemetry is paused.
    rename_i paused
    rcases old account present with ⟨since, audit, known, follows⟩
    refine ⟨⟨_, last, since.le⟩, audit, ?_, follows⟩
    rw [if_neg since.ne, if_neg (by simp [paused])]
    exact known
  rename_i active
  split at present
  · cases present
    refine ⟨⟨_, last, le_rfl⟩, _, if_pos rfl, ?_⟩
    rw [samples.1]
    exact Follows.start state.world username snapshot.observedAt
  · rename_i prior
    cases present
    rcases old prior rfl with ⟨since, audit, known, follows⟩
    refine ⟨⟨_, last, since.le⟩, audit.sample (state.world.reading username), ?_, ?_⟩
    · rw [if_neg since.ne, if_pos ⟨lists.mpr ⟨_, listed⟩, by simpa using active⟩, known]
      rfl
    · rw [samples.1]
      exact follows.sample samples.1

theorem Audited.step {state : AuditedRun Store} (audited : backend.Audited state)
    {event : TelemtEvent} (allowed : state.world.Allows event) :
    backend.Audited (backend.step state event) := by
  cases event with
  | transfer user bytes =>
      refine audited.move fun username account audit follows known => ?_
      by_cases same : username = user
      · subst same
        exact ⟨_, (Function.update_self _ _ _).trans (congrArg (Option.map _) known),
          follows.transfer bytes⟩
      · exact ⟨audit, (Function.update_of_ne same _ _).trans known, follows.other same _⟩
  | drop user =>
      refine audited.move fun username account audit follows known => ?_
      by_cases same : username = user
      · subst same
        exact ⟨_, (Function.update_self _ _ _).trans (congrArg (Option.map _) known),
          follows.drop⟩
      · exact ⟨audit, (Function.update_of_ne same _ _).trans known, follows.other same 0⟩
  | restart startedAt =>
      refine audited.move fun username account audit follows known => ?_
      exact ⟨_, congrArg (Option.map _) known, follows.restart allowed⟩
  | observe policy sorter snapshot =>
      cases applied : backend.apply policy sorter state.store snapshot with
      | error refusal =>
          simp only [TrafficBackend.step, applied]
          exact audited
      | ok result =>
          simp only [TrafficBackend.step, applied]
          exact audited.observe allowed applied

theorem audited_start (world : TelemtWorld) : backend.Audited (backend.start world) := by
  intro username account present
  rw [start, backend.metered_empty] at present
  cases present

/-- Along every history that can happen, every account is audited. -/
theorem audited_after {world : TelemtWorld} {events : List TelemtEvent}
    (possible : Permitted TelemtWorld.step TelemtWorld.Allows world events) :
    backend.Audited (after backend.step (backend.start world) events) := by
  refine invariant_after (fun state event audited allowed => audited.step allowed)
    (audited_start world) ?_
  exact possible.lift AuditedRun.world fun state event => rfl

/-- All accounts of a store are accounted for by their audits. -/
def AllAccounted (state : AuditedRun Store) : Prop :=
  ∀ username account, backend.metered state.store username = some account →
    ∃ audit, state.audits username = some audit ∧ Accounted account audit

theorem Audited.allAccounted {state : AuditedRun Store} (audited : backend.Audited state) :
    backend.AllAccounted state := by
  intro username account present
  rcases (audited username account present).2 with ⟨audit, known, follows⟩
  exact ⟨audit, known, follows.accounted⟩

end TrafficBackend

/-- In both backends, the total of every account is what the user has transferred from the
first baseline up to the last accepted sample, less what no sample could show. -/
theorem observed_totals_accounted (world : TelemtWorld) (events : List TelemtEvent)
    (possible : Permitted TelemtWorld.step TelemtWorld.Allows world events) :
    memoryBackend.AllAccounted (after memoryBackend.step (memoryBackend.start world) events) ∧
      sqliteBackend.AllAccounted (after sqliteBackend.step (sqliteBackend.start world) events) :=
  ⟨(TrafficBackend.audited_after possible).allAccounted,
    (TrafficBackend.audited_after possible).allAccounted⟩

section Sample

def sampleWorld : TelemtWorld := ⟨500, [], fun _ => 0⟩

def sampleObservation (observedAt startedAt : ℤ) (raw : ℕ) : TelemtEvent :=
  .observe (ActivePolicies.default.get .userTraffic) (.stable _)
    ⟨observedAt, startedAt, true, [⟨"alice", raw⟩]⟩

/-- A drop that is made up for before the next sample, and a restart. -/
def sampleHistory : List TelemtEvent :=
  [.transfer "alice" 100, sampleObservation 1000 500 100, .drop "alice", .transfer "alice" 150,
    sampleObservation 1030 500 150, .transfer "alice" 7, .restart 1040, .transfer "alice" 5,
    sampleObservation 1060 1040 5]

theorem sampleHistory_accounted :
    memoryBackend.AllAccounted
        (after memoryBackend.step (memoryBackend.start sampleWorld) sampleHistory) ∧
      sqliteBackend.AllAccounted
        (after sqliteBackend.step (sqliteBackend.start sampleWorld) sampleHistory) :=
  observed_totals_accounted sampleWorld sampleHistory (by decide +kernel)

/-- No more is missed than what was transferred between a sample and the next reset. -/
def TrafficBackend.MissesBeforeResets {Store : Type} (backend : TrafficBackend Store) : Prop :=
  ∀ world events, Permitted TelemtWorld.step TelemtWorld.Allows world events →
    ∀ username account audit,
      backend.metered (after backend.step (backend.start world) events).store username =
          some account →
        (after backend.step (backend.start world) events).audits username = some audit →
          (audit.transferred : ℤ) ≤ account.totalBytes + audit.beforeNextReset

/-- A drop that is made up for hides what was transferred after it. -/
theorem not_missesBeforeResets :
    ¬memoryBackend.MissesBeforeResets ∧ ¬sqliteBackend.MissesBeforeResets := by
  have possible : Permitted TelemtWorld.step TelemtWorld.Allows sampleWorld
      (sampleHistory.take 5) := by decide +kernel
  refine ⟨fun bound => ?_, fun bound => ?_⟩ <;>
    have missed := bound sampleWorld (sampleHistory.take 5) possible "alice"
      ⟨1000, 50, some (150, 500)⟩ ⟨[⟨⟨500, 100⟩, [.count 150, .drop]⟩], ⟨⟨500, 150⟩, []⟩⟩
      (by decide +kernel) (by decide +kernel)
  · exact absurd missed (by decide)
  · exact absurd missed (by decide)

end Sample

end TelemtPanel.Store
