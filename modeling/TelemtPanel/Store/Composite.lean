import TelemtPanel.Store.Metric.FlushRuns
import TelemtPanel.Store.Traffic.MemoryLedger
import TelemtPanel.Store.Traffic.SQLiteLedger
import TelemtPanel.Store.UserIP.Memory
import TelemtPanel.Store.UserIP.SQLite

/-!
# Replacing storage policies

The policies belong to the state store; the history store works with a copy.  A
replacement is written to the state first and applied to the history then.  When the
history refuses it, the old policies are applied to both again.

Each of these steps also deletes what the policies it applies no longer keep, and
nothing brings that back.  So a refused replacement changes nothing exactly when
none of them has anything to delete.
-/

namespace TelemtPanel.Store

open TelemtPanel.Library

/-- `AuditEntry`; a time is counted in nanoseconds, and the zero time is none. -/
structure AuditEntry where
  ts : Option ℤ
  id : String
  action : String
  actor : String
  target : String
  outcome : String
  ip : String
  subject : String
  detail : String
deriving DecidableEq, Repr

/-- `retentionDuration`, in nanoseconds. -/
def retentionDuration (policy : StoragePolicy) : ℤ := retentionSecs policy * 1000000000

/-- An entry that is older than the retention of a policy. -/
def AuditEntry.expired (policy : StoragePolicy) (now : ℤ) (entry : AuditEntry) : Bool :=
  entry.ts.any fun ts => decide (ts < now - retentionDuration policy)

/-- `Memory.pruneAuditLocked`. -/
def pruneAudit (policy : StoragePolicy) (audit : List AuditEntry) (now : ℤ) : List AuditEntry :=
  if !policy.enabled || audit.isEmpty then audit
  else audit.filter fun entry => !entry.expired policy now

/-- What a write of the state file comes to: an error leaves the old file or the new one in
place. -/
inductive StateWrite where
  | written
  | published
  | unpublished
deriving DecidableEq, Repr

/-- Errors of a replacement. -/
inductive CompositeError where
  | policies (error : StoragePolicyError)
  | cancelled
  | state (published : Bool)
  | history
deriving DecidableEq, Repr

/-- `Memory.UserIPRetention`, in seconds. -/
def memoryUserIPRetention : ℤ := 86400

/-- What `Memory` holds as a state store, as far as policies concern it. -/
structure StateMemory where
  policies : ActivePolicies
  audit : List AuditEntry
  userIPs : MemoryUserIPs

/-- A write of the state: the clock before it, in nanoseconds, the clock after it, in seconds, and
how it ends. -/
structure StateAttempt where
  now : ℤ
  unix : ℤ
  write : StateWrite

/-- What a process-local history holds, as far as policies concern it. -/
structure MemoryHistory where
  policies : ActivePolicies
  traffic : MemoryTraffic
  userIPs : MemoryUserIPs

/-- What a durable history holds, as far as policies concern it. -/
structure SQLiteHistory where
  policies : ActivePolicies
  traffic : SQLiteTraffic
  userIPs : SQLiteUserIPs
  pendingMetrics : Table String (List MetricPoint)

inductive HistoryStore where
  | memory (history : MemoryHistory)
  | sqlite (history : SQLiteHistory)

/-- A call on the history: the clock in seconds, and whether it is refused, by a context that is
done or a transaction that fails. -/
structure HistoryAttempt where
  unix : ℤ
  refused : Bool

section Steps

variable (sorter : Sorter MemoryUserTrafficBucketKey.ts)

/-- `Memory.ReplaceStoragePoliciesContext`. -/
def StateMemory.replaceStoragePolicies (state : StateMemory) (policies : List StoragePolicy)
    (attempt : StateAttempt) : StateMemory × Option CompositeError :=
  match validated : validateStoragePolicies policies with
  | .error error => (state, some (.policies error))
  | .ok () =>
      let next := ActivePolicies.ofList policies validated
      let replaced : StateMemory :=
        { policies := next
          audit := pruneAudit (next.get .audit) state.audit attempt.now
          userIPs := state.userIPs.applyUserIPPolicy memoryUserIPRetention userIPMemoryLimit
            (state.policies.get .userIPHistory) (next.get .userIPHistory) attempt.unix }
      match attempt.write with
      | .written => (replaced, none)
      | .published => (replaced, some (.state true))
      | .unpublished => (state, some (.state false))

/-- `Memory.ApplyStoragePoliciesContext`, when it is not refused. -/
def MemoryHistory.applyStoragePolicies (history : MemoryHistory) (next : ActivePolicies)
    (now : ℤ) : MemoryHistory where
  policies := next
  userIPs := history.userIPs.applyUserIPPolicy memoryUserIPRetention userIPMemoryLimit
    (history.policies.get .userIPHistory) (next.get .userIPHistory) now
  traffic := history.traffic.pruneUserTrafficBuckets sorter (next.get .userTraffic) now

/-- `SQLite.ApplyStoragePoliciesContext`, when it is not refused. -/
def SQLiteHistory.applyStoragePolicies (history : SQLiteHistory) (next : ActivePolicies)
    (now : ℤ) : SQLiteHistory where
  policies := next
  traffic := pruneTrafficSummariesTx history.traffic now (retentionSecs (next.get .userTraffic))
  userIPs := history.userIPs.applyUserIPPolicy (retentionSecs (next.get .userIPHistory))
    (history.policies.get .userIPHistory) (next.get .userIPHistory) now
  pendingMetrics := history.pendingMetrics.filter fun name _ =>
    metricEnabled next.byCategory name

def HistoryStore.applyStoragePolicies (history : HistoryStore) (policies : List StoragePolicy)
    (attempt : HistoryAttempt) : HistoryStore × Option CompositeError :=
  match validated : validateStoragePolicies policies with
  | .error error => (history, some (.policies error))
  | .ok () =>
      if attempt.refused then (history, some .history)
      else
        let next := ActivePolicies.ofList policies validated
        match history with
        | .memory history =>
            (.memory (history.applyStoragePolicies sorter next attempt.unix), none)
        | .sqlite history =>
            (.sqlite (history.applyStoragePolicies next attempt.unix), none)

/-- A state store and a history store. -/
structure Composite where
  state : StateMemory
  history : HistoryStore

/-- What happens around a call of `Composite.ReplaceStoragePoliciesContext`. -/
structure Replacement where
  cancelled : Bool
  state : StateAttempt
  history : HistoryAttempt
  rollbackHistory : HistoryAttempt
  rollbackState : StateAttempt

/-- `Composite.ReplaceStoragePoliciesContext`: the stores afterwards and the joined errors. -/
def Composite.replaceStoragePolicies (c : Composite) (policies : List StoragePolicy)
    (call : Replacement) : Composite × List CompositeError :=
  match validateStoragePolicies policies with
  | .error error => (c, [.policies error])
  | .ok () =>
      let previous := c.state.policies.toList
      if call.cancelled then (c, [.cancelled])
      else
        let state := c.state.replaceStoragePolicies policies call.state
        if state.2 ≠ none ∧ state.2 ≠ some (.state true) then (⟨state.1, c.history⟩, state.2.toList)
        else
          let history := c.history.applyStoragePolicies sorter policies call.history
          match history.2 with
          | none => (⟨state.1, history.1⟩, state.2.toList)
          | some error =>
              -- The old policies are applied again, whatever the steps so far have deleted.
              let back := history.1.applyStoragePolicies sorter previous
                call.rollbackHistory
              let restored := state.1.replaceStoragePolicies previous
                call.rollbackState
              (⟨restored.1, back.1⟩, state.2.toList ++ error :: (back.2.toList ++ restored.2.toList))

/-- The history refuses the policies of a call, and both rollback calls succeed. -/
structure RolledBack (policies : List StoragePolicy) (call : Replacement) : Prop where
  valid : validateStoragePolicies policies = .ok ()
  started : call.cancelled = false
  published : call.state.write ≠ .unpublished
  refused : call.history.refused = true
  historyBack : call.rollbackHistory.refused = false
  stateBack : call.rollbackState.write = .written

/-- Policies, audit log and history records are what they were. -/
structure Restored (before after : Composite) : Prop where
  policies : after.state.policies = before.state.policies
  audit : after.state.audit = before.state.audit
  history : after.history = before.history

/-- A process-local history works with some policies and holds nothing that they delete. -/
structure MemoryHistory.Retained (history : MemoryHistory) (policies : ActivePolicies) (now : ℤ) :
    Prop where
  applied : history.policies = policies
  buckets : ∀ (key : MemoryUserTrafficBucketKey) (bytes : ℤ),
    history.traffic.userTrafficBuckets[key]? = some bytes →
      now - userTrafficMemoryRetentionSecs ≤ key.ts
  room : history.traffic.userTrafficBuckets.size ≤ userTrafficMemoryMaxBuckets
  users : ∀ (username : String) (current : MemoryUserTraffic),
    history.traffic.userTraffic[username]? = some current →
      expiredTrafficSummary current.summary
        (hasMemoryBuckets history.traffic.userTrafficBuckets username) now
        (memoryTombstoneRetention (policies.get .userTraffic)) = false

/-- A durable history works with some policies and holds nothing that they delete. -/
structure SQLiteHistory.Retained (history : SQLiteHistory) (policies : ActivePolicies) (now : ℤ) :
    Prop where
  applied : history.policies = policies
  users : ∀ (username : String) (row : UserTrafficRow),
    history.traffic.users[username]? = some row →
      expiredUserRow history.traffic.buckets now (retentionSecs (policies.get .userTraffic))
        username row = false
  pending : ∀ (name : String) (points : List MetricPoint),
    history.pendingMetrics[name]? = some points → metricEnabled policies.byCategory name = true

def HistoryStore.Retained (history : HistoryStore) (policies : ActivePolicies) (now : ℤ) : Prop :=
  match history with
  | .memory history => history.Retained policies now
  | .sqlite history => history.Retained policies now

/-- Neither the new policies nor the old ones delete anything. -/
structure Composite.NothingExpires (c : Composite) (policies : List StoragePolicy)
    (call : Replacement) : Prop where
  audit : ∀ entry ∈ c.state.audit,
    ¬(((policyMap policies).get .audit).enabled = true ∧
      entry.expired ((policyMap policies).get .audit) call.state.now = true) ∧
    ¬((c.state.policies.get .audit).enabled = true ∧
      entry.expired (c.state.policies.get .audit) call.rollbackState.now = true)
  history : c.history.Retained c.state.policies call.rollbackHistory.unix

end Steps

section Audit

variable {policy other : StoragePolicy} {audit : List AuditEntry} {now later : ℤ}

theorem pruneAudit_eq_filter (policy : StoragePolicy) (audit : List AuditEntry) (now : ℤ) :
    pruneAudit policy audit now =
      audit.filter fun entry => !(policy.enabled && entry.expired policy now) := by
  unfold pruneAudit
  cases policy.enabled with
  | false => simp
  | true =>
      cases audit with
      | nil => rfl
      | cons entry rest => simp

/-- Two prunings keep the log exactly when neither of them deletes an entry. -/
theorem pruneAudit_pruneAudit_eq_self_iff :
    pruneAudit other (pruneAudit policy audit now) later = audit ↔
      ∀ entry ∈ audit, ¬(policy.enabled = true ∧ entry.expired policy now = true) ∧
        ¬(other.enabled = true ∧ entry.expired other later = true) := by
  rw [pruneAudit_eq_filter, pruneAudit_eq_filter, List.filter_filter, List.filter_eq_self]
  apply forall₂_congr
  intro entry _
  rw [← Bool.and_eq_true, ← Bool.and_eq_true, Bool.and_eq_true, Bool.not_eq_true',
    Bool.not_eq_true', Bool.not_eq_true, Bool.not_eq_true, and_comm]

end Audit

section Applying

variable {sorter : Sorter MemoryUserTrafficBucketKey.ts} {policies : ActivePolicies} {now : ℤ}

theorem storagePoliciesEqual_self (policy : StoragePolicy) :
    storagePoliciesEqual policy policy = true := by
  simp [storagePoliciesEqual]

theorem MemoryHistory.applyStoragePolicies_eq_self_iff {history : MemoryHistory} :
    history.applyStoragePolicies sorter policies now = history ↔ history.Retained policies now := by
  constructor
  · intro same
    have applied : history.policies = policies := by rw [← same]; rfl
    have traffic : history.traffic.pruneUserTrafficBuckets sorter (policies.get .userTraffic) now =
        history.traffic := congrArg MemoryHistory.traffic same
    have buckets : pruneMemoryUserTrafficBuckets sorter history.traffic.userTrafficBuckets now =
        history.traffic.userTrafficBuckets := congrArg MemoryTraffic.userTrafficBuckets traffic
    have users : pruneMemoryTrafficSummaries history.traffic.userTraffic
        (pruneMemoryUserTrafficBuckets sorter history.traffic.userTrafficBuckets now) now
          (memoryTombstoneRetention (policies.get .userTraffic)) = history.traffic.userTraffic :=
      congrArg MemoryTraffic.userTraffic traffic
    rw [buckets] at users
    rcases pruneMemoryUserTrafficBuckets_eq_self_iff.mp buckets with ⟨recent, room⟩
    refine ⟨applied, recent, room, ?_⟩
    intro username current known
    simpa using Table.filter_eq_self_iff.mp users username current known
  · rintro ⟨rfl, recent, room, users⟩
    have buckets : pruneMemoryUserTrafficBuckets sorter history.traffic.userTrafficBuckets now =
        history.traffic.userTrafficBuckets :=
      pruneMemoryUserTrafficBuckets_eq_self_iff.mpr ⟨recent, room⟩
    have summaries : pruneMemoryTrafficSummaries history.traffic.userTraffic
        history.traffic.userTrafficBuckets now
          (memoryTombstoneRetention (history.policies.get .userTraffic)) =
            history.traffic.userTraffic := by
      apply Table.filter_eq_self_iff.mpr
      intro username current known
      simp [users username current known]
    simp only [applyStoragePolicies, MemoryUserIPs.applyUserIPPolicy, storagePoliciesEqual_self,
      if_true, MemoryTraffic.pruneUserTrafficBuckets, buckets, summaries]

theorem SQLiteHistory.applyStoragePolicies_eq_self_iff {history : SQLiteHistory} :
    history.applyStoragePolicies policies now = history ↔ history.Retained policies now := by
  constructor
  · intro same
    have applied : history.policies = policies := by rw [← same]; rfl
    refine ⟨applied, ?_, ?_⟩
    · exact pruneTrafficSummariesTx_eq_self_iff.mp (congrArg SQLiteHistory.traffic same)
    · exact Table.filter_eq_self_iff.mp (congrArg SQLiteHistory.pendingMetrics same)
  · rintro ⟨rfl, users, pending⟩
    have traffic := pruneTrafficSummariesTx_eq_self_iff.mpr users
    have metrics := Table.filter_eq_self_iff.mpr pending
    simp only [applyStoragePolicies, SQLiteUserIPs.applyUserIPPolicy, storagePoliciesEqual_self,
      if_true, traffic, metrics]

/-- The store after a call that is not refused. -/
theorem HistoryStore.applyStoragePolicies_of_valid {history : HistoryStore}
    {list : List StoragePolicy} {attempt : HistoryAttempt}
    (valid : validateStoragePolicies list = .ok ()) (accepted : attempt.refused = false) :
    history.applyStoragePolicies sorter list attempt =
      (match history with
        | .memory history => .memory
            (history.applyStoragePolicies sorter (.ofList list valid) attempt.unix)
        | .sqlite history => .sqlite
            (history.applyStoragePolicies (.ofList list valid) attempt.unix), none) := by
  unfold applyStoragePolicies
  split
  · rename_i refused
    rw [valid] at refused
    cases refused
  · rw [if_neg (by simp [accepted])]
    cases history with
    | memory history => rfl
    | sqlite history => rfl

/-- An active set that is applied again keeps a history exactly when nothing expires. -/
theorem HistoryStore.applyStoragePolicies_toList_eq_self_iff {history : HistoryStore}
    {attempt : HistoryAttempt} (accepted : attempt.refused = false) :
    (history.applyStoragePolicies sorter policies.toList attempt).1 = history ↔
      history.Retained policies attempt.unix := by
  rw [applyStoragePolicies_of_valid policies.validate_toList accepted,
    ActivePolicies.ofList_toList]
  cases history with
  | memory history =>
      rw [HistoryStore.memory.injEq]
      exact MemoryHistory.applyStoragePolicies_eq_self_iff
  | sqlite history =>
      rw [HistoryStore.sqlite.injEq]
      exact SQLiteHistory.applyStoragePolicies_eq_self_iff

theorem HistoryStore.applyStoragePolicies_of_refused {history : HistoryStore}
    {list : List StoragePolicy} {attempt : HistoryAttempt}
    (valid : validateStoragePolicies list = .ok ()) (refused : attempt.refused = true) :
    history.applyStoragePolicies sorter list attempt = (history, some .history) := by
  unfold applyStoragePolicies
  split
  · rename_i invalid
    rw [valid] at invalid
    cases invalid
  · rw [if_pos refused]

/-- A write that reaches the file replaces the policies and prunes the log. -/
theorem StateMemory.replaceStoragePolicies_of_valid (state : StateMemory)
    {list : List StoragePolicy} {attempt : StateAttempt}
    (valid : validateStoragePolicies list = .ok ()) (reached : attempt.write ≠ .unpublished) :
    (state.replaceStoragePolicies list attempt).1.policies = .ofList list valid ∧
      (state.replaceStoragePolicies list attempt).1.audit =
        pruneAudit ((policyMap list).get .audit) state.audit attempt.now ∧
      ((state.replaceStoragePolicies list attempt).2 = none ∨
        (state.replaceStoragePolicies list attempt).2 = some (.state true)) := by
  unfold replaceStoragePolicies
  split
  · rename_i invalid
    rw [valid] at invalid
    cases invalid
  · cases write : attempt.write with
    | written => exact ⟨rfl, rfl, .inl rfl⟩
    | published => exact ⟨rfl, rfl, .inr rfl⟩
    | unpublished => exact absurd write reached

end Applying

section Rollback

variable {sorter : Sorter MemoryUserTrafficBucketKey.ts} {c : Composite}
  {policies : List StoragePolicy} {call : Replacement}

/-- The stores after a rollback: the old policies are applied to both. -/
theorem RolledBack.replaceStoragePolicies_eq (rolled : RolledBack policies call) :
    (c.replaceStoragePolicies sorter policies call).1 =
      ⟨((c.state.replaceStoragePolicies policies call.state).1.replaceStoragePolicies
          c.state.policies.toList call.rollbackState).1,
        (c.history.applyStoragePolicies sorter c.state.policies.toList
          call.rollbackHistory).1⟩ := by
  have passes : ¬((c.state.replaceStoragePolicies policies call.state).2 ≠ none ∧
      (c.state.replaceStoragePolicies policies call.state).2 ≠ some (.state true)) := by
    rw [not_and_or, not_not, not_not]
    exact (StateMemory.replaceStoragePolicies_of_valid _ rolled.valid rolled.published).2.2
  simp only [Composite.replaceStoragePolicies, rolled.valid, rolled.started, Bool.false_eq_true,
    if_false, if_neg passes,
    HistoryStore.applyStoragePolicies_of_refused rolled.valid rolled.refused]

/-- A refused replacement changes nothing exactly when neither the new policies nor the old ones
have anything to delete. -/
theorem restored_iff (sorter : Sorter MemoryUserTrafficBucketKey.ts) (c : Composite)
    (policies : List StoragePolicy) (call : Replacement) (rolled : RolledBack policies call) :
    Restored c (c.replaceStoragePolicies sorter policies call).1 ↔
      c.NothingExpires policies call := by
  have reached : call.rollbackState.write ≠ .unpublished := by
    rw [rolled.stateBack]
    decide
  rcases c.state.replaceStoragePolicies_of_valid rolled.valid rolled.published
    with ⟨-, audit, -⟩
  rcases (c.state.replaceStoragePolicies policies call.state).1.replaceStoragePolicies_of_valid
    c.state.policies.validate_toList reached with ⟨policiesBack, auditBack, -⟩
  rw [ActivePolicies.ofList_toList] at policiesBack
  rw [audit, ActivePolicies.policyMap_toList] at auditBack
  rw [rolled.replaceStoragePolicies_eq]
  constructor
  · rintro ⟨-, sameAudit, sameHistory⟩
    refine ⟨?_, ?_⟩
    · exact pruneAudit_pruneAudit_eq_self_iff.mp (auditBack.symm.trans sameAudit)
    · exact (HistoryStore.applyStoragePolicies_toList_eq_self_iff rolled.historyBack).mp sameHistory
  · rintro ⟨keptAudit, keptHistory⟩
    refine ⟨policiesBack, ?_, ?_⟩
    · exact auditBack.trans (pruneAudit_pruneAudit_eq_self_iff.mpr keptAudit)
    · exact (HistoryStore.applyStoragePolicies_toList_eq_self_iff rolled.historyBack).mpr
        keptHistory

/-- A time of some day, in nanoseconds. -/
def sampleDay (day : ℤ) : ℤ := day * 86400000000000

/-- The traffic of a user in the last quarter before the hundredth day. -/
def sampleQuarter : MemoryTraffic where
  userTraffic := (∅ : MemoryTrafficTable).insert "alice"
    ⟨⟨"alice", 100, 100, 197004, 8639100, 8639100, 0, .userTrafficNormal⟩, 100, 1, true⟩
  userTrafficBuckets := (∅ : MemoryBucketTable).insert ⟨"alice", 8639100⟩ 100
  userTrafficCollector := ⟨8639100, 1, .userTrafficCollecting, .userTrafficNormal⟩
  hasTrafficCollector := true

/-- Stores with the recommended policies, the traffic of a user and one audit entry, which is made
on a given day. -/
def sampleStores (day : ℤ) : Composite where
  state :=
    { policies := .default
      audit := [⟨some (sampleDay day), "1", "login", "admin", "", "ok", "10.0.0.1", "", ""⟩]
      userIPs := .empty }
  history := .memory ⟨.default, sampleQuarter, .empty⟩

/-- The recommended policies, except that the audit log is kept for a month only. -/
def sampleMonthPolicies : List StoragePolicy :=
  defaultStoragePolicies.map fun policy =>
    if policy.category = .audit then { policy with retentionDays := 30 } else policy

/-- A replacement on the hundredth day that the history refuses. -/
def sampleReplacement : Replacement where
  cancelled := false
  state := ⟨sampleDay 100, 8640000, .written⟩
  history := ⟨8640000, true⟩
  rollbackHistory := ⟨8640000, false⟩
  rollbackState := ⟨sampleDay 100, 8640000, .written⟩

theorem rolledBack_sample : RolledBack sampleMonthPolicies sampleReplacement := by
  refine ⟨?_, rfl, ?_, rfl, rfl, rfl⟩
  · decide
  · decide

/-- An entry of the last month stays. -/
theorem sampleStores_restored :
    Restored (sampleStores 90) ((sampleStores 90).replaceStoragePolicies (.insertion _)
      sampleMonthPolicies sampleReplacement).1 := by
  refine (restored_iff (.insertion _) (sampleStores 90) sampleMonthPolicies sampleReplacement
    rolledBack_sample).mpr ⟨?_, rfl, ?_, ?_, ?_⟩
  · decide +kernel
  · intro key bytes known
    simp only [sampleQuarter, Table.lookup_insert] at known
    split at known
    · rename_i isKey
      subst isKey
      decide
    · simp at known
  · decide +kernel
  · intro username current known
    simp only [sampleQuarter, Table.lookup_insert] at known
    split at known
    · rename_i isUser
      cases known
      subst isUser
      decide +kernel
    · simp at known

/-- An entry that the old policies keep and the new ones do not is lost. -/
theorem not_restored_of_rolledBack :
    ¬∀ (sorter : Sorter MemoryUserTrafficBucketKey.ts) (c : Composite)
      (policies : List StoragePolicy) (call : Replacement), RolledBack policies call →
        Restored c (c.replaceStoragePolicies sorter policies call).1 := by
  intro restored
  have audit := (restored (.insertion _) (sampleStores 40) sampleMonthPolicies sampleReplacement
    rolledBack_sample).audit
  revert audit
  decide +kernel

end Rollback

end TelemtPanel.Store
