import TelemtPanel.Store.Traffic.Portable

/-!
# Restarting the accounting of traffic

`ResetUserTraffic` removes every total, baseline, bucket and collector record, so that the
store should go on like a new one with the same policies.  The durable store does.  The
process-local store keeps the flag which says that its collector record counts, so that it
goes on with a collector record of zeros unless the flag was not set in the first place.
-/

namespace TelemtPanel.Store

open TelemtPanel.Library

/-- Calls that lead to the state in which a store is reset. -/
inductive TrafficStoreCall where
  | traffic (call : TrafficCall)
  | resetUserTraffic
  | purgeHistory (now : ℤ)
  | importData (data : PortableTraffic)
  | rollbackImportedHistory

/-- Snapshots and reads.  Summaries are read at a time. -/
inductive TrafficUse where
  | applyUserTrafficSnapshot (snapshot : UserTrafficSnapshot)
  | userTrafficCollectorState
  | userTrafficSummaries (asOf : ℤ)
  | exportData
  | exportJSON

inductive TrafficReply where
  | applied (deltaBytes : ℤ)
  | refused (error : UserTrafficError)
  | collector (state : UserTrafficCollectorState)
  | summaries (summaries : Table String UserTrafficSummary)
  | exported (data : PortableTraffic)
  | exportRefused (error : PortableTrafficError)

/-- Reply to an export in text form. -/
def TrafficReply.ofExport : Except PortableTrafficError PortableTraffic → TrafficReply
  | .ok data => .exported data
  | .error error => .exportRefused error

/-- Continuity of the collector record in a reply. -/
def TrafficReply.continuity : TrafficReply → Option UserTrafficContinuity
  | .collector state => some state.continuity
  | _ => none

namespace MemoryTrafficStore

/-- A new store. -/
def fresh (policies : ActivePolicies) : MemoryTrafficStore := ⟨policies, .empty⟩

/-- `Memory.ResetUserTrafficContext` -/
def resetUserTraffic (store : MemoryTrafficStore) : MemoryTrafficStore :=
  { store with traffic := store.traffic.resetUserTraffic }

def call (sorter : Sorter MemoryUserTrafficBucketKey.ts) (store : MemoryTrafficStore) :
    TrafficStoreCall → MemoryTrafficStore
  | .traffic call => store.step sorter call
  | .resetUserTraffic => store.resetUserTraffic
  | .purgeHistory now => store.purgeHistory now
  | .importData data => (store.importData sorter data).toOption.getD store
  | .rollbackImportedHistory => store.rollbackImportedHistory

def use (sorter : Sorter MemoryUserTrafficBucketKey.ts) (store : MemoryTrafficStore) :
    TrafficUse → TrafficReply × MemoryTrafficStore
  | .applyUserTrafficSnapshot snapshot =>
      match store.traffic.applyUserTrafficSnapshot sorter (store.policies.get .userTraffic)
          snapshot with
      | .error error => (.refused error, store)
      | .ok (deltaBytes, traffic) => (.applied deltaBytes, { store with traffic := traffic })
  | .userTrafficCollectorState => (.collector store.traffic.collectorState, store)
  | .userTrafficSummaries asOf => (.summaries (store.traffic.summaries asOf), store)
  | .exportData => (.exported store.exportData, store)
  | .exportJSON => (.ofExport store.exportJSON, store)

/-- After a reset, snapshots and reads are answered as by a new store with the same policies. -/
def Restarts (sorter : Sorter MemoryUserTrafficBucketKey.ts) (store : MemoryTrafficStore) : Prop :=
  ∀ later : List TrafficUse, outputs (use sorter) store.resetUserTraffic later =
    outputs (use sorter) (fresh store.policies) later

end MemoryTrafficStore

namespace SQLiteTrafficStore

/-- A new database. -/
def fresh (policies : ActivePolicies) : SQLiteTrafficStore := ⟨policies, .empty⟩

/-- `SQLite.ResetUserTrafficContext` -/
def resetUserTraffic (store : SQLiteTrafficStore) : SQLiteTrafficStore :=
  { store with traffic := store.traffic.resetUserTraffic }

def call (store : SQLiteTrafficStore) : TrafficStoreCall → SQLiteTrafficStore
  | .traffic call => store.step call
  | .resetUserTraffic => store.resetUserTraffic
  | .purgeHistory now => store.purgeHistory now
  | .importData data => (store.importData data).toOption.getD store
  | .rollbackImportedHistory => store.rollbackImportedHistory

def use (store : SQLiteTrafficStore) : TrafficUse → TrafficReply × SQLiteTrafficStore
  | .applyUserTrafficSnapshot snapshot =>
      match store.traffic.applyUserTrafficSnapshot (store.policies.get .userTraffic) snapshot with
      | .error error => (.refused error, store)
      | .ok (deltaBytes, traffic) => (.applied deltaBytes, { store with traffic := traffic })
  | .userTrafficCollectorState => (.collector store.traffic.collectorState, store)
  | .userTrafficSummaries asOf => (.summaries (store.traffic.summaries asOf), store)
  | .exportData => (.exported store.exportData, store)
  | .exportJSON => (.ofExport store.exportJSON, store)

/-- After a reset, snapshots and reads are answered as by a new store with the same policies. -/
def Restarts (store : SQLiteTrafficStore) : Prop :=
  ∀ later : List TrafficUse, outputs use store.resetUserTraffic later =
    outputs use (fresh store.policies) later

/-- A reset database is a new one. -/
theorem restarts (store : SQLiteTrafficStore) : store.Restarts := fun _ => rfl

end SQLiteTrafficStore

namespace MemoryTrafficStore

section Flag

variable {sorter : Sorter MemoryUserTrafficBucketKey.ts} {store : MemoryTrafficStore}

/-- Whether a call leaves a collector record behind that counts. -/
def Observes (sorter : Sorter MemoryUserTrafficBucketKey.ts) (store : MemoryTrafficStore) :
    TrafficStoreCall → Prop
  | .traffic (.applyUserTrafficSnapshot snapshot) =>
      ∃ deltaBytes traffic, store.traffic.applyUserTrafficSnapshot sorter
        (store.policies.get .userTraffic) snapshot = .ok (deltaBytes, traffic)
  | .importData data => data.userTrafficCollector.isSome ∧
      ∃ next, store.importData sorter data = .ok next
  | _ => False

/-- An accepted snapshot sets the flag. -/
theorem hasTrafficCollector_of_applied {memory next : MemoryTraffic} {policy : StoragePolicy}
    {snapshot : UserTrafficSnapshot} {deltaBytes : ℤ}
    (applied : memory.applyUserTrafficSnapshot sorter policy snapshot = .ok (deltaBytes, next)) :
    next.hasTrafficCollector = true := by
  rcases MemoryTraffic.applyUserTrafficSnapshot_eq_ok_iff.mp applied with ⟨-, -, work, -, same⟩
  cases same
  rfl

/-- An import goes into a store without the flag, and sets it if the data has a collector. -/
theorem hasTrafficCollector_of_imported {data : PortableTraffic} {next : MemoryTrafficStore}
    (imported : store.importData sorter data = .ok next) :
    store.traffic.hasTrafficCollector = false ∧
      next.traffic.hasTrafficCollector = data.userTrafficCollector.isSome := by
  rcases exists_of_bind_ok imported with ⟨_, -, imported⟩
  split at imported
  · cases imported
  rename_i isEmpty
  have unset : store.traffic.hasTrafficCollector = false := by
    simpa using (not_or.mp isEmpty).2
  refine ⟨unset, ?_⟩
  cases imported
  unfold importedTraffic
  cases data.userTrafficCollector with
  | none => exact unset
  | some collector => rfl

/-- What a call does to the flag. -/
theorem hasTrafficCollector_call (made : TrafficStoreCall) :
    (store.call sorter made).traffic.hasTrafficCollector = true ↔
      store.Observes sorter made ∨
        (made ≠ .rollbackImportedHistory ∧ store.traffic.hasTrafficCollector = true) := by
  cases made with
  | traffic call =>
      cases call with
      | applyUserTrafficSnapshot snapshot =>
          simp only [call, step, answer, Observes]
          cases applied : store.traffic.applyUserTrafficSnapshot sorter
              (store.policies.get .userTraffic) snapshot with
          | error refusal => simp
          | ok result =>
              simp only [hasTrafficCollector_of_applied applied, true_iff]
              exact Or.inl ⟨result.1, result.2, rfl⟩
      | deleteUserHistory username =>
          simp [call, step, answer, Observes, MemoryTraffic.deleteUserHistory]
      | applyStoragePolicies policies now =>
          simp only [call, step, answer, Observes]
          split <;> simp [MemoryTraffic.pruneUserTrafficBuckets]
  | resetUserTraffic => simp [call, resetUserTraffic, MemoryTraffic.resetUserTraffic, Observes]
  | purgeHistory now => simp [call, purgeHistory, Observes]
  | importData data =>
      simp only [call, Observes]
      cases imported : store.importData sorter data with
      | error refusal => simp [Except.toOption]
      | ok next =>
          rcases hasTrafficCollector_of_imported imported with ⟨unset, sets⟩
          simp [Except.toOption, unset, sets]
  | rollbackImportedHistory => simp [call, rollbackImportedHistory, MemoryTraffic.empty, Observes]

/-- A call of a run left a collector record behind, and no import was rolled back since. -/
def Observed (sorter : Sorter MemoryUserTrafficBucketKey.ts) (store : MemoryTrafficStore)
    (calls : List TrafficStoreCall) : Prop :=
  ∃ earlier latest later, calls = earlier ++ latest :: later ∧
    (after (call sorter) store earlier).Observes sorter latest ∧
    .rollbackImportedHistory ∉ later

/-- The last call of a run either observes itself or keeps what the others observed. -/
theorem observed_append_iff {calls : List TrafficStoreCall} {last : TrafficStoreCall} :
    store.Observed sorter (calls ++ [last]) ↔
      (after (call sorter) store calls).Observes sorter last ∨
        (last ≠ .rollbackImportedHistory ∧ store.Observed sorter calls) := by
  constructor
  · rintro ⟨earlier, latest, later, same, observes, kept⟩
    rcases List.eq_nil_or_concat later with rfl | ⟨front, final, rfl⟩
    · rcases List.append_inj' same rfl with ⟨rfl, single⟩
      cases single
      exact Or.inl observes
    · rw [List.concat_eq_append, ← List.cons_append, ← List.append_assoc] at same
      rcases List.append_inj' same rfl with ⟨rfl, single⟩
      cases single
      simp only [List.concat_eq_append, List.mem_append, List.mem_singleton, not_or] at kept
      exact Or.inr ⟨Ne.symm kept.2, earlier, latest, front, rfl, observes, kept.1⟩
  · rintro (observes | ⟨notRollback, earlier, latest, later, rfl, observes, kept⟩)
    · exact ⟨calls, last, [], rfl, observes, by simp⟩
    · exact ⟨earlier, latest, later ++ [last], by simp, observes, by simp [kept, Ne.symm notRollback]⟩

/-- The flag is set exactly when a call has left a collector record behind. -/
theorem hasTrafficCollector_after (unset : store.traffic.hasTrafficCollector = false)
    (calls : List TrafficStoreCall) :
    (after (call sorter) store calls).traffic.hasTrafficCollector = true ↔
      store.Observed sorter calls := by
  induction calls using List.reverseRecOn with
  | nil => simp [unset, Observed]
  | append_singleton calls last ih =>
      rw [after_append, observed_append_iff, ← ih]
      exact hasTrafficCollector_call last

end Flag

section Restart

variable {sorter : Sorter MemoryUserTrafficBucketKey.ts} {store : MemoryTrafficStore}

/-- Without the flag, a reset store is a new one. -/
theorem restarts_of_unset (unset : store.traffic.hasTrafficCollector = false) :
    store.Restarts sorter := by
  have same : store.resetUserTraffic = fresh store.policies := by
    simp only [resetUserTraffic, fresh, MemoryTraffic.resetUserTraffic, MemoryTraffic.empty, unset]
  intro later
  rw [same]

/-- With the flag, a reset store shows a collector record of zeros. -/
theorem collectorState_resetUserTraffic (set : store.traffic.hasTrafficCollector = true) :
    store.resetUserTraffic.traffic.collectorState = .zero := by
  simp [resetUserTraffic, MemoryTraffic.resetUserTraffic, MemoryTraffic.collectorState, set]

/-- With the flag, a reset store has no export in text form. -/
theorem exportJSON_resetUserTraffic (set : store.traffic.hasTrafficCollector = true)
    (data : PortableTraffic) : store.resetUserTraffic.exportJSON ≠ .ok data := by
  have present : store.resetUserTraffic.traffic.hasTrafficCollector = true := set
  have zeros : store.resetUserTraffic.traffic.userTrafficCollector = .zero := rfl
  apply exportJSON_ne_ok present
  rw [zeros]
  decide

/-- With the flag, the first snapshot after a reset that comes more than a minute after the
epoch counts as one after a gap, where a new store sees none. -/
theorem continuity_resetUserTraffic (set : store.traffic.hasTrafficCollector = true)
    {snapshot : UserTrafficSnapshot} (valid : snapshot.Valid)
    (enabled : snapshot.telemetryEnabled = true)
    (late : 2 * userTrafficCollectorPeriodSecs < snapshot.observedAt)
    (fits : snapshot.observedAt * nanosPerSecond ≤ maxInt64) :
    nextUserTrafficContinuity store.resetUserTraffic.traffic.collector? snapshot =
        .userTrafficPartial ∧
      nextUserTrafficContinuity (fresh store.policies).traffic.collector? snapshot =
        .userTrafficNormal := by
  have started : snapshot.sourceStartedAt ≠ 0 := valid.sourceStartedAt_pos.ne'
  have gap : wrapInt64 (snapshot.observedAt * nanosPerSecond) =
      snapshot.observedAt * nanosPerSecond := by
    apply wrapInt64_of_range _ fits
    have := valid.observedAt_pos
    simp only [minInt64, nanosPerSecond]
    omega
  simp only [resetUserTraffic, MemoryTraffic.resetUserTraffic, fresh, MemoryTraffic.empty,
    MemoryTraffic.collector?, set, if_true, nextUserTrafficContinuity, enabled,
    UserTrafficCollectorState.zero, sub_zero, gap]
  refine ⟨?_, by simp⟩
  rw [if_neg (by simp), if_pos]
  refine Or.inr ⟨started, ?_⟩
  simp only [userTrafficCollectorPeriodSecs, nanosPerSecond] at late ⊢
  omega

theorem restarts_iff_unset :
    store.Restarts sorter ↔ store.traffic.hasTrafficCollector = false := by
  constructor
  · intro restarts
    by_contra set
    simp only [Bool.not_eq_false] at set
    have same := restarts [.userTrafficCollectorState]
    simp only [outputs, use, List.cons.injEq, TrafficReply.collector.injEq, and_true,
      collectorState_resetUserTraffic set] at same
    have absent : (fresh store.policies).traffic.collectorState = .absent := rfl
    rw [absent] at same
    exact absurd same (by decide)
  · exact restarts_of_unset

end Restart

end MemoryTrafficStore

/-- After every run from a new store, a reset of the durable store is a restart.  A reset of
the process-local store is one exactly when no snapshot and no collector record has been
accepted, or an import was rolled back since. -/
theorem reset_restarts_iff (sorter : Sorter MemoryUserTrafficBucketKey.ts)
    (policies : ActivePolicies) (calls : List TrafficStoreCall) :
    ((after (MemoryTrafficStore.call sorter) (.fresh policies) calls).Restarts sorter ↔
        ¬(MemoryTrafficStore.fresh policies).Observed sorter calls) ∧
      (after SQLiteTrafficStore.call (.fresh policies) calls).Restarts := by
  refine ⟨?_, SQLiteTrafficStore.restarts _⟩
  rw [MemoryTrafficStore.restarts_iff_unset, ← MemoryTrafficStore.hasTrafficCollector_after rfl]
  simp

/-- One user is listed before the reset. -/
def sampleObserved : TrafficStoreCall :=
  .traffic (.applyUserTrafficSnapshot ⟨1000, 500, true, [⟨"alice", 5⟩]⟩)

/-- After the reset the same user is listed again, half a minute later. -/
def sampleAfterReset : List TrafficUse :=
  [.applyUserTrafficSnapshot ⟨1030, 500, true, [⟨"alice", 9⟩]⟩, .userTrafficCollectorState]

theorem sampleObserved_not_restarted :
    ¬(after (MemoryTrafficStore.call (.stable _)) (.fresh .default) [sampleObserved]).Restarts
      (.stable _) := by
  intro restarts
  have same := congrArg List.getLast? (restarts sampleAfterReset)
  have continuity := congrArg (Option.map TrafficReply.continuity) same
  exact absurd continuity (by decide +kernel)

end TelemtPanel.Store
