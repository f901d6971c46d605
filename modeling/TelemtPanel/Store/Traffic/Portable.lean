import TelemtPanel.Store.Traffic.Agreement
import TelemtPanel.Store.Traffic.Read

/-!
# Portable traffic data

Both stores write their traffic as the same portable lists, and both read them back into an
empty store.  An import validates the lists first.  So does an export in text form, which
therefore refuses a store that holds what no store may hold.
-/

namespace TelemtPanel.Store

open TelemtPanel.Library

structure PortableUserTrafficUser where
  summary : UserTrafficSummary
  lastRawOctets : Option ℤ
  lastSourceStartedAt : Option ℤ
deriving DecidableEq, Repr

structure PortableUserTrafficBucket where
  username : String
  tier : MetricTier
  ts : ℤ
  bytes : ℤ
deriving DecidableEq, Repr

/-- The policies and the traffic part of `PortableData`. -/
structure PortableTraffic where
  policies : List StoragePolicy
  userTraffic : List PortableUserTrafficUser
  userTrafficBuckets : List PortableUserTrafficBucket
  userTrafficCollector : Option UserTrafficCollectorState
deriving DecidableEq, Repr

/-- Reasons for which portable data is refused. -/
inductive PortableTrafficError where
  | policies (error : StoragePolicyError)
  | entry (username : String)
  | baseline (username : String)
  | duplicateEntry (username : String)
  | bucket (username : String)
  | duplicateBucket (username : String)
  | collector
  | orphanBucket
  | storeNotEmpty
deriving DecidableEq, Repr

/-- Text of a refusal, where `quote` stands for the verb `%q`. -/
def PortableTrafficError.text (quote : String → String) : PortableTrafficError → String
  | .policies error => "invalid storage policies: " ++ error.text
  | .entry username => "invalid portable user traffic entry " ++ quote username
  | .baseline username => "invalid portable user traffic baseline " ++ quote username
  | .duplicateEntry username => "duplicate portable user traffic entry " ++ quote username
  | .bucket username => "invalid portable user traffic bucket for " ++ quote username
  | .duplicateBucket username => "duplicate portable user traffic bucket for " ++ quote username
  | .collector => "invalid portable user traffic collector"
  | .orphanBucket => "portable user traffic contains an orphan bucket"
  | .storeNotEmpty => "store import requires an empty destination"

def validatePortableUserTrafficUser (item : PortableUserTrafficUser) :
    Except PortableTrafficError Unit :=
  let summary := item.summary
  if summary.username = "" ∨ summary.observedTotalBytes < 0 ∨ summary.currentMonthBytes < 0 ∨
      summary.observedSinceEpochSecs ≤ 0 ∨ (summary.continuity ≠ .userTrafficNormal ∧
        summary.continuity ≠ .userTrafficPartial) then
    .error (.entry summary.username)
  else if item.lastRawOctets.isNone ≠ item.lastSourceStartedAt.isNone ∨
      (item.lastRawOctets.any (· < 0) ∨
        (item.lastRawOctets.isSome ∧ item.lastSourceStartedAt.any (· ≤ 0))) then
    .error (.baseline summary.username)
  else .ok ()

def validatePortableUserTrafficBucket (bucket : PortableUserTrafficBucket) :
    Except PortableTrafficError Unit :=
  if bucket.username = "" ∨ bucket.ts ≤ 0 ∨ bucket.bytes ≤ 0 ∨
      (bucket.tier ≠ .metricTierQuarter ∧ bucket.tier ≠ .metricTierHour ∧
        bucket.tier ≠ .metricTierDay) then
    .error (.bucket bucket.username)
  else .ok ()

def validatePortableUserTrafficCollector (state : UserTrafficCollectorState) :
    Except PortableTrafficError Unit :=
  if state.lastSuccessTS ≤ 0 ∨ state.sourceStartedAt ≤ 0 ∨
      (state.sourceState ≠ .userTrafficCollecting ∧ state.sourceState ≠ .userTrafficPaused ∧
        state.sourceState ≠ .userTrafficUnavailable) ∨
      (state.continuity ≠ .userTrafficNormal ∧ state.continuity ≠ .userTrafficPartial) then
    .error .collector
  else .ok ()

/-- The loop over the users, which collects their names. -/
def validatePortableUsers (users : List String) :
    List PortableUserTrafficUser → Except PortableTrafficError (List String)
  | [] => .ok users
  | item :: items => do
      validatePortableUserTrafficUser item
      if item.summary.username ∈ users then .error (.duplicateEntry item.summary.username)
      else validatePortableUsers (item.summary.username :: users) items

/-- The loop over the buckets, which collects their keys. -/
def validatePortableBuckets (users : List String) (seen : List (String × MetricTier × ℤ)) :
    List PortableUserTrafficBucket → Except PortableTrafficError Unit
  | [] => .ok ()
  | bucket :: buckets => do
      if bucket.username ∉ users then .error (.bucket bucket.username)
      validatePortableUserTrafficBucket bucket
      let key := (bucket.username, bucket.tier, bucket.ts)
      if key ∈ seen then .error (.duplicateBucket bucket.username)
      else validatePortableBuckets users (key :: seen) buckets

def validatePortableUserTraffic (data : PortableTraffic) : Except PortableTrafficError Unit := do
  let users ← validatePortableUsers [] data.userTraffic
  validatePortableBuckets users [] data.userTrafficBuckets
  match data.userTrafficCollector with
  | some state => validatePortableUserTrafficCollector state
  | none => .ok ()

/-- What `normalizePortableData` checks of the policies and the traffic. -/
def normalizePortableTraffic (data : PortableTraffic) : Except PortableTrafficError Unit := do
  if data.policies.length > 0 then
    (validateStoragePolicies data.policies).mapError .policies
  validatePortableUserTraffic data

/-- The policies an import without addresses puts in place of the active ones. -/
def importedPolicies (data : PortableTraffic) (previous : ActivePolicies) : ActivePolicies :=
  if validated : validateStoragePolicies data.policies = .ok () then
    ActivePolicies.ofList data.policies validated
  else previous

def portableMemoryUserTraffic (values : MemoryTrafficTable) : List PortableUserTrafficUser :=
  values.rows.map fun value =>
    if value.hasBaseline then ⟨value.summary, some value.lastRaw, some value.lastSourceStart⟩
    else ⟨value.summary, none, none⟩

def portableMemoryUserTrafficBuckets (values : MemoryBucketTable) :
    List PortableUserTrafficBucket :=
  values.toList.map fun row => ⟨row.1.username, .metricTierQuarter, row.1.ts, row.2⟩

def portableMemoryUserTrafficCollector (value : UserTrafficCollectorState) (present : Bool) :
    Option UserTrafficCollectorState :=
  if present then some value else none

def memoryUserTrafficOfPortable (item : PortableUserTrafficUser) : MemoryUserTraffic :=
  match item.lastRawOctets, item.lastSourceStartedAt with
  | some lastRaw, some lastSourceStart => ⟨item.summary, lastRaw, lastSourceStart, true⟩
  | _, _ => ⟨item.summary, 0, 0, false⟩

/-- `memoryUserTrafficFromPortable` -/
def memoryUserTrafficTable (values : List PortableUserTrafficUser) : MemoryTrafficTable :=
  values.foldl (fun table item =>
    table.insert item.summary.username (memoryUserTrafficOfPortable item)) ∅

/-- `memoryUserTrafficBucketsFromPortable`, which drops the coarser tiers. -/
def memoryUserTrafficBucketTable (values : List PortableUserTrafficBucket) : MemoryBucketTable :=
  values.foldl (fun table item =>
    if item.tier ≠ .metricTierQuarter then table
    else table.insert ⟨item.username, item.ts⟩ item.bytes) ∅

namespace MemoryTrafficStore

/-- The policies and the traffic of `Memory.ExportData`. -/
def exportData (store : MemoryTrafficStore) : PortableTraffic where
  policies := store.policies.toList
  userTraffic := portableMemoryUserTraffic store.traffic.userTraffic
  userTrafficBuckets := portableMemoryUserTrafficBuckets store.traffic.userTrafficBuckets
  userTrafficCollector := portableMemoryUserTrafficCollector store.traffic.userTrafficCollector
    store.traffic.hasTrafficCollector

/-- `Memory.ExportJSON`: the data that is written as text. -/
def exportJSON (store : MemoryTrafficStore) : Except PortableTrafficError PortableTraffic := do
  normalizePortableTraffic store.exportData
  .ok store.exportData

/-- Traffic after an import.  The imported history is pruned under the policy that was active
before. -/
def importedTraffic (sorter : Sorter MemoryUserTrafficBucketKey.ts) (store : MemoryTrafficStore)
    (data : PortableTraffic) : MemoryTraffic :=
  let imported : MemoryTraffic :=
    { store.traffic with
      userTraffic := memoryUserTrafficTable data.userTraffic
      userTrafficBuckets := memoryUserTrafficBucketTable data.userTrafficBuckets }
  match data.userTrafficCollector with
  | none => imported
  | some collector =>
      ({ imported with userTrafficCollector := collector, hasTrafficCollector := true } :
        MemoryTraffic).pruneUserTrafficBuckets sorter (store.policies.get .userTraffic)
          collector.lastSuccessTS

/-- `Memory.ImportData` into a store that holds nothing but traffic. -/
def importData (sorter : Sorter MemoryUserTrafficBucketKey.ts) (store : MemoryTrafficStore)
    (data : PortableTraffic) : Except PortableTrafficError MemoryTrafficStore := do
  normalizePortableTraffic data
  if store.traffic.userTraffic.size + store.traffic.userTrafficBuckets.size ≠ 0 ∨
      store.traffic.hasTrafficCollector then
    .error .storeNotEmpty
  else .ok ⟨importedPolicies data store.policies, store.importedTraffic sorter data⟩

/-- `Memory.rollbackImportedHistory` -/
def rollbackImportedHistory (store : MemoryTrafficStore) : MemoryTrafficStore :=
  { store with traffic := .empty }

/-- `Memory.PurgeHistoryContext` for the traffic of users. -/
def purgeHistory (store : MemoryTrafficStore) (now : ℤ) : MemoryTrafficStore :=
  { store with
    traffic := { store.traffic with
      userTraffic := pruneMemoryTrafficSummaries store.traffic.userTraffic ∅ now
        (memoryTombstoneRetention (store.policies.get .userTraffic))
      userTrafficBuckets := ∅ } }

end MemoryTrafficStore

/-- `walkPortableUserTrafficUsers` -/
def walkPortableUserTrafficUsers (users : UserTrafficUsers) : List PortableUserTrafficUser :=
  users.toList.map fun row =>
    ⟨(StoredUserTraffic.ofRow row.1 row.2).summary, row.2.lastRawOctets,
      row.2.lastSourceStartedAt⟩

/-- `walkPortableUserTrafficBuckets`, which joins every bucket with its user. -/
def walkPortableUserTrafficBuckets (db : SQLiteTraffic) : List PortableUserTrafficBucket :=
  (db.buckets.toList.filter fun row => db.users.contains row.1.userID).map fun row =>
    ⟨row.1.userID, userTrafficMetricTier row.1.tier, row.1.ts, row.2⟩

/-- The row an import writes for a user. -/
def userTrafficRowOfPortable (item : PortableUserTrafficUser) : UserTrafficRow where
  totalBytes := item.summary.observedTotalBytes
  sinceTS := item.summary.observedSinceEpochSecs
  updatedTS := item.summary.lastActivityEpochSecs
  monthKey := item.summary.monthKey
  monthBytes := item.summary.currentMonthBytes
  lastRawOctets := item.lastRawOctets
  lastSourceStartedAt := item.lastSourceStartedAt
  deletedTS := if item.summary.deletedEpochSecs = 0 then none
    else some item.summary.deletedEpochSecs
  continuity := item.summary.continuity

namespace SQLiteTrafficStore

/-- The policies and the traffic of `SQLite.ExportData`. -/
def exportData (store : SQLiteTrafficStore) : PortableTraffic where
  policies := store.policies.toList
  userTraffic := walkPortableUserTrafficUsers store.traffic.users
  userTrafficBuckets := walkPortableUserTrafficBuckets store.traffic
  userTrafficCollector := store.traffic.collector

/-- Rows of `streamPortableSQLHistory` are validated while they are written. -/
def validateUserRows (previousUser : String) :
    List PortableUserTrafficUser → Except PortableTrafficError Unit
  | [] => .ok ()
  | item :: items => do
      validatePortableUserTrafficUser item
      if item.summary.username = previousUser then .error (.duplicateEntry previousUser)
      else validateUserRows item.summary.username items

/-- `SQLite.ExportJSON`: the data that is written as text. -/
def exportJSON (store : SQLiteTrafficStore) : Except PortableTrafficError PortableTraffic := do
  if store.traffic.buckets.keys.any fun key => !store.traffic.users.contains key.userID then
    .error .orphanBucket
  validateUserRows "" store.exportData.userTraffic
  store.exportData.userTrafficBuckets.forM validatePortableUserTrafficBucket
  match store.traffic.collector with
  | some state => validatePortableUserTrafficCollector state
  | none => .ok ()
  .ok store.exportData

/-- `SQLite.ImportData` into a database that holds nothing but traffic. -/
def importData (store : SQLiteTrafficStore) (data : PortableTraffic) :
    Except PortableTrafficError SQLiteTrafficStore := do
  normalizePortableTraffic data
  if store.traffic.users.size ≠ 0 ∨ store.traffic.buckets.size ≠ 0 ∨
      store.traffic.collector.isSome then
    .error .storeNotEmpty
  else
    .ok ⟨importedPolicies data store.policies,
      { users := data.userTraffic.foldl (fun users item =>
          users.insert item.summary.username (userTrafficRowOfPortable item)) ∅
        buckets := data.userTrafficBuckets.foldl (fun buckets bucket =>
          buckets.insert ⟨bucket.username, portableUserTrafficTier bucket.tier, bucket.ts⟩
            bucket.bytes) ∅
        collector := data.userTrafficCollector }⟩

/-- `SQLite.rollbackImportedHistory` -/
def rollbackImportedHistory (store : SQLiteTrafficStore) : SQLiteTrafficStore :=
  { store with traffic := .empty }

/-- `SQLite.PurgeHistoryContext` for the traffic of users. -/
def purgeHistory (store : SQLiteTrafficStore) (now : ℤ) : SQLiteTrafficStore :=
  { store with
    traffic := pruneTrafficSummariesTx { store.traffic with buckets := ∅ } now
      (retentionSecs (store.policies.get .userTraffic)) }

end SQLiteTrafficStore

section Refusals

/-- A collector that is not the zero value of its type and was observed in time is exported. -/
theorem validatePortableUserTrafficCollector_ok_iff {state : UserTrafficCollectorState} :
    validatePortableUserTrafficCollector state = .ok () ↔
      0 < state.lastSuccessTS ∧ 0 < state.sourceStartedAt ∧
        (state.sourceState = .userTrafficCollecting ∨ state.sourceState = .userTrafficPaused ∨
          state.sourceState = .userTrafficUnavailable) ∧
        (state.continuity = .userTrafficNormal ∨ state.continuity = .userTrafficPartial) := by
  unfold validatePortableUserTrafficCollector
  split
  · rename_i refused
    simp only [reduceCtorEq, false_iff]
    grind
  · rename_i accepted
    simp only [true_iff]
    grind

theorem exists_of_bind_ok {α β : Type} {first : Except PortableTrafficError α}
    {next : α → Except PortableTrafficError β} {result : β}
    (accepted : first >>= next = .ok result) :
    ∃ value, first = .ok value ∧ next value = .ok result := by
  cases first with
  | error refusal => cases accepted
  | ok value => exact ⟨value, rfl, accepted⟩

theorem collector_of_validated {data : PortableTraffic}
    (validated : validatePortableUserTraffic data = .ok ()) {state : UserTrafficCollectorState}
    (present : data.userTrafficCollector = some state) :
    validatePortableUserTrafficCollector state = .ok () := by
  rcases exists_of_bind_ok validated with ⟨users, -, validated⟩
  rcases exists_of_bind_ok validated with ⟨_, -, validated⟩
  rwa [present] at validated

theorem validated_of_normalized {data : PortableTraffic}
    (normalized : normalizePortableTraffic data = .ok ()) :
    validatePortableUserTraffic data = .ok () := by
  unfold normalizePortableTraffic at normalized
  split at normalized
  · rcases exists_of_bind_ok normalized with ⟨_, -, validated⟩
    exact validated
  · exact normalized

/-- The process-local store exports nothing while its collector is one that no import accepts. -/
theorem MemoryTrafficStore.exportJSON_ne_ok {store : MemoryTrafficStore}
    (present : store.traffic.hasTrafficCollector = true)
    (refused : validatePortableUserTrafficCollector store.traffic.userTrafficCollector ≠ .ok ())
    (data : PortableTraffic) : store.exportJSON ≠ .ok data := by
  intro exported
  rcases exists_of_bind_ok exported with ⟨_, normalized, -⟩
  apply refused
  apply collector_of_validated (validated_of_normalized normalized)
  simp [exportData, portableMemoryUserTrafficCollector, present]

end Refusals

end TelemtPanel.Store
