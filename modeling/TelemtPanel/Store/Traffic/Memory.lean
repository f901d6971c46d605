import TelemtPanel.Library.Loop
import TelemtPanel.Library.Sorter
import TelemtPanel.Store.Traffic.Ledger

/-!
# The process-local traffic store

A snapshot is applied to copies of the maps, which replace the originals when no
counter overflows.  History is bounded by age and by the number of buckets, and
a deleted user goes together with its last bucket once the retention has passed.

The loop over the users of a snapshot owns the entry and the buckets of each
user in turn, so that its effect is described user by user.
-/

namespace TelemtPanel.Store

open TelemtPanel.Library

structure MemoryUserTraffic where
  summary : UserTrafficSummary
  lastRaw : ℤ
  lastSourceStart : ℤ
  hasBaseline : Bool
deriving DecidableEq, Repr

structure MemoryUserTrafficBucketKey where
  username : String
  ts : ℤ
deriving DecidableEq, Repr

namespace MemoryUserTrafficBucketKey

/-- Buckets are enumerated by user and start. -/
def order (key : MemoryUserTrafficBucketKey) : String ×ₗ ℤ := toLex (key.username, key.ts)

theorem order_injective : Function.Injective order := by
  rintro ⟨username, ts⟩ ⟨other, later⟩ same
  cases same
  rfl

instance : Ord MemoryUserTrafficBucketKey := ordOn order

instance : Std.TransOrd MemoryUserTrafficBucketKey := transOrd_ordOn order

instance : Std.LawfulEqOrd MemoryUserTrafficBucketKey := lawfulEqOrd_ordOn order order_injective

end MemoryUserTrafficBucketKey

/-- Entries of all users. -/
abbrev MemoryTrafficTable : Type := Table String MemoryUserTraffic

/-- Bytes of all buckets. -/
abbrev MemoryBucketTable : Type := Table MemoryUserTrafficBucketKey ℤ

/-- The traffic part of the process-local store. -/
structure MemoryTraffic where
  userTraffic : MemoryTrafficTable
  userTrafficBuckets : MemoryBucketTable
  userTrafficCollector : UserTrafficCollectorState
  hasTrafficCollector : Bool

namespace MemoryTraffic

def empty : MemoryTraffic := ⟨∅, ∅, .zero, false⟩

/-- The last coherent observation, if there was one. -/
def collector? (memory : MemoryTraffic) : Option UserTrafficCollectorState :=
  if memory.hasTrafficCollector then some memory.userTrafficCollector else none

end MemoryTraffic

/-- Buckets that are not older than the process-local history. -/
def recentMemoryBuckets (buckets : MemoryBucketTable) (now : ℤ) : MemoryBucketTable :=
  buckets.filter fun key _ => !decide (key.ts < now - userTrafficMemoryRetentionSecs)

/-- `sorter` is the order in which equally old buckets are evicted. -/
def pruneMemoryUserTrafficBuckets (sorter : Sorter MemoryUserTrafficBucketKey.ts)
    (buckets : MemoryBucketTable) (now : ℤ) : MemoryBucketTable :=
  let recent := recentMemoryBuckets buckets now
  if recent.size ≤ userTrafficMemoryMaxBuckets then recent
  else
    let keys := sorter.sort recent.keys
    (keys.take (keys.length - userTrafficMemoryMaxBuckets)).foldl (·.erase ·) recent

/-- Whether a user has a bucket. -/
def hasMemoryBuckets (buckets : MemoryBucketTable) (username : String) : Bool :=
  buckets.keys.any (·.username = username)

def pruneMemoryTrafficSummaries (traffic : MemoryTrafficTable) (buckets : MemoryBucketTable)
    (now retention : ℤ) : MemoryTrafficTable :=
  traffic.filter fun username current =>
    !expiredTrafficSummary current.summary (hasMemoryBuckets buckets username) now retention

/-- Retention of deleted users under a policy. -/
def memoryTombstoneRetention (policy : StoragePolicy) : ℤ :=
  min userTrafficMemoryRetentionSecs (retentionSecs policy)

/-- Copies on which a snapshot is applied. -/
structure MemoryTrafficWork where
  traffic : MemoryTrafficTable
  buckets : MemoryBucketTable
  deltaBytes : ℤ

namespace MemoryUserTraffic

/-- Entry of a user that is listed for the first time. -/
def first (pass : UserTrafficPass) (username : String) (raw : ℤ) : MemoryUserTraffic where
  summary := ⟨username, 0, 0, pass.monthKey, pass.snapshot.observedAt, 0, 0, pass.continuity⟩
  lastRaw := raw
  lastSourceStart := pass.snapshot.sourceStartedAt
  hasBaseline := true

/-- A listed user exists and inherits a known gap. -/
def revive (pass : UserTrafficPass) (current : MemoryUserTraffic) : MemoryUserTraffic :=
  { current with
    summary := { current.summary with
      continuity := pass.merge current.summary.continuity
      deletedEpochSecs := 0 } }

/-- Growth of the counter of a user. -/
def delta (pass : UserTrafficPass) (raw : ℤ) (current : MemoryUserTraffic) : ℤ :=
  if current.hasBaseline then
    userTrafficDelta current.lastRaw current.lastSourceStart raw pass.snapshot.sourceStartedAt
  else 0

end MemoryUserTraffic

/-- Adds a positive delta to the quarter-hour bucket of a user. -/
def creditMemoryBucket (pass : UserTrafficPass) (buckets : MemoryBucketTable) (username : String)
    (delta : ℤ) : Option MemoryBucketTable :=
  if pass.historyEnabled = false then some buckets
  else
    let key : MemoryUserTrafficBucketKey :=
      ⟨username, bucketStart pass.snapshot.observedAt 900⟩
    let bytes := buckets[key]?.getD 0
    if delta > maxInt64 - bytes then none else some (buckets.insert key (bytes + delta))

/-- The body of the loop over the users of a snapshot. -/
def applyMemoryObservation (pass : UserTrafficPass) (work : MemoryTrafficWork)
    (observation : UserTrafficObservation) : Except UserTrafficError MemoryTrafficWork :=
  let username := observation.username
  let raw : ℤ := observation.rawOctets
  match work.traffic[username]? with
  | none =>
      if pass.snapshot.telemetryEnabled = false then .ok work
      else .ok { work with traffic := work.traffic.insert username (.first pass username raw) }
  | some found =>
      let current := found.revive pass
      if pass.snapshot.telemetryEnabled = false then
        .ok { work with traffic := work.traffic.insert username current }
      else
        let delta := current.delta pass raw
        if delta > maxInt64 - current.summary.observedTotalBytes ∨
            work.deltaBytes > maxInt64 - delta then
          .error (.trafficExceedsInt64 username)
        else
          let total := current.summary.observedTotalBytes + delta
          match { current.summary with observedTotalBytes := total }.accrueMonth
              pass.monthKey delta with
          | none => .error (.monthExceedsInt64 username)
          | some summary =>
              if delta > 0 then
                match creditMemoryBucket pass work.buckets username delta with
                | none => .error (.bucketExceedsInt64 username)
                | some buckets => .ok {
                    traffic := work.traffic.insert username {
                      summary := { summary with
                        lastActivityEpochSecs := pass.snapshot.observedAt }
                      lastRaw := raw
                      lastSourceStart := pass.snapshot.sourceStartedAt
                      hasBaseline := true }
                    buckets := buckets
                    deltaBytes := work.deltaBytes + delta }
              else .ok { work with
                traffic := work.traffic.insert username {
                  summary := summary
                  lastRaw := raw
                  lastSourceStart := pass.snapshot.sourceStartedAt
                  hasBaseline := true } }

/-- Users that the snapshot does not list become deleted. -/
def markMemoryDeleted (snapshot : UserTrafficSnapshot) (traffic : MemoryTrafficTable) :
    MemoryTrafficTable :=
  traffic.map fun username current =>
    if snapshot.lists username = true ∨ current.summary.deletedEpochSecs ≠ 0 then current
    else { current with
      summary := { current.summary with deletedEpochSecs := snapshot.observedAt } }

namespace MemoryTraffic

/-- Copies of the maps without what has expired when the snapshot arrives. -/
def begin (sorter : Sorter MemoryUserTrafficBucketKey.ts) (policy : StoragePolicy)
    (memory : MemoryTraffic) (now : ℤ) : MemoryTrafficWork :=
  let buckets := pruneMemoryUserTrafficBuckets sorter memory.userTrafficBuckets now
  { traffic := pruneMemoryTrafficSummaries memory.userTraffic buckets now
      (memoryTombstoneRetention policy)
    buckets := buckets
    deltaBytes := 0 }

/-- The store after the loop: missing users are marked, both maps are pruned again. -/
def finish (sorter : Sorter MemoryUserTrafficBucketKey.ts) (policy : StoragePolicy)
    (pass : UserTrafficPass) (work : MemoryTrafficWork) : MemoryTraffic :=
  let marked := markMemoryDeleted pass.snapshot work.traffic
  let buckets := pruneMemoryUserTrafficBuckets sorter work.buckets pass.snapshot.observedAt
  { userTraffic := pruneMemoryTrafficSummaries marked buckets pass.snapshot.observedAt
      (memoryTombstoneRetention policy)
    userTrafficBuckets := buckets
    userTrafficCollector := pass.collector
    hasTrafficCollector := true }

/-- `Memory.ApplyUserTrafficSnapshotContext`: the accepted bytes and the next store. -/
def applyUserTrafficSnapshot (sorter : Sorter MemoryUserTrafficBucketKey.ts)
    (policy : StoragePolicy) (memory : MemoryTraffic) (snapshot : UserTrafficSnapshot) :
    Except UserTrafficError (ℤ × MemoryTraffic) := do
  validateUserTrafficSnapshot snapshot
  if memory.hasTrafficCollector ∧
      snapshot.observedAt ≤ memory.userTrafficCollector.lastSuccessTS then
    .error (.stale snapshot.observedAt memory.userTrafficCollector.lastSuccessTS)
  let pass := userTrafficPass policy.enabled memory.collector? snapshot
  let work ← snapshot.users.foldlM (applyMemoryObservation pass)
    (memory.begin sorter policy snapshot.observedAt)
  .ok (work.deltaBytes, finish sorter policy pass work)

/-- Summaries of a read snapshot taken at a given time. -/
def summaries (memory : MemoryTraffic) (asOf : ℤ) : Table String UserTrafficSummary :=
  memory.userTraffic.map fun _ current => current.summary.readIn (utcMonthKey asOf)

/-- `Memory.UserTrafficCollectorState` -/
def collectorState (memory : MemoryTraffic) : UserTrafficCollectorState :=
  if memory.hasTrafficCollector then memory.userTrafficCollector else .absent

/-- Raw baseline of a user: the last accepted counter and the start of its process. -/
def baseline (memory : MemoryTraffic) (username : String) : Option (ℤ × ℤ) :=
  memory.userTraffic[username]?.bind fun current =>
    if current.hasBaseline then some (current.lastRaw, current.lastSourceStart) else none

/-- `Memory.DeleteUserHistoryContext` -/
def deleteUserHistory (memory : MemoryTraffic) (username : String) : MemoryTraffic :=
  { memory with
    userTraffic := memory.userTraffic.erase username
    userTrafficBuckets := memory.userTrafficBuckets.filter fun key _ =>
      !decide (key.username = username) }

/-- `Memory.ResetUserTrafficContext`, which keeps the marker of the collector. -/
def resetUserTraffic (memory : MemoryTraffic) : MemoryTraffic :=
  { memory with userTraffic := ∅, userTrafficBuckets := ∅, userTrafficCollector := .zero }

/-- `Memory.pruneUserTrafficBucketsLocked` -/
def pruneUserTrafficBuckets (sorter : Sorter MemoryUserTrafficBucketKey.ts)
    (policy : StoragePolicy) (memory : MemoryTraffic) (now : ℤ) : MemoryTraffic :=
  let buckets := pruneMemoryUserTrafficBuckets sorter memory.userTrafficBuckets now
  { memory with
    userTraffic := pruneMemoryTrafficSummaries memory.userTraffic buckets now
      (memoryTombstoneRetention policy)
    userTrafficBuckets := buckets }

end MemoryTraffic

section Loop

variable {pass : UserTrafficPass}

/-- What the loop owns for one user. -/
structure MemoryTrafficRow where
  entry : Option MemoryUserTraffic
  bucket : ℤ → Option ℤ

namespace MemoryUserTraffic

/-- Bytes that a listed user contributes. -/
def gain (pass : UserTrafficPass) (raw : ℤ) : Option MemoryUserTraffic → ℤ
  | none => 0
  | some current => if pass.snapshot.telemetryEnabled = false then 0 else current.delta pass raw

/-- Entry of a listed and revived user whose counter has grown by `delta`. -/
def settle (pass : UserTrafficPass) (raw delta : ℤ) (current : MemoryUserTraffic) :
    MemoryUserTraffic where
  summary := { current.summary with
    observedTotalBytes := current.summary.observedTotalBytes + delta
    currentMonthBytes := (if current.summary.monthKey = pass.monthKey then
      current.summary.currentMonthBytes else 0) + delta
    monthKey := pass.monthKey
    lastActivityEpochSecs :=
      if 0 < delta then pass.snapshot.observedAt else current.summary.lastActivityEpochSecs }
  lastRaw := raw
  lastSourceStart := pass.snapshot.sourceStartedAt
  hasBaseline := true

/-- Entry of a listed user after the loop. -/
def observe (pass : UserTrafficPass) (username : String) (raw : ℤ) :
    Option MemoryUserTraffic → Option MemoryUserTraffic
  | none =>
      if pass.snapshot.telemetryEnabled = false then none else some (first pass username raw)
  | some current =>
      if pass.snapshot.telemetryEnabled = false then some (current.revive pass)
      else some ((current.revive pass).settle pass raw (current.delta pass raw))

theorem delta_nonneg {raw : ℤ} (nonneg : 0 ≤ raw) (current : MemoryUserTraffic) :
    0 ≤ current.delta pass raw := by
  simp only [delta]
  split
  · exact userTrafficDelta_nonneg nonneg _ _
  · exact le_rfl

theorem gain_nonneg {raw : ℤ} (nonneg : 0 ≤ raw) (entry : Option MemoryUserTraffic) :
    0 ≤ gain pass raw entry := by
  rcases entry with _ | current
  · exact le_rfl
  simp only [gain]
  split
  · exact le_rfl
  · exact delta_nonneg nonneg current

end MemoryUserTraffic

namespace MemoryTrafficWork

/-- Bucket of a user that an observation falls into. -/
def key (pass : UserTrafficPass) (username : String) : MemoryUserTrafficBucketKey :=
  ⟨username, bucketStart pass.snapshot.observedAt 900⟩

/-- What the body of the loop checks. -/
structure Accepts (pass : UserTrafficPass) (work : MemoryTrafficWork)
    (current : MemoryUserTraffic) (username : String) (delta : ℤ) : Prop where
  total : current.summary.observedTotalBytes + delta ≤ maxInt64
  sum : work.deltaBytes + delta ≤ maxInt64
  month : current.summary.monthKey = pass.monthKey →
    current.summary.currentMonthBytes + delta ≤ maxInt64
  bucket : 0 < delta → pass.historyEnabled = true →
    work.buckets[key pass username]?.getD 0 + delta ≤ maxInt64

/-- What the body of the loop makes of the copies. -/
def next (pass : UserTrafficPass) (work : MemoryTrafficWork)
    (observation : UserTrafficObservation) : MemoryTrafficWork :=
  let username := observation.username
  let raw : ℤ := observation.rawOctets
  let delta := MemoryUserTraffic.gain pass raw work.traffic[username]?
  { traffic :=
      match MemoryUserTraffic.observe pass username raw work.traffic[username]? with
      | none => work.traffic
      | some entry => work.traffic.insert username entry
    buckets :=
      if 0 < delta ∧ pass.historyEnabled = true then
        work.buckets.insert (key pass username)
          (work.buckets[key pass username]?.getD 0 + delta)
      else work.buckets
    deltaBytes := work.deltaBytes + delta }

end MemoryTrafficWork

theorem creditMemoryBucket_eq_some_iff {buckets credited : MemoryBucketTable} {username : String}
    {delta : ℤ} :
    creditMemoryBucket pass buckets username delta = some credited ↔
      (pass.historyEnabled = true →
        buckets[MemoryTrafficWork.key pass username]?.getD 0 + delta ≤ maxInt64) ∧
        credited = if pass.historyEnabled = true then
          buckets.insert (MemoryTrafficWork.key pass username)
            (buckets[MemoryTrafficWork.key pass username]?.getD 0 + delta)
        else buckets := by
  simp only [creditMemoryBucket, MemoryTrafficWork.key]
  by_cases enabled : pass.historyEnabled = true
  · simp only [enabled, Bool.true_eq_false, ↓reduceIte, forall_const]
    split
    · rename_i overflow
      simp only [reduceCtorEq, false_iff, not_and]
      omega
    · rename_i fits
      simp only [Option.some.injEq]
      constructor
      · rintro rfl
        exact ⟨by omega, rfl⟩
      · rintro ⟨-, rfl⟩
        rfl
  · simp [enabled, eq_comm]

/-- The body of the loop, in one equation. -/
theorem applyMemoryObservation_eq_ok_iff {work result : MemoryTrafficWork}
    {observation : UserTrafficObservation} :
    applyMemoryObservation pass work observation = .ok result ↔
      (∀ current, work.traffic[observation.username]? = some current →
        pass.snapshot.telemetryEnabled = true →
          work.Accepts pass (current.revive pass) observation.username
            (current.delta pass observation.rawOctets)) ∧
        work.next pass observation = result := by
  simp only [applyMemoryObservation, MemoryTrafficWork.next]
  cases found : work.traffic[observation.username]? with
  | none =>
      simp only [reduceCtorEq, false_implies, implies_true, true_and, MemoryUserTraffic.gain,
        MemoryUserTraffic.observe, lt_irrefl, false_and, ↓reduceIte, add_zero]
      split <;> simp
  | some current =>
      by_cases paused : pass.snapshot.telemetryEnabled = false
      · simp [paused, MemoryUserTraffic.gain, MemoryUserTraffic.observe]
      have active : pass.snapshot.telemetryEnabled = true := by simpa using paused
      have sameDelta : (current.revive pass).delta pass observation.rawOctets =
          current.delta pass observation.rawOctets := rfl
      have nonneg : 0 ≤ current.delta pass observation.rawOctets :=
        MemoryUserTraffic.delta_nonneg (Int.natCast_nonneg _) current
      simp only [active, Bool.true_eq_false, ↓reduceIte, Option.some.injEq, forall_eq',
        forall_const, MemoryUserTraffic.gain, MemoryUserTraffic.observe, sameDelta]
      generalize current.delta pass observation.rawOctets = delta at nonneg
      generalize current.revive pass = revived
      constructor
      · intro done
        split at done
        · cases done
        rename_i noOverflow
        split at done
        · cases done
        rename_i summary accrued
        rcases UserTrafficSummary.accrueMonth_eq_some_iff.mp accrued with ⟨month, rfl⟩
        split at done
        · rename_i positive
          split at done
          · cases done
          rename_i buckets credited
          rcases creditMemoryBucket_eq_some_iff.mp credited with ⟨bucket, rfl⟩
          cases done
          refine ⟨⟨by omega, by omega, month, fun _ => bucket⟩, ?_⟩
          simp [MemoryUserTraffic.settle, positive]
        · rename_i notPositive
          cases done
          have zero : delta = 0 := by omega
          refine ⟨⟨by omega, by omega, month, fun positive => absurd positive notPositive⟩, ?_⟩
          simp [MemoryUserTraffic.settle, zero]
      · rintro ⟨accepted, rfl⟩
        have total := accepted.total
        have sum := accepted.sum
        have accrued := (@UserTrafficSummary.accrueMonth_eq_some_iff
          { revived.summary with
            observedTotalBytes := revived.summary.observedTotalBytes + delta } _
          pass.monthKey delta).mpr ⟨accepted.month, rfl⟩
        rw [if_neg (by omega), accrued]
        by_cases positive : 0 < delta
        · simp only [gt_iff_lt, positive, ↓reduceIte, true_and]
          rw [creditMemoryBucket_eq_some_iff.mpr ⟨accepted.bucket positive, rfl⟩]
          simp [MemoryUserTraffic.settle, positive]
        · have zero : delta = 0 := by omega
          simp [MemoryUserTraffic.settle, zero]

namespace MemoryTrafficWork

/-- Entry and buckets of a user. -/
def row (work : MemoryTrafficWork) (username : String) : MemoryTrafficRow :=
  ⟨work.traffic[username]?, fun ts => work.buckets[(⟨username, ts⟩ : MemoryUserTrafficBucketKey)]?⟩

theorem key_eq_iff {username other : String} {ts : ℤ} :
    key pass username = ⟨other, ts⟩ ↔
      username = other ∧ bucketStart pass.snapshot.observedAt 900 = ts := by
  simp [key]

end MemoryTrafficWork

/-- Row of a listed user after the loop. -/
def MemoryTrafficRow.observe (pass : UserTrafficPass) (observation : UserTrafficObservation)
    (row : MemoryTrafficRow) : MemoryTrafficRow where
  entry := MemoryUserTraffic.observe pass observation.username observation.rawOctets row.entry
  bucket ts :=
    if pass.historyEnabled = true ∧ ts = bucketStart pass.snapshot.observedAt 900 then
      credit (row.bucket ts) (MemoryUserTraffic.gain pass observation.rawOctets row.entry)
    else row.bucket ts

theorem MemoryTrafficWork.row_next (work : MemoryTrafficWork)
    (observation : UserTrafficObservation) :
    (work.next pass observation).row = Function.update work.row observation.username
      ((work.row observation.username).observe pass observation) := by
  funext username
  have entry : (work.next pass observation).traffic[username]? =
      if observation.username = username then
        MemoryUserTraffic.observe pass observation.username observation.rawOctets
          work.traffic[observation.username]?
      else work.traffic[username]? := by
    simp only [next]
    split
    · rename_i absent
      rw [absent]
      split
      · rename_i same
        subst same
        -- Only an absent entry stays absent.
        cases found : work.traffic[observation.username]? with
        | none => rfl
        | some current =>
            rw [found] at absent
            simp only [MemoryUserTraffic.observe] at absent
            split at absent <;> cases absent
      · rfl
    · rename_i observed present
      rw [present, Table.lookup_insert]
  by_cases same : observation.username = username
  · subst same
    simp only [row, entry, ↓reduceIte, Function.update_self, MemoryTrafficRow.observe,
      MemoryTrafficRow.mk.injEq, true_and]
    funext ts
    simp only [next, credit]
    by_cases credited : 0 < MemoryUserTraffic.gain pass observation.rawOctets
        work.traffic[observation.username]? ∧ pass.historyEnabled = true
    · simp only [credited, and_self, ↓reduceIte, Table.lookup_insert, key_eq_iff, true_and]
      split
      · rename_i here
        simp [key, here]
      · rename_i elsewhere
        rw [if_neg fun here => elsewhere here.symm]
    · rw [if_neg credited]
      split
      · rename_i here
        rw [if_neg fun positive => credited ⟨positive, here.1⟩]
      · rfl
  · rw [Function.update_of_ne (Ne.symm same)]
    simp only [row, entry, if_neg same, MemoryTrafficRow.mk.injEq, true_and]
    funext ts
    simp only [next]
    split
    · rw [Table.lookup_insert, if_neg fun here => same (key_eq_iff.mp here).1]
    · rfl

/-- The loop over the users of a snapshot. -/
def memoryLoop (pass : UserTrafficPass) :
    KeyedLoop MemoryTrafficWork UserTrafficObservation String MemoryTrafficRow
      UserTrafficError where
  step := applyMemoryObservation pass
  key := UserTrafficObservation.username
  row := MemoryTrafficWork.row
  change := MemoryTrafficRow.observe pass
  gauge := MemoryTrafficWork.deltaBytes
  gain observation row := MemoryUserTraffic.gain pass observation.rawOctets row.entry
  row_step := by
    intro work next observation stepped
    rw [← (applyMemoryObservation_eq_ok_iff.mp stepped).2, MemoryTrafficWork.row_next]
  gauge_step := by
    intro work next observation stepped
    rw [← (applyMemoryObservation_eq_ok_iff.mp stepped).2]
    rfl

/-- Bounds of a row under which only totals can overflow. -/
structure MemoryTrafficRow.Sound (pass : UserTrafficPass) (row : MemoryTrafficRow) : Prop where
  month_le : ∀ current, row.entry = some current → current.summary.monthKey = pass.monthKey →
    current.summary.currentMonthBytes ≤ current.summary.observedTotalBytes
  total_le : ∀ current, row.entry = some current →
    current.summary.observedTotalBytes ≤ maxInt64
  bucket_le : ∀ current, row.entry = some current → ∀ ts,
    (row.bucket ts).getD 0 ≤ current.summary.observedTotalBytes

/-- Total of a possibly absent entry. -/
def MemoryUserTraffic.total (entry : Option MemoryUserTraffic) : ℤ :=
  (entry.map (·.summary.observedTotalBytes)).getD 0

/-- On sound rows the loop succeeds exactly when every total and the sum of the deltas fit. -/
theorem memoryLoop_ok_iff {work : MemoryTrafficWork} {users : List UserTrafficObservation}
    (within : work.deltaBytes ≤ maxInt64)
    (sound : ∀ user ∈ users, (work.row user.username).Sound pass)
    (distinct : (users.map (·.username)).Nodup) :
    (∃ final, users.foldlM (applyMemoryObservation pass) work = .ok final) ↔
      (∀ user ∈ users, MemoryUserTraffic.total work.traffic[user.username]? +
        MemoryUserTraffic.gain pass user.rawOctets work.traffic[user.username]? ≤ maxInt64) ∧
      work.deltaBytes + (users.map fun user =>
        MemoryUserTraffic.gain pass user.rawOctets work.traffic[user.username]?).sum ≤
          maxInt64 := by
  refine (memoryLoop pass).run_ok_iff maxInt64
    (fun user row => MemoryUserTraffic.total row.entry +
      MemoryUserTraffic.gain pass user.rawOctets row.entry ≤ maxInt64)
    (MemoryTrafficRow.Sound pass) ?_ ?_ within sound distinct
  · intro user row _
    exact MemoryUserTraffic.gain_nonneg (Int.natCast_nonneg _) _
  · intro work user within sound
    simp only [memoryLoop, applyMemoryObservation_eq_ok_iff, exists_eq_right',
      MemoryTrafficWork.row] at within sound ⊢
    cases found : work.traffic[user.username]? with
    | none =>
        simpa [MemoryUserTraffic.total, MemoryUserTraffic.gain, maxInt64_nonneg] using within
    | some current =>
        rw [found] at sound
        have month := sound.month_le current rfl
        have total := sound.total_le current rfl
        have bucket := sound.bucket_le current rfl (bucketStart pass.snapshot.observedAt 900)
        by_cases paused : pass.snapshot.telemetryEnabled = false
        · simpa [MemoryUserTraffic.total, MemoryUserTraffic.gain, paused] using ⟨total, within⟩
        have active : pass.snapshot.telemetryEnabled = true := by simpa using paused
        simp only [Option.some.injEq, forall_eq', active, forall_const, MemoryUserTraffic.total,
          MemoryUserTraffic.gain, Bool.true_eq_false, ↓reduceIte, Option.map_some,
          Option.getD_some]
        constructor
        · intro accepted
          exact ⟨accepted.total, accepted.sum⟩
        · rintro ⟨totalFits, sumFits⟩
          refine ⟨totalFits, sumFits, fun sameMonth => ?_, fun _ _ => ?_⟩
          · exact (Int.add_le_add_right (month sameMonth) _).trans totalFits
          · exact (Int.add_le_add_right bucket _).trans totalFits

section Result

variable {snapshot : UserTrafficSnapshot} {work final : MemoryTrafficWork}

theorem memoryLoop_row_of_unlisted
    (done : snapshot.users.foldlM (applyMemoryObservation pass) work = .ok final)
    {username : String} (unlisted : snapshot.rawOf username = none) :
    final.row username = work.row username :=
  (memoryLoop pass).row_run_of_notMem done (UserTrafficSnapshot.rawOf_eq_none_iff.mp unlisted)

theorem memoryLoop_row_of_listed
    (done : snapshot.users.foldlM (applyMemoryObservation pass) work = .ok final)
    (distinct : (snapshot.users.map (·.username)).Nodup)
    {user : UserTrafficObservation} (mem : user ∈ snapshot.users) :
    final.row user.username = (work.row user.username).observe pass user :=
  (memoryLoop pass).row_run_of_mem done distinct mem

/-- Entries after the loop, user by user. -/
theorem memoryLoop_entry
    (done : snapshot.users.foldlM (applyMemoryObservation pass) work = .ok final)
    (distinct : (snapshot.users.map (·.username)).Nodup) (username : String) :
    final.traffic[username]? = match snapshot.rawOf username with
      | none => work.traffic[username]?
      | some raw => MemoryUserTraffic.observe pass username raw work.traffic[username]? := by
  cases listed : snapshot.rawOf username with
  | none => exact congrArg MemoryTrafficRow.entry (memoryLoop_row_of_unlisted done listed)
  | some raw =>
      rcases UserTrafficSnapshot.exists_of_rawOf listed with ⟨user, mem, rfl, rfl⟩
      exact congrArg MemoryTrafficRow.entry (memoryLoop_row_of_listed done distinct mem)

/-- Bytes that the loop adds for a user. -/
def MemoryTrafficWork.gainOf (pass : UserTrafficPass) (work : MemoryTrafficWork)
    (username : String) : ℤ :=
  match pass.snapshot.rawOf username with
  | none => 0
  | some raw => MemoryUserTraffic.gain pass raw work.traffic[username]?

/-- Buckets after the loop, user by user. -/
theorem memoryLoop_bucket (same : pass.snapshot = snapshot)
    (done : snapshot.users.foldlM (applyMemoryObservation pass) work = .ok final)
    (distinct : (snapshot.users.map (·.username)).Nodup) (username : String) (ts : ℤ) :
    final.buckets[(⟨username, ts⟩ : MemoryUserTrafficBucketKey)]? =
      if pass.historyEnabled = true ∧ ts = bucketStart pass.snapshot.observedAt 900 then
        credit work.buckets[(⟨username, ts⟩ : MemoryUserTrafficBucketKey)]?
          (work.gainOf pass username)
      else work.buckets[(⟨username, ts⟩ : MemoryUserTrafficBucketKey)]? := by
  simp only [MemoryTrafficWork.gainOf, same]
  cases listed : snapshot.rawOf username with
  | none =>
      rw [credit_zero, ite_self]
      exact congrFun (congrArg MemoryTrafficRow.bucket (memoryLoop_row_of_unlisted done listed)) ts
  | some raw =>
      rcases UserTrafficSnapshot.exists_of_rawOf listed with ⟨user, mem, rfl, rfl⟩
      rw [← same]
      exact congrFun (congrArg MemoryTrafficRow.bucket
        (memoryLoop_row_of_listed done distinct mem)) ts

end Result

end Loop

namespace MemoryTraffic

variable {sorter : Sorter MemoryUserTrafficBucketKey.ts} {policy : StoragePolicy}
  {memory : MemoryTraffic} {snapshot : UserTrafficSnapshot}

/-- A snapshot is accepted when it is valid, not stale, and its loop succeeds. -/
theorem applyUserTrafficSnapshot_eq_ok_iff {result : ℤ × MemoryTraffic} :
    memory.applyUserTrafficSnapshot sorter policy snapshot = .ok result ↔
      snapshot.Valid ∧
      (∀ collector, memory.collector? = some collector →
        collector.lastSuccessTS < snapshot.observedAt) ∧
      ∃ work, snapshot.users.foldlM
          (applyMemoryObservation (userTrafficPass policy.enabled memory.collector? snapshot))
          (memory.begin sorter policy snapshot.observedAt) = .ok work ∧
        (work.deltaBytes, finish sorter policy
          (userTrafficPass policy.enabled memory.collector? snapshot) work) = result := by
  simp only [applyUserTrafficSnapshot, collector?]
  cases validated : validateUserTrafficSnapshot snapshot with
  | error refusal =>
      have invalid : ¬snapshot.Valid := by
        rw [← validateUserTrafficSnapshot_ok_iff, validated]
        simp
      simp [bind, Except.bind, invalid]
  | ok _ =>
      have valid := validateUserTrafficSnapshot_ok_iff.mp validated
      by_cases stale : memory.hasTrafficCollector = true ∧
          snapshot.observedAt ≤ memory.userTrafficCollector.lastSuccessTS
      · simp [bind, Except.bind, stale]
      have newer : ∀ collector, (if memory.hasTrafficCollector = true then
          some memory.userTrafficCollector else none) = some collector →
          collector.lastSuccessTS < snapshot.observedAt := by
        intro collector known
        split at known
        · rename_i found
          cases known
          exact not_le.mp fun old => stale ⟨found, old⟩
        · cases known
      simp only [bind, Except.bind, if_neg stale, valid, true_and]
      rw [and_iff_right newer]
      split
      · rename_i refusal failed
        simp [failed]
      · rename_i work done
        simp [done]

end MemoryTraffic

end TelemtPanel.Store
