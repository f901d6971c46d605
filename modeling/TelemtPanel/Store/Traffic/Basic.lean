import TelemtPanel.Library.Calendar
import TelemtPanel.Library.Int64
import TelemtPanel.Library.Table
import TelemtPanel.Store.Policy

/-!
# User traffic: snapshots, summaries and the rules shared by both backends

A snapshot is one coherent reading of the per-user byte counters of a Telemt
process.  The store turns consecutive readings into accumulated totals.  This
file holds the data types and the functions that the process-local and the
durable backend have in common.
-/

namespace TelemtPanel.Store

open TelemtPanel.Library

/-- Whether the source can currently provide user counters.  The empty text is the
zero value, and an import can carry any text. -/
inductive UserTrafficSourceState where
  | userTrafficCollecting
  | userTrafficPaused
  | userTrafficUnavailable
  | other (text : String)
deriving DecidableEq, Repr

/-- Whether the accumulated value has a known observation gap.  The empty text is the
zero value, and an import can carry any text. -/
inductive UserTrafficContinuity where
  | userTrafficNormal
  | userTrafficPartial
  | other (text : String)
deriving DecidableEq, Repr

/-- One raw counter of a snapshot. -/
structure UserTrafficObservation where
  username : String
  rawOctets : ℕ
deriving DecidableEq, Repr

/-- One coherent reading of the counters of a process. -/
structure UserTrafficSnapshot where
  observedAt : ℤ
  sourceStartedAt : ℤ
  telemetryEnabled : Bool
  users : List UserTrafficObservation
deriving DecidableEq, Repr

/-- Accumulated view of one account.  A zero `deletedEpochSecs` means that the account exists. -/
structure UserTrafficSummary where
  username : String
  observedTotalBytes : ℤ
  currentMonthBytes : ℤ
  monthKey : ℤ
  observedSinceEpochSecs : ℤ
  lastActivityEpochSecs : ℤ
  deletedEpochSecs : ℤ
  continuity : UserTrafficContinuity
deriving DecidableEq, Repr

/-- A summary as read in a given month: the bytes of another month are not shown. -/
def UserTrafficSummary.readIn (monthKey : ℤ) (summary : UserTrafficSummary) :
    UserTrafficSummary :=
  if summary.monthKey ≠ monthKey then { summary with currentMonthBytes := 0 } else summary

/-- A summary without the month in which it was last written. -/
def UserTrafficSummary.dropMonthKey (summary : UserTrafficSummary) : UserTrafficSummary :=
  { summary with monthKey := 0 }

/-- The zero value. -/
def UserTrafficSummary.zero : UserTrafficSummary := ⟨"", 0, 0, 0, 0, 0, 0, .other ""⟩

/-- The last coherent source observation. -/
structure UserTrafficCollectorState where
  lastSuccessTS : ℤ
  sourceStartedAt : ℤ
  sourceState : UserTrafficSourceState
  continuity : UserTrafficContinuity
deriving DecidableEq, Repr

/-- Reported while no observation has been accepted. -/
def UserTrafficCollectorState.absent : UserTrafficCollectorState :=
  ⟨0, 0, .userTrafficUnavailable, .userTrafficNormal⟩

/-- The zero value. -/
def UserTrafficCollectorState.zero : UserTrafficCollectorState := ⟨0, 0, .other "", .other ""⟩

/-- Reasons for which a snapshot is refused: those of the validation, those of the
process-local backend, and those of the durable one. -/
inductive UserTrafficError where
  | observedTime
  | sourceStart
  | emptyUsername
  | duplicateUsername (username : String)
  | rawExceedsInt64 (username : String)
  | stale (observed last : ℤ)
  | trafficExceedsInt64 (username : String)
  | monthExceedsInt64 (username : String)
  | bucketExceedsInt64 (username : String)
  | accumulatedExceedsInt64 (username : String)
  | deltaExceedsInt64
  | aggregateExceedsInt64
  | monthlyExceedsInt64 (username : String)
  | upsertBuckets
  | applySnapshot (inner : UserTrafficError)
deriving DecidableEq, Repr

/-- Text of a refusal, where `quote` stands for the verb `%q`. -/
def UserTrafficError.text (quote : String → String) : UserTrafficError → String
  | .observedTime => "user traffic snapshot observed time must be positive"
  | .sourceStart => "user traffic snapshot source start is invalid"
  | .emptyUsername => "user traffic snapshot contains an empty username"
  | .duplicateUsername username =>
      "user traffic snapshot contains duplicate username " ++ quote username
  | .rawExceedsInt64 username => "user " ++ quote username ++ ": raw traffic exceeds int64"
  | .stale observed last =>
      "user traffic snapshot is stale: observed=" ++ toString observed ++ " last=" ++
        toString last
  | .trafficExceedsInt64 username => "user " ++ quote username ++ " traffic exceeds int64"
  | .monthExceedsInt64 username =>
      "user " ++ quote username ++ " monthly traffic exceeds int64"
  | .bucketExceedsInt64 username => "user " ++ quote username ++ " bucket exceeds int64"
  | .accumulatedExceedsInt64 username =>
      "user " ++ quote username ++ ": accumulated traffic exceeds int64"
  | .deltaExceedsInt64 => "user traffic snapshot delta exceeds int64"
  | .aggregateExceedsInt64 => "aggregate user traffic delta exceeds int64"
  | .monthlyExceedsInt64 username =>
      "user " ++ quote username ++ ": monthly traffic exceeds int64"
  | .upsertBuckets => "upsert user traffic buckets"
  | .applySnapshot inner => "apply user traffic snapshot: " ++ inner.text quote

/-- `unicode.IsSpace` -/
def isSpace (rune : Char) : Bool :=
  (0x09 ≤ rune.val && rune.val ≤ 0x0d) || rune.val = 0x20 || rune.val = 0x85 ||
    rune.val = 0xa0 || rune.val = 0x1680 || (0x2000 ≤ rune.val && rune.val ≤ 0x200a) ||
    rune.val = 0x2028 || rune.val = 0x2029 || rune.val = 0x202f || rune.val = 0x205f ||
    rune.val = 0x3000

/-- `strings.TrimSpace` leaves nothing. -/
def trimsToEmpty (text : String) : Bool := text.toList.all isSpace

/-- The loop of `validateUserTrafficSnapshot`. -/
def validateUserTrafficObservations (seen : List String) :
    List UserTrafficObservation → Except UserTrafficError Unit
  | [] => .ok ()
  | user :: users =>
      if trimsToEmpty user.username then .error .emptyUsername
      else if user.username ∈ seen then .error (.duplicateUsername user.username)
      else if (user.rawOctets : ℤ) > maxInt64 then .error (.rawExceedsInt64 user.username)
      else validateUserTrafficObservations (user.username :: seen) users

def validateUserTrafficSnapshot (snapshot : UserTrafficSnapshot) :
    Except UserTrafficError Unit :=
  if snapshot.observedAt ≤ 0 then .error .observedTime
  else if snapshot.sourceStartedAt ≤ 0 then .error .sourceStart
  else validateUserTrafficObservations [] snapshot.users

/-- What a snapshot satisfies once it is validated. -/
structure UserTrafficSnapshot.Valid (snapshot : UserTrafficSnapshot) : Prop where
  observedAt_pos : 0 < snapshot.observedAt
  sourceStartedAt_pos : 0 < snapshot.sourceStartedAt
  named : ∀ user ∈ snapshot.users, trimsToEmpty user.username = false
  distinct : (snapshot.users.map (·.username)).Nodup
  raw_le : ∀ user ∈ snapshot.users, (user.rawOctets : ℤ) ≤ maxInt64

theorem validateUserTrafficObservations_ok_iff {seen : List String}
    {users : List UserTrafficObservation} :
    validateUserTrafficObservations seen users = .ok () ↔
      (∀ user ∈ users, trimsToEmpty user.username = false) ∧
        (users.map (·.username)).Nodup ∧ (∀ user ∈ users, user.username ∉ seen) ∧
          ∀ user ∈ users, (user.rawOctets : ℤ) ≤ maxInt64 := by
  induction users generalizing seen with
  | nil => simp [validateUserTrafficObservations]
  | cons user users ih =>
      simp only [validateUserTrafficObservations]
      split
      · rename_i blank
        simp [blank]
      split
      · rename_i duplicate
        simp [duplicate]
      split
      · rename_i tooLarge
        simp only [reduceCtorEq, List.mem_cons, forall_eq_or_imp, false_iff]
        omega
      rename_i named fresh small
      simp only [ih, List.mem_cons, forall_eq_or_imp, List.map_cons, List.nodup_cons,
        List.mem_map, not_or, not_exists, not_and]
      constructor
      · rintro ⟨othersNamed, distinct, apart, othersSmall⟩
        exact ⟨⟨by simpa using named, othersNamed⟩,
          ⟨fun other mem same => (apart other mem).1 same, distinct⟩,
          ⟨fresh, fun other mem => (apart other mem).2⟩, by omega, othersSmall⟩
      · rintro ⟨⟨-, othersNamed⟩, ⟨apart, distinct⟩, ⟨-, freshOthers⟩, -, othersSmall⟩
        exact ⟨othersNamed, distinct,
          fun other mem => ⟨apart other mem, freshOthers other mem⟩, othersSmall⟩

theorem validateUserTrafficSnapshot_ok_iff {snapshot : UserTrafficSnapshot} :
    validateUserTrafficSnapshot snapshot = .ok () ↔ snapshot.Valid := by
  simp only [validateUserTrafficSnapshot]
  split
  · rename_i notPositive
    simp only [reduceCtorEq, false_iff]
    intro valid
    exact absurd valid.observedAt_pos (by omega)
  split
  · rename_i notPositive
    simp only [reduceCtorEq, false_iff]
    intro valid
    exact absurd valid.sourceStartedAt_pos (by omega)
  rename_i observed started
  rw [validateUserTrafficObservations_ok_iff]
  constructor
  · rintro ⟨named, distinct, -, small⟩
    exact ⟨by omega, by omega, named, distinct, small⟩
  · intro valid
    exact ⟨valid.named, valid.distinct, by simp, valid.raw_le⟩

/-- Calendar month, in UTC, as `100 * year + month`. -/
def utcMonthKey (ts : ℤ) : ℤ :=
  100 * Calendar.calendarYear (Calendar.monthOfUnix ts) +
    Calendar.calendarMonth (Calendar.monthOfUnix ts)

/-- Later instants have later or equal month keys. -/
theorem utcMonthKey_mono : Monotone utcMonthKey := by
  intro ts later le
  have months := Calendar.monthOfUnix_mono le
  simp only [utcMonthKey, Calendar.calendarYear, Calendar.calendarMonth]
  split <;> split <;> omega

example : utcMonthKey 1709164800 = 202402 := by decide

def userTrafficCollectorPeriodSecs : ℤ := 30

def userTrafficUncertainGapSecs : ℤ := 86400

/-- Width of the process-local history in seconds. -/
def userTrafficMemoryRetentionSecs : ℤ := 86400

def userTrafficMemoryMaxBuckets : ℕ := 100000

def nanosPerSecond : ℤ := 1000000000

/-- The gap is a duration in nanoseconds and wraps around in 64 bits. -/
def nextUserTrafficContinuity (previous : Option UserTrafficCollectorState)
    (snapshot : UserTrafficSnapshot) : UserTrafficContinuity :=
  if snapshot.telemetryEnabled = false then .userTrafficPartial
  else match previous with
    | none => .userTrafficNormal
    | some collector =>
        let gap := wrapInt64 ((snapshot.observedAt - collector.lastSuccessTS) * nanosPerSecond)
        if gap > userTrafficUncertainGapSecs * nanosPerSecond ∨
            (snapshot.sourceStartedAt ≠ collector.sourceStartedAt ∧
              gap > 2 * userTrafficCollectorPeriodSecs * nanosPerSecond) then
          .userTrafficPartial
        else collector.continuity

def userTrafficSourceState (enabled : Bool) : UserTrafficSourceState :=
  if enabled then .userTrafficCollecting else .userTrafficPaused

/-- A deleted summary remains useful while buckets or the retention window survive. -/
def expiredTrafficSummary (summary : UserTrafficSummary) (hasBuckets : Bool)
    (now retention : ℤ) : Bool :=
  if summary.deletedEpochSecs = 0 ∨ hasBuckets = true ∨ retention < 0 then false
  else if now < minInt64 + retention then false
  else decide (summary.deletedEpochSecs < now - retention)

/-- Growth of a counter since its baseline.  A counter of another process, or one
that went backwards, started again from zero. -/
def userTrafficDelta (lastRaw lastSourceStart raw sourceStartedAt : ℤ) : ℤ :=
  if lastSourceStart ≠ sourceStartedAt then raw
  else if raw < lastRaw then raw
  else raw - lastRaw

theorem userTrafficDelta_nonneg {lastRaw raw : ℤ} (nonneg : 0 ≤ raw)
    (lastSourceStart sourceStartedAt : ℤ) :
    0 ≤ userTrafficDelta lastRaw lastSourceStart raw sourceStartedAt := by
  simp only [userTrafficDelta]
  split
  · exact nonneg
  · split <;> omega

/-- Adds a delta to the bytes of the current month, which a new month starts afresh. -/
def UserTrafficSummary.accrueMonth (summary : UserTrafficSummary) (monthKey delta : ℤ) :
    Option UserTrafficSummary :=
  if summary.monthKey ≠ monthKey then
    some { summary with monthKey := monthKey, currentMonthBytes := delta }
  else if delta > maxInt64 - summary.currentMonthBytes then none
  else some { summary with currentMonthBytes := summary.currentMonthBytes + delta }

theorem UserTrafficSummary.accrueMonth_eq_some_iff {summary next : UserTrafficSummary}
    {monthKey delta : ℤ} :
    summary.accrueMonth monthKey delta = some next ↔
      (summary.monthKey = monthKey → summary.currentMonthBytes + delta ≤ maxInt64) ∧
        next = { summary with
          monthKey := monthKey
          currentMonthBytes :=
            (if summary.monthKey = monthKey then summary.currentMonthBytes else 0) + delta } := by
  simp only [accrueMonth]
  split
  · rename_i otherMonth
    simp [otherMonth, eq_comm]
  split
  · rename_i sameMonth overflow
    have sameMonth : summary.monthKey = monthKey := by simpa using sameMonth
    simp only [reduceCtorEq, false_iff, not_and]
    intro fits
    exact absurd (fits sameMonth) (by omega)
  · rename_i sameMonth fits
    have sameMonth : summary.monthKey = monthKey := by simpa using sameMonth
    subst sameMonth
    simp only [Option.some.injEq, forall_const, ↓reduceIte]
    constructor
    · rintro rfl
      exact ⟨by omega, rfl⟩
    · rintro ⟨-, rfl⟩
      rfl

/-- What is fixed before the loop over the users of a snapshot starts. -/
structure UserTrafficPass where
  snapshot : UserTrafficSnapshot
  continuity : UserTrafficContinuity
  monthKey : ℤ
  historyEnabled : Bool
deriving DecidableEq, Repr

def userTrafficPass (historyEnabled : Bool) (collector : Option UserTrafficCollectorState)
    (snapshot : UserTrafficSnapshot) : UserTrafficPass :=
  ⟨snapshot, nextUserTrafficContinuity collector snapshot, utcMonthKey snapshot.observedAt,
    historyEnabled⟩

/-- Collector state after an accepted snapshot. -/
def UserTrafficPass.collector (pass : UserTrafficPass) : UserTrafficCollectorState :=
  ⟨pass.snapshot.observedAt, pass.snapshot.sourceStartedAt,
    userTrafficSourceState pass.snapshot.telemetryEnabled, pass.continuity⟩

/-- A known gap makes the continuity of every listed user partial. -/
def UserTrafficPass.merge (pass : UserTrafficPass) (continuity : UserTrafficContinuity) :
    UserTrafficContinuity :=
  if pass.continuity = .userTrafficPartial then .userTrafficPartial else continuity

/-- Whether a snapshot lists a user. -/
def UserTrafficSnapshot.lists (snapshot : UserTrafficSnapshot) (username : String) : Bool :=
  snapshot.users.any (·.username = username)

theorem UserTrafficSnapshot.lists_iff {snapshot : UserTrafficSnapshot} {username : String} :
    snapshot.lists username = true ↔ username ∈ snapshot.users.map (·.username) := by
  simp [lists]

/-- Start of the bucket of a given width that contains an instant. -/
def bucketStart (ts width : ℤ) : ℤ := ts - ts.tmod width

theorem bucketStart_le {ts width : ℤ} (nonneg : 0 ≤ ts) : bucketStart ts width ≤ ts := by
  have := Int.tmod_nonneg width nonneg
  simp only [bucketStart]
  omega

theorem dvd_bucketStart (ts width : ℤ) : width ∣ bucketStart ts width :=
  ⟨ts.tdiv width, by
    have split := Int.mul_tdiv_add_tmod ts width
    simp only [bucketStart]
    omega⟩

theorem lt_bucketStart_add {ts width : ℤ} (_nonneg : 0 ≤ ts) (positive : 0 < width) :
    ts < bucketStart ts width + width := by
  have := Int.tmod_lt_of_pos ts positive
  simp only [bucketStart]
  omega

end TelemtPanel.Store
