import TelemtPanel.Library.Run
import TelemtPanel.Store.Traffic.MemoryLedger
import TelemtPanel.Store.Traffic.SQLiteLedger

/-!
# Both traffic stores account alike

The process-local and the durable store are run on the same calls.  As long as
no tombstone reaches the age of a day and no bucket is evicted for lack of room,
both refine the same ledger, so that they give the same answers and show the same
accounts and the same recent history.
-/

namespace TelemtPanel.Store

open TelemtPanel.Library

/-- Calls that concern the accounting of traffic.  Policies are applied at a time, at
which expired data is dropped. -/
inductive TrafficCall where
  | applyUserTrafficSnapshot (snapshot : UserTrafficSnapshot)
  | deleteUserHistory (username : String)
  | applyStoragePolicies (policies : List StoragePolicy) (now : ℤ)

inductive TrafficAnswer where
  | applied (deltaBytes : ℤ)
  | done
  | refused
deriving DecidableEq, Repr

/-- Policies and traffic of the process-local store. -/
structure MemoryTrafficStore where
  policies : ActivePolicies
  traffic : MemoryTraffic

/-- Policies and traffic of the durable store. -/
structure SQLiteTrafficStore where
  policies : ActivePolicies
  traffic : SQLiteTraffic

namespace MemoryTrafficStore

def answer (sorter : Sorter MemoryUserTrafficBucketKey.ts) (store : MemoryTrafficStore) :
    TrafficCall → TrafficAnswer × MemoryTrafficStore
  | .applyUserTrafficSnapshot snapshot =>
      match store.traffic.applyUserTrafficSnapshot sorter (store.policies.get .userTraffic)
          snapshot with
      | .error _ => (.refused, store)
      | .ok (deltaBytes, traffic) => (.applied deltaBytes, { store with traffic := traffic })
  | .deleteUserHistory username =>
      (.done, { store with traffic := store.traffic.deleteUserHistory username })
  | .applyStoragePolicies policies now =>
      if validated : validateStoragePolicies policies = .ok () then
        let next := ActivePolicies.ofList policies validated
        (.done, ⟨next, store.traffic.pruneUserTrafficBuckets sorter (next.get .userTraffic) now⟩)
      else (.refused, store)

def step (sorter : Sorter MemoryUserTrafficBucketKey.ts) (store : MemoryTrafficStore)
    (call : TrafficCall) : MemoryTrafficStore :=
  (store.answer sorter call).2

end MemoryTrafficStore

namespace SQLiteTrafficStore

def answer (store : SQLiteTrafficStore) : TrafficCall → TrafficAnswer × SQLiteTrafficStore
  | .applyUserTrafficSnapshot snapshot =>
      match store.traffic.applyUserTrafficSnapshot (store.policies.get .userTraffic) snapshot with
      | .error _ => (.refused, store)
      | .ok (deltaBytes, traffic) => (.applied deltaBytes, { store with traffic := traffic })
  | .deleteUserHistory username =>
      (.done, { store with traffic := store.traffic.deleteUserHistory username })
  | .applyStoragePolicies policies now =>
      if validated : validateStoragePolicies policies = .ok () then
        let next := ActivePolicies.ofList policies validated
        (.done, ⟨next, pruneTrafficSummariesTx store.traffic now
          (retentionSecs (next.get .userTraffic))⟩)
      else (.refused, store)

def step (store : SQLiteTrafficStore) (call : TrafficCall) : SQLiteTrafficStore :=
  (store.answer call).2

end SQLiteTrafficStore

/-- A call meets no tombstone that has reached the age of a day, and no bucket has to be
evicted for lack of room.  Snapshots that are refused at once do not matter. -/
def QuietCall (sorter : Sorter MemoryUserTrafficBucketKey.ts) (store : MemoryTrafficStore) :
    TrafficCall → Prop
  | .applyUserTrafficSnapshot snapshot =>
      (validateUserTrafficSnapshot snapshot = .ok () ∧
        ∀ collector ∈ store.traffic.collector?, collector.lastSuccessTS < snapshot.observedAt) →
      store.traffic.Quiet sorter (store.policies.get .userTraffic) snapshot
  | .deleteUserHistory _ => True
  | .applyStoragePolicies _ now =>
      store.traffic.Young now ∧ MemoryRoom store.traffic.userTrafficBuckets now

instance (sorter : Sorter MemoryUserTrafficBucketKey.ts) (store : MemoryTrafficStore) :
    (call : TrafficCall) → Decidable (QuietCall sorter store call)
  | .applyUserTrafficSnapshot _ => inferInstanceAs (Decidable (_ → _))
  | .deleteUserHistory _ => .isTrue trivial
  | .applyStoragePolicies _ _ => inferInstanceAs (Decidable (_ ∧ _))

/-- Both stores show the same collector state and the same accounts when read at a given time. -/
structure SameAccounts (asOf : ℤ) (memory : MemoryTraffic) (db : SQLiteTraffic) : Prop where
  collector : memory.collectorState = db.collectorState
  summary : ∀ username : String, (memory.summaries asOf)[username]?.map (·.dropMonthKey) =
    (db.summaries asOf)[username]?.map (·.dropMonthKey)
  baseline : ∀ username, memory.baseline username = db.baseline username

/-- Both stores hold the same quarter-hour buckets of the day that ends at a given time. -/
def SameRecentBuckets (asOf : ℤ) (memory : MemoryTraffic) (db : SQLiteTraffic) : Prop :=
  ∀ username ts, asOf - userTrafficMemoryRetentionSecs ≤ ts →
    memory.userTrafficBuckets[(⟨username, ts⟩ : MemoryUserTrafficBucketKey)]? =
      db.buckets[(⟨username, 0, ts⟩ : UserTrafficBucketKey)]?

/-- Both stores hold the same ledger under the same policy. -/
structure SameLedger (horizon : ℤ) (ledger : TrafficLedger) (memory : MemoryTrafficStore)
    (db : SQLiteTrafficStore) : Prop where
  policy : memory.policies.get .userTraffic = db.policies.get .userTraffic
  sound : ledger.Sound
  memory : MemoryRefines horizon ledger memory.traffic
  db : SQLiteRefines ledger db.traffic

/-- Both stores hold the same ledger, and until a given time the process-local one has only
dropped buckets that are then older than a day. -/
def Related (asOf : ℤ) (memory : MemoryTrafficStore) (db : SQLiteTrafficStore) : Prop :=
  ∃ ledger horizon, SameLedger horizon ledger memory db ∧
    (horizon ≤ asOf ∨ ∃ collector, ledger.collector = some collector ∧
      asOf < collector.lastSuccessTS)

section Step

variable {sorter : Sorter MemoryUserTrafficBucketKey.ts} {memory : MemoryTrafficStore}
  {db : SQLiteTrafficStore} {asOf : ℤ}

theorem valid_userTraffic (policies : ActivePolicies) : (policies.get .userTraffic).Valid :=
  policies.valid_get (by decide)

/-- Both stores accept or refuse a snapshot, with the same bytes. -/
theorem Related.applyUserTrafficSnapshot (related : Related asOf memory db)
    {snapshot : UserTrafficSnapshot}
    (quiet : QuietCall sorter memory (.applyUserTrafficSnapshot snapshot)) :
    (memory.answer sorter (.applyUserTrafficSnapshot snapshot)).1 =
        (db.answer (.applyUserTrafficSnapshot snapshot)).1 ∧
      Related asOf (memory.answer sorter (.applyUserTrafficSnapshot snapshot)).2
        (db.answer (.applyUserTrafficSnapshot snapshot)).2 := by
  have again := related
  rcases related with ⟨ledger, horizon, same, reach⟩
  have stillQuiet : ledger.Admits snapshot →
      memory.traffic.Quiet sorter (memory.policies.get .userTraffic) snapshot := by
    intro admits
    refine quiet ⟨validateUserTrafficSnapshot_ok_iff.mpr admits.valid, ?_⟩
    rw [same.memory.collector]
    exact admits.newer
  have fresh : ledger.Admits snapshot → ledger.Fresh snapshot.observedAt :=
    fun admits => (stillQuiet admits).fresh same.memory
  have memoryAccepts := MemoryTraffic.applyUserTrafficSnapshot_ok_iff
    (valid_userTraffic memory.policies) same.memory same.sound stillQuiet
  have dbAccepts := SQLiteTraffic.applyUserTrafficSnapshot_ok_iff
    (valid_userTraffic memory.policies) same.db same.sound fresh
  simp only [MemoryTrafficStore.answer, SQLiteTrafficStore.answer, ← same.policy]
  cases memoryResult : memory.traffic.applyUserTrafficSnapshot sorter
      (memory.policies.get .userTraffic) snapshot with
  | error refusal =>
      have refused : ¬ledger.Accepts (memory.policies.get .userTraffic).enabled snapshot := by
        rw [← memoryAccepts, memoryResult]
        simp
      cases dbResult : db.traffic.applyUserTrafficSnapshot
          (memory.policies.get .userTraffic) snapshot with
      | error _ => exact ⟨rfl, again⟩
      | ok result => exact absurd (dbAccepts.mp ⟨result, dbResult⟩) refused
  | ok memoryNext =>
      have accepts := memoryAccepts.mp ⟨memoryNext, memoryResult⟩
      rcases dbAccepts.mpr accepts with ⟨dbNext, dbResult⟩
      rw [dbResult]
      rcases MemoryTraffic.applyUserTrafficSnapshot_refines (valid_userTraffic memory.policies)
        same.memory same.sound stillQuiet memoryResult (le_max_left horizon snapshot.observedAt)
        (le_max_right _ _) with ⟨memoryDelta, memoryRefines⟩
      rcases SQLiteTraffic.applyUserTrafficSnapshot_refines (valid_userTraffic memory.policies)
        same.db fresh dbResult with ⟨dbDelta, dbRefines⟩
      refine ⟨by simp only [memoryDelta, dbDelta], _, _,
        ⟨same.policy, same.sound.observed accepts.fits, memoryRefines, dbRefines⟩, ?_⟩
      -- Either the snapshot is not after `asOf`, or the ledger has moved past it.
      by_cases within : snapshot.observedAt ≤ asOf
      · rcases reach with before | ⟨collector, known, past⟩
        · exact Or.inl (max_le before within)
        · have := accepts.newer collector known
          omega
      · exact Or.inr ⟨_, rfl, not_le.mp within⟩

theorem Related.deleteUserHistory (related : Related asOf memory db) (username : String) :
    Related asOf (memory.step sorter (.deleteUserHistory username))
      (db.step (.deleteUserHistory username)) := by
  rcases related with ⟨ledger, horizon, same, reach⟩
  exact ⟨ledger.forget username, horizon,
    ⟨same.policy, same.sound.forget username,
      MemoryTraffic.deleteUserHistory_refines same.memory username,
      SQLiteTraffic.deleteUserHistory_refines same.db username⟩, reach⟩

/-- Both stores accept or refuse a set of policies, and dropping old data is invisible. -/
theorem Related.applyStoragePolicies (related : Related asOf memory db)
    {policies : List StoragePolicy} {now : ℤ}
    (quiet : QuietCall sorter memory (.applyStoragePolicies policies now)) (past : now ≤ asOf) :
    (memory.answer sorter (.applyStoragePolicies policies now)).1 =
        (db.answer (.applyStoragePolicies policies now)).1 ∧
      Related asOf (memory.answer sorter (.applyStoragePolicies policies now)).2
        (db.answer (.applyStoragePolicies policies now)).2 := by
  have again := related
  rcases related with ⟨ledger, horizon, same, reach⟩
  rcases quiet with ⟨tombstones, room⟩
  simp only [MemoryTrafficStore.answer, SQLiteTrafficStore.answer]
  split
  · rename_i validated
    have fresh : ledger.Fresh now := by
      intro username account known deleted
      rw [← same.memory.entry username, Option.map_eq_some_iff] at known
      rcases known with ⟨current, present, rfl⟩
      exact tombstones username current present deleted
    have valid := valid_userTraffic (ActivePolicies.ofList policies validated)
    refine ⟨rfl, ledger, max horizon now, ⟨rfl, same.sound, ?_, ?_⟩, ?_⟩
    · exact MemoryTraffic.pruneUserTrafficBuckets_refines valid same.memory same.sound fresh room
        (le_max_left _ _) (le_max_right _ _)
    · rw [SQLiteTraffic.prune_of_fresh valid fresh same.db.entries]
      exact same.db
    · rcases reach with before | moved
      · exact Or.inl (max_le before past)
      · exact Or.inr moved
  · exact ⟨rfl, again⟩

/-- Time at which a call applies policies is not after a given time. -/
def TrafficCall.PoliciesBy (asOf : ℤ) : TrafficCall → Prop
  | .applyStoragePolicies _ now => now ≤ asOf
  | _ => True

theorem TrafficCall.PoliciesBy.mono {call : TrafficCall} {asOf later : ℤ}
    (past : call.PoliciesBy asOf) (le : asOf ≤ later) : call.PoliciesBy later := by
  cases call with
  | applyUserTrafficSnapshot snapshot => trivial
  | deleteUserHistory username => trivial
  | applyStoragePolicies policies now => exact past.trans le

theorem Related.answer (related : Related asOf memory db) {call : TrafficCall}
    (allowed : QuietCall sorter memory call ∧ call.PoliciesBy asOf) :
    (memory.answer sorter call).1 = (db.answer call).1 ∧
      Related asOf (memory.answer sorter call).2 (db.answer call).2 := by
  rcases allowed with ⟨quiet, past⟩
  cases call with
  | applyUserTrafficSnapshot snapshot => exact related.applyUserTrafficSnapshot quiet
  | deleteUserHistory username => exact ⟨rfl, related.deleteUserHistory username⟩
  | applyStoragePolicies policies now => exact related.applyStoragePolicies quiet past

/-- Related stores show the same accounts at every time from the last observation on. -/
theorem Related.sameAccounts {bound : ℤ} (related : Related bound memory db)
    (last : ∀ collector ∈ memory.traffic.collector?, collector.lastSuccessTS ≤ asOf) :
    SameAccounts asOf memory.traffic db.traffic := by
  rcases related with ⟨ledger, horizon, same, -⟩
  rw [same.memory.collector] at last
  have monthLe : ledger.collector ≠ none → ledger.month ≤ utcMonthKey asOf := by
    intro found
    rcases Option.ne_none_iff_exists'.mp found with ⟨collector, known⟩
    simp only [TrafficLedger.month, known, Option.map_some, Option.getD_some]
    exact utcMonthKey_mono (last collector known)
  have accounts : ∀ username : String,
      memory.traffic.userTraffic[username]?.map
          (MemoryUserTraffic.account (utcMonthKey asOf)) =
        db.traffic.users[username]?.map (UserTrafficRow.account (utcMonthKey asOf)) := by
    intro username
    exact (same.memory.entries.readLater monthLe username).trans
      (same.db.entries.readLater monthLe username).symm
  refine ⟨?_, ?_, ?_⟩
  · have collectors := same.memory.collector.trans same.db.collector.symm
    simp only [MemoryTraffic.collectorState, SQLiteTraffic.collectorState, ← collectors,
      MemoryTraffic.collector?]
    split <;> rfl
  · intro username
    rw [MemoryTraffic.summaries_eq same.memory, SQLiteTraffic.summaries_eq, accounts]
  · intro username
    rw [MemoryTraffic.baseline_eq _ (utcMonthKey asOf), SQLiteTraffic.baseline_eq _
      (utcMonthKey asOf), accounts]

/-- Related stores hold the same buckets of the last day. -/
theorem Related.sameRecentBuckets (related : Related asOf memory db)
    (last : ∀ collector ∈ memory.traffic.collector?, collector.lastSuccessTS ≤ asOf) :
    SameRecentBuckets asOf memory.traffic db.traffic := by
  rcases related with ⟨ledger, horizon, same, reach⟩
  rw [same.memory.collector] at last
  have within : horizon ≤ asOf := by
    rcases reach with before | ⟨collector, known, past⟩
    · exact before
    · exact absurd (last collector known) (not_le.mpr past)
  intro username ts recent
  rw [same.memory.bucket username ts (by omega), same.db.bucket]

end Step

section Runs

/-- Empty stores with the same policy for user traffic hold the empty ledger. -/
theorem related_empty {memoryPolicies dbPolicies : ActivePolicies}
    (policy : memoryPolicies.get .userTraffic = dbPolicies.get .userTraffic) (asOf : ℤ) :
    Related asOf ⟨memoryPolicies, .empty⟩ ⟨dbPolicies, .empty⟩ := by
  refine ⟨.empty, asOf, ⟨policy, TrafficLedger.sound_empty, ?_, ?_⟩, Or.inl le_rfl⟩
  · exact MemoryTraffic.refines_empty asOf
  · exact SQLiteTraffic.refines_empty

/-- A bound for the times at which a run applies policies. -/
theorem exists_policiesBy (calls : List TrafficCall) :
    ∃ asOf, ∀ call ∈ calls, call.PoliciesBy asOf := by
  induction calls with
  | nil => exact ⟨0, by simp⟩
  | cons call calls ih =>
      rcases ih with ⟨bound, rest⟩
      have first : ∃ asOf, bound ≤ asOf ∧ call.PoliciesBy asOf := by
        cases call with
        | applyUserTrafficSnapshot snapshot => exact ⟨bound, le_rfl, trivial⟩
        | deleteUserHistory username => exact ⟨bound, le_rfl, trivial⟩
        | applyStoragePolicies policies now =>
            exact ⟨max bound now, le_max_left _ _, le_max_right _ _⟩
      rcases first with ⟨asOf, le, past⟩
      exact ⟨asOf, List.forall_mem_cons.mpr
        ⟨past, fun later mem => (rest later mem).mono le⟩⟩

/-- After every quiet run from empty stores with the same policy, both stores have given the
same answers.  From the last observation on they show the same accounts, and, once no
change of policies lies ahead, the same buckets of the last day. -/
theorem traffic_backends_agree (sorter : Sorter MemoryUserTrafficBucketKey.ts)
    (memoryPolicies dbPolicies : ActivePolicies)
    (policy : memoryPolicies.get .userTraffic = dbPolicies.get .userTraffic)
    (calls : List TrafficCall)
    (quiet : Permitted (MemoryTrafficStore.step sorter) (QuietCall sorter)
      ⟨memoryPolicies, .empty⟩ calls) :
    outputs (MemoryTrafficStore.answer sorter) ⟨memoryPolicies, .empty⟩ calls =
        outputs SQLiteTrafficStore.answer ⟨dbPolicies, .empty⟩ calls ∧
      ∀ asOf, (∀ collector ∈ (after (MemoryTrafficStore.step sorter) ⟨memoryPolicies, .empty⟩
          calls).traffic.collector?, collector.lastSuccessTS ≤ asOf) →
        SameAccounts asOf
          (after (MemoryTrafficStore.step sorter) ⟨memoryPolicies, .empty⟩ calls).traffic
          (after SQLiteTrafficStore.step ⟨dbPolicies, .empty⟩ calls).traffic ∧
        ((∀ call ∈ calls, call.PoliciesBy asOf) → SameRecentBuckets asOf
          (after (MemoryTrafficStore.step sorter) ⟨memoryPolicies, .empty⟩ calls).traffic
          (after SQLiteTrafficStore.step ⟨dbPolicies, .empty⟩ calls).traffic) := by
  have simulated : ∀ asOf, (∀ call ∈ calls, call.PoliciesBy asOf) →
      outputs (MemoryTrafficStore.answer sorter) ⟨memoryPolicies, .empty⟩ calls =
          outputs SQLiteTrafficStore.answer ⟨dbPolicies, .empty⟩ calls ∧
        Related asOf (after (MemoryTrafficStore.step sorter) ⟨memoryPolicies, .empty⟩ calls)
          (after SQLiteTrafficStore.step ⟨dbPolicies, .empty⟩ calls) := by
    intro asOf past
    exact simulation_after (fun memory db call related allowed => related.answer allowed)
      (related_empty policy asOf) (quiet.and_of_forall past)
  rcases exists_policiesBy calls with ⟨bound, bounded⟩
  rcases simulated bound bounded with ⟨sameAnswers, related⟩
  refine ⟨sameAnswers, fun asOf last => ⟨related.sameAccounts last, fun past => ?_⟩⟩
  exact (simulated asOf past).2.sameRecentBuckets last

/-- A user is listed twice, becomes active, and history is switched off afterwards. -/
def sampleTrafficCalls : List TrafficCall :=
  [.applyUserTrafficSnapshot ⟨1000, 500, true, [⟨"alice", 5⟩]⟩,
    .applyUserTrafficSnapshot ⟨1030, 500, true, [⟨"alice", 9⟩, ⟨"bob", 2⟩]⟩,
    .applyStoragePolicies (defaultStoragePolicies.map fun policy =>
      { policy with enabled := policy.category = .userIPHistory }) 1040,
    .deleteUserHistory "bob"]

theorem sampleTrafficCalls_agree :
    outputs (MemoryTrafficStore.answer (.stable _)) ⟨.default, .empty⟩ sampleTrafficCalls =
        outputs SQLiteTrafficStore.answer ⟨.default, .empty⟩ sampleTrafficCalls :=
  (traffic_backends_agree (.stable _) .default .default rfl sampleTrafficCalls
    (by decide +kernel)).1

end Runs

end TelemtPanel.Store
