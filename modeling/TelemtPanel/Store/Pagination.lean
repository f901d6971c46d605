import TelemtPanel.Store.Traffic.Ranking
import TelemtPanel.Store.UserIP.Keyset

/-!
# Keyset pagination of both stores

The histories of addresses and the rankings of users are read page by page, each page behind the
last item of the page before it.  A history has its time in the query, so all of its pages see the
same records.  A ranking takes the time of each page, so that its pages have to agree on the plan.
-/

namespace TelemtPanel.Store

open TelemtPanel.Library

/-- Following the cursors of an unchanging store lists every matching record and every ranked user
once and in order. -/
theorem pages_visit_once :
    (∀ (memory : MemoryUserIPs) (retention : ℤ) (cases_ : LowerCase) (q : UserIPQuery),
      memory.userIPs.Dated → validateUserIPQuery q = .ok () →
      ∀ rounds > memory.userIPs.rows.length,
        UserIPPages memory.userIPs retention q (MemoryUserIPs.contains cases_ q.search)
          (followPages (fun _ cursor => memory.userIPHistory retention cases_ (q.at_ cursor))
            userIPItems userIPMore UserIPRecord.cursor rounds 0 none)) ∧
    (∀ (db : SQLiteUserIPs) (retention : ℤ) (cases_ : LowerCase) (q : UserIPQuery),
      db.userIPHistory.Dated → validateUserIPQuery q = .ok () →
      ∀ rounds > db.userIPHistory.rows.length,
        UserIPPages db.userIPHistory retention q (SQLiteUserIPs.matchesSearch cases_ q.search)
          (followPages (fun _ cursor => db.userIPHistoryPage retention cases_ (q.at_ cursor))
            userIPItems userIPMore UserIPRecord.cursor rounds 0 none)) ∧
    (∀ (memory : MemoryTraffic) (policy : StoragePolicy) (asOf : ℕ → ℤ) (fromSecs toSecs : ℤ)
      (windows : List TrafficWindow) (includeDeleted : Bool) (limit : ℤ)
      (ranks : List UserTrafficRank), 0 < limit →
      (∀ round, (planTrafficWindows fromSecs toSecs (asOf round)
        (MemoryTraffic.trafficReadTiers policy)).map (·.1) = .ok windows) →
      memory.userTrafficRanking policy (asOf 0) fromSecs toSecs includeDeleted limit none =
        .ok ranks →
      ∃ enough, ∀ rounds ≥ enough, RankingPages (memory.Ranked windows includeDeleted) limit
        (followPages (fun round cursor => memory.userTrafficRanking policy (asOf round) fromSecs
          toSecs includeDeleted limit cursor) rankItems (rankMore limit) id rounds 0 none)) ∧
    ∀ (db : SQLiteTraffic) (policy : StoragePolicy) (asOf : ℕ → ℤ) (fromSecs toSecs : ℤ)
      (windows : List TrafficWindow) (includeDeleted : Bool) (limit : ℤ)
      (ranks : List UserTrafficRank), 0 < limit →
      (∀ round, (planTrafficWindows fromSecs toSecs (asOf round)
        (trafficReadTiers policy)).map (·.1) = .ok windows) →
      db.userTrafficRanking policy (asOf 0) fromSecs toSecs includeDeleted limit none =
        .ok ranks →
      ∃ enough, ∀ rounds ≥ enough, RankingPages (db.Ranked windows includeDeleted) limit
        (followPages (fun round cursor => db.userTrafficRanking policy (asOf round) fromSecs
          toSecs includeDeleted limit cursor) rankItems (rankMore limit) id rounds 0 none) := by
  refine ⟨?_, ?_, ?_, ?_⟩
  · intro memory retention cases_ q dated valid rounds enough
    exact MemoryUserIPs.pages_of_dated dated cases_ valid enough
  · intro db retention cases_ q dated valid rounds enough
    exact SQLiteUserIPs.pages_of_dated dated cases_ valid enough
  · intro memory policy asOf fromSecs toSecs windows includeDeleted limit ranks positive planned
    exact MemoryTraffic.rankingPages positive planned
  · intro db policy asOf fromSecs toSecs windows includeDeleted limit ranks positive planned
    exact SQLiteTraffic.rankingPages positive planned

/-- Two buckets of one user, a quarter of an hour apart. -/
def sampleRanking : MemoryTraffic where
  userTraffic := (∅ : MemoryTrafficTable).insert "alice"
    ⟨⟨"alice", 100, 100, 197001, 0, 900, 0, .userTrafficNormal⟩, 100, 1, true⟩
  userTrafficBuckets := ((∅ : MemoryBucketTable).insert ⟨"alice", 0⟩ 60).insert ⟨"alice", 900⟩ 40
  userTrafficCollector := ⟨900, 1, .userTrafficCollecting, .userTrafficNormal⟩
  hasTrafficCollector := true

/-- Two users with as many bytes. -/
def sampleTies : MemoryTraffic where
  userTraffic := ((∅ : MemoryTrafficTable).insert "alice"
    ⟨⟨"alice", 100, 100, 197001, 0, 900, 0, .userTrafficNormal⟩, 100, 1, true⟩).insert "bob"
    ⟨⟨"bob", 100, 100, 197001, 0, 900, 0, .userTrafficNormal⟩, 100, 1, true⟩
  userTrafficBuckets :=
    ((∅ : MemoryBucketTable).insert ⟨"alice", 0⟩ 100).insert ⟨"bob", 900⟩ 100
  userTrafficCollector := ⟨900, 1, .userTrafficCollecting, .userTrafficNormal⟩
  hasTrafficCollector := true

/-- Two addresses of one user, seen last at the same time. -/
def sampleAddresses : MemoryUserIPs where
  userIPs := ((∅ : UserIPTable).insert ⟨"alice", "10.0.0.1"⟩
    ⟨"alice", "10.0.0.1", 4, 50, 100, 1, 0, 1⟩).insert ⟨"alice", "10.0.0.2"⟩
    ⟨"alice", "10.0.0.2", 4, 60, 100, 1, 0, 1⟩
  userIPCollection := ⟨"batch", 50, 100, false, false⟩
  userIPEpoch := 0

/-- The sample addresses and the sample ties in pages of one, all of them read at the same time. -/
theorem samplePages_visited :
    UserIPPages sampleAddresses.userIPs 86400 ⟨"alice", 100, 0, 0, "10.", 1, 0, ""⟩
        (MemoryUserIPs.contains .ofASCII "10.")
        (followPages (fun _ cursor => sampleAddresses.userIPHistory 86400 .ofASCII
          (UserIPQuery.at_ ⟨"alice", 100, 0, 0, "10.", 1, 0, ""⟩ cursor)) userIPItems userIPMore
            UserIPRecord.cursor 3 0 none) ∧
      ∃ enough, ∀ rounds ≥ enough, RankingPages
        (sampleTies.Ranked [⟨.metricTierQuarter, 0, 86400⟩] true) 1
        (followPages (fun _ cursor => sampleTies.userTrafficRanking
          (ActivePolicies.default.get .userTraffic) 86400 0 86400 true 1 cursor) rankItems
            (rankMore 1) id rounds 0 none) := by
  constructor
  · refine pages_visit_once.1 sampleAddresses 86400 .ofASCII
      ⟨"alice", 100, 0, 0, "10.", 1, 0, ""⟩ ?_ (by decide) 3 (by decide +kernel)
    have first := @UserIPTable.Dated.insert _ dated_empty ⟨"alice", "10.0.0.1"⟩
      ⟨"alice", "10.0.0.1", 4, 50, 100, 1, 0, 1⟩ rfl (by decide)
    exact @UserIPTable.Dated.insert _ first ⟨"alice", "10.0.0.2"⟩
      ⟨"alice", "10.0.0.2", 4, 60, 100, 1, 0, 1⟩ rfl (by decide)
  · have planned : (planTrafficWindows 0 86400 86400 (MemoryTraffic.trafficReadTiers
        (ActivePolicies.default.get .userTraffic))).map (·.1) =
          .ok [⟨.metricTierQuarter, 0, 86400⟩] := by decide +kernel
    have answered := @MemoryTraffic.userTrafficRanking_eq sampleTies _ _ 86400 0 86400 true 1 none
      planned (by decide)
    have noOverflow : (MemoryTraffic.rankingPeriod [⟨.metricTierQuarter, 0, 86400⟩] ∅
        sampleTies.userTrafficBuckets.toList).toBool = true := by decide +kernel
    cases summed : MemoryTraffic.rankingPeriod [⟨.metricTierQuarter, 0, 86400⟩] ∅
        sampleTies.userTrafficBuckets.toList with
    | error refusal =>
        rw [summed] at noOverflow
        cases noOverflow
    | ok period =>
        rw [summed] at answered
        exact pages_visit_once.2.2.1 sampleTies _ (fun _ => 86400) 0 86400 _ true 1 _ (by decide)
          (fun _ => planned) answered

/-- The older bucket has left the history when the second page is read, and the user is listed
again. -/
theorem sampleRanking_listed_again :
    ¬∀ (memory : MemoryTraffic) (policy : StoragePolicy) (asOf : ℕ → ℤ) (fromSecs toSecs : ℤ)
      (includeDeleted : Bool) (limit : ℤ) (rounds : ℕ), Monotone asOf → 0 < limit →
      (((followPages (fun round cursor => memory.userTrafficRanking policy (asOf round) fromSecs
        toSecs includeDeleted limit cursor) rankItems (rankMore limit) id rounds 0 none).flatMap
          rankItems).map (·.username)).Nodup := by
  intro once
  have listed := once sampleRanking (ActivePolicies.default.get .userTraffic)
    (fun round => if round = 0 then 86400 else 86401) 0 86400 true 1 3 (by
      intro earlier later le
      dsimp only
      split <;> split <;> omega) (by decide)
  revert listed
  decide +kernel

end TelemtPanel.Store
