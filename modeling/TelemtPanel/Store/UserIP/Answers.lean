import TelemtPanel.Store.UserIP.Agreement

/-!
# Both user IP histories answer alike

Equal records give equal pages, summaries and snapshots.  Two things are told
apart: a snapshot says whether its history is durable, and the pattern of a
search ends at a NUL character.
-/

namespace TelemtPanel.Store

open TelemtPanel.Library

/-- A snapshot without the mark of a durable history. -/
def UserIPReadSnapshot.dropDurable (snapshot : UserIPReadSnapshot) : UserIPReadSnapshot :=
  { snapshot with durable := false }

/-- Both histories answer every query alike, apart from the mark of a durable history. -/
structure SameUserIPAnswers (retention : ℤ) (total : ℕ) (memory : MemoryUserIPs)
    (db : SQLiteUserIPs) : Prop where
  history : ∀ (cases_ : LowerCase) (q : UserIPQuery), Char.ofNat 0 ∉ q.search.toList →
    memory.userIPHistory retention cases_ q = db.userIPHistoryPage retention cases_ q
  summaries : ∀ fromSecs now,
    memory.userIPSummaries retention fromSecs now = db.userIPSummaries retention fromSecs now
  snapshot : ∀ fromSecs now,
    (memory.readUserIPSnapshot retention total fromSecs now).map (·.dropDurable) =
      (db.readUserIPSnapshot retention total fromSecs now).map (·.dropDurable)

section Search

theorem plain_toLower {cases_ : LowerCase} {search : String}
    (clean : Char.ofNat 0 ∉ search.toList) {c : Char} (mem : c ∈ toLower cases_ search) :
    Addr.plain c = true := by
  rcases List.mem_map.mp mem with ⟨original, originalMem, rfl⟩
  apply cases_.plain_lower
  rintro rfl
  exact clean originalMem

/-- Both backends search for the same text. -/
theorem matchesSearch_eq (cases_ : LowerCase) {search ip : String}
    (clean : Char.ofNat 0 ∉ search.toList) (plain : ∀ c ∈ ip.toList, Addr.plain c = true) :
    SQLiteUserIPs.matchesSearch cases_ search ip = MemoryUserIPs.contains cases_ search ip := by
  unfold SQLiteUserIPs.matchesSearch MemoryUserIPs.contains
  by_cases everything : search = ""
  · subst everything
    simp [toLower]
  · have isPlain : ∀ {text : List Char}, (∀ c ∈ text, Addr.plain c = true) →
        Char.ofNat 0 ∉ text ∧ ∀ c ∈ text, c.isUpper = false := by
      intro text all
      constructor
      · intro mem
        exact absurd (all _ mem) (by decide)
      · intro c mem
        have here := all c mem
        simp only [Addr.plain, Bool.and_eq_true, Bool.not_eq_true'] at here
        exact here.1
    have needle := isPlain fun c mem => @plain_toLower cases_ _ clean _ mem
    have text := isPlain plain
    rw [decide_eq_false everything, Bool.false_or, Bool.eq_iff_iff, decide_eq_true_eq]
    exact like_contains (by decide) (by decide) needle.1 text.1 needle.2 text.2

end Search

section Summaries

/-- Counting record by record. -/
theorem lookup_foldl_alter (rows : List UserIPRecord) (selects : UserIPRecord → Prop)
    [DecidablePred selects] (counts : Table String ℕ) (username : String) :
    (rows.foldl (fun counts r =>
      if selects r then Std.ExtTreeMap.alter counts r.username fun count => some (count.getD 0 + 1)
      else counts) counts)[username]? =
        if 0 < (rows.filter fun r => selects r ∧ r.username = username).length then
          some (counts[username]?.getD 0 +
            (rows.filter fun r => selects r ∧ r.username = username).length)
        else counts[username]? := by
  induction rows generalizing counts with
  | nil => simp
  | cons r rows ih =>
      rw [List.foldl_cons, ih]
      by_cases selected : selects r
      · by_cases here : r.username = username
        · subst here
          simp only [selected, ↓reduceIte, Table.lookup_alter, List.filter_cons, and_self,
            decide_true, List.length_cons, Option.getD_some]
          split
          · rw [if_pos (by omega)]
            congr 1
            omega
          · rw [if_pos (by omega)]
            congr 1
            omega
        · simp only [selected, ↓reduceIte, Table.lookup_alter, List.filter_cons, here, and_false,
            decide_false, Bool.false_eq_true]
      · simp only [selected, ↓reduceIte, List.filter_cons, false_and, decide_false,
          Bool.false_eq_true]

/-- Counting group by group. -/
theorem lookup_foldl_insert (users : List String) (amount : String → ℕ) (counts : Table String ℕ)
    (username : String) :
    (users.foldl (fun counts user => counts.insert user (amount user)) counts)[username]? =
      if username ∈ users then some (amount username) else counts[username]? := by
  induction users generalizing counts with
  | nil => simp
  | cons user users ih =>
      rw [List.foldl_cons, ih, Table.lookup_insert]
      by_cases later : username ∈ users
      · simp [later]
      · by_cases here : user = username
        · simp [here]
        · simp [later, here, Ne.symm here]

end Summaries

namespace SameUserIPs

variable {retention : ℤ} {limit total : ℕ} {memory : MemoryUserIPs} {db : SQLiteUserIPs}

theorem userIPHistory (same : SameUserIPs limit total memory db) (cases_ : LowerCase)
    (q : UserIPQuery) (clean : Char.ofNat 0 ∉ q.search.toList) :
    memory.userIPHistory retention cases_ q = db.userIPHistoryPage retention cases_ q := by
  unfold MemoryUserIPs.userIPHistory SQLiteUserIPs.userIPHistoryPage
  rw [same.records]
  cases checked : validateUserIPQuery q with
  | error refusal => rfl
  | ok _ =>
      dsimp only
      set since := max q.fromSecs (userIPCutoff retention q.now)
      have limitPos : 1 ≤ q.limit := by
        unfold validateUserIPQuery at checked
        split at checked
        · cases checked
        · omega
      have sameRows : (memory.userIPs.rows.filter fun r =>
          !(r.username ≠ q.username || decide (r.last < since))) =
          memory.userIPs.rows.filter fun r =>
            r.username = q.username && decide (r.last ≥ since) := by
        apply List.filter_congr
        intro r _
        rw [Bool.eq_iff_iff]
        simp
      rw [sameRows]
      set rows := memory.userIPs.rows.filter fun r =>
        r.username = q.username && decide (r.last ≥ since) with rowsEq
      have sameMatching : rows.filter (q.wants (MemoryUserIPs.contains cases_ q.search)) =
          rows.filter (q.wants (SQLiteUserIPs.matchesSearch cases_ q.search)) := by
        apply List.filter_congr
        intro r mem
        rw [UserIPQuery.wants, UserIPQuery.wants, matchesSearch_eq cases_ clean]
        exact (same.sound.stored r (List.mem_of_mem_filter mem)).plain
      rw [sameMatching]
      set matching := rows.filter (q.wants (SQLiteUserIPs.matchesSearch cases_ q.search))
      have sameItems : (matching.filter fun r => !(q.before ≠ 0 && (decide (r.last > q.before) ||
          r.last = q.before && decide (r.ip ≤ q.afterIP)))) =
          matching.filter fun r => q.before = 0 || (decide (r.last < q.before) ||
            r.last = q.before && decide (r.ip > q.afterIP)) := by
        apply List.filter_congr
        intro r _
        rw [Bool.eq_iff_iff]
        simp only [Bool.not_eq_true', Bool.and_eq_false_iff, Bool.or_eq_false_iff,
          Bool.or_eq_true, Bool.and_eq_true, decide_eq_true_eq, decide_eq_false_iff_not, ne_eq,
          Decidable.not_not, gt_iff_lt, not_lt, not_le]
        refine or_congr_right ?_
        rcases lt_trichotomy r.last q.before with earlier | same | later
        · simp [earlier, earlier.le, earlier.ne]
        · simp [same]
        · simp [later.ne', later.not_gt, later.not_ge]
      rw [sameItems]
      set items := (Sorter.stable UserIPRecord.pageOrder).sort (matching.filter fun r =>
        q.before = 0 || (decide (r.last < q.before) ||
          r.last = q.before && decide (r.ip > q.afterIP)))
      have oneMore : (q.limit + 1).toNat = q.limit.toNat + 1 := by omega
      rw [oneMore, List.take_take, min_eq_left (Nat.le_succ _), List.length_take]
      have sameMore : decide (q.limit.toNat < items.length) =
          decide (q.limit.toNat < min (q.limit.toNat + 1) items.length) :=
        decide_eq_decide.mpr (by omega)
      rw [sameMore]

theorem userIPSummaries (same : SameUserIPs limit total memory db) (fromSecs now : ℤ) :
    memory.userIPSummaries retention fromSecs now = db.userIPSummaries retention fromSecs now := by
  unfold MemoryUserIPs.userIPSummaries SQLiteUserIPs.userIPSummaries
  rw [same.records]
  dsimp only
  set since := max fromSecs (userIPCutoff retention now)
  apply Table.ext
  intro username
  rw [lookup_foldl_alter, lookup_foldl_insert]
  have sameCount : (memory.userIPs.rows.filter fun r => r.last ≥ since ∧ r.username = username) =
      (memory.userIPs.rows.filter fun r => decide (r.last ≥ since)).filter fun r =>
        r.username = username := by
    rw [List.filter_filter]
    apply List.filter_congr
    intro r _
    rw [Bool.eq_iff_iff]
    simp [and_comm]
  rw [sameCount]
  set rows := memory.userIPs.rows.filter fun r => decide (r.last ≥ since)
  have present : 0 < (rows.filter fun r => r.username = username).length ↔
      username ∈ (rows.map (·.username)).dedup := by
    rw [List.length_pos_iff_exists_mem]
    simp
  by_cases counted : username ∈ (rows.map (·.username)).dedup
  · rw [if_pos (present.mpr counted), if_pos counted]
    simp
  · rw [if_neg (fun positive => counted (present.mp positive)), if_neg counted]

theorem readUserIPSnapshot (same : SameUserIPs limit total memory db) (fromSecs now : ℤ) :
    (memory.readUserIPSnapshot retention total fromSecs now).map (·.dropDurable) =
      (db.readUserIPSnapshot retention total fromSecs now).map (·.dropDurable) := by
  unfold MemoryUserIPs.readUserIPSnapshot SQLiteUserIPs.readUserIPSnapshot
  rw [same.records, same.collection, same.epoch]
  cases checked : validateSnapshotRange fromSecs now with
  | error refusal => rfl
  | ok _ =>
      dsimp only
      set since := max fromSecs (userIPCutoff retention now)
      have distinctKeys := same.sound.keyed.nodup_map_rows
      have distinct : (memory.userIPs.rows.map UserIPRecord.newness).Nodup :=
        UserIPRecord.nodup_map_of_key UserIPRecord.key_of_newness distinctKeys
      have sameRows : (memory.userIPs.rows.filter fun r =>
          !decide (r.last > now) && !decide (r.last < since)) =
          memory.userIPs.rows.filter (SQLiteUserIPs.inRange since now) := by
        apply List.filter_congr
        intro r _
        rw [Bool.eq_iff_iff]
        simp [SQLiteUserIPs.inRange, and_comm]
      rw [sameRows, foldl_pushBounded (Nat.succ_pos total) (Sorter.stable UserIPRecord.newness)
        (SQLiteUserIPs.nodup_map_filter distinct _), SQLiteUserIPs.readPages_snapshot distinct]
      change Except.map _ (Except.ok _) = Except.map _ (Except.ok _)
      have sorted : (Sorter.stable UserIPRecord.newness).sort
          (memory.userIPs.rows.filter (SQLiteUserIPs.inRange since now)) =
          SQLiteUserIPs.newestInRange memory.userIPs.rows since now := rfl
      rw [sorted, List.length_reverse]
      set read := (SQLiteUserIPs.newestInRange memory.userIPs.rows since now).take (total + 1)
        with readEq
      have distinctRead : (read.map UserIPRecord.keyOrder).Nodup := by
        apply UserIPRecord.nodup_map_of_key UserIPRecord.key_of_keyOrder
        have part : (read.map UserIPRecord.key).Sublist
            ((SQLiteUserIPs.newestInRange memory.userIPs.rows since now).map UserIPRecord.key) :=
          (List.take_sublist _ _).map _
        refine List.Nodup.sublist part ?_
        refine (((Sorter.stable UserIPRecord.newness).perm _).map _).nodup_iff.mpr ?_
        exact SQLiteUserIPs.nodup_map_filter distinctKeys _
      have sameRecords : (Sorter.stable UserIPRecord.keyOrder).sort
          (if decide (total < read.length) = true then read.reverse.tail else read.reverse) =
          (Sorter.stable UserIPRecord.keyOrder).sort
            (if decide (total < read.length) = true then read.take total else read) := by
        have reversed : ∀ {rows : List UserIPRecord}, (rows.map UserIPRecord.keyOrder).Nodup →
            (Sorter.stable UserIPRecord.keyOrder).sort rows.reverse =
              (Sorter.stable UserIPRecord.keyOrder).sort rows := by
          intro rows distinctRows
          apply Sorter.sort_eq_of_pairwise_lt
          · rw [List.map_reverse]
            exact List.nodup_reverse.mpr distinctRows
          · exact Sorter.pairwise_lt_sort _ distinctRows
          · intro r
            simp
        split
        · rename_i beyond
          have length : read.length ≤ total + 1 := by
            rw [readEq]
            exact List.length_take_le _ _
          have oneLess : read.reverse.tail = (read.take total).reverse := by
            rw [List.tail_reverse, List.dropLast_eq_take]
            rw [decide_eq_true_eq] at beyond
            congr 2
            omega
          rw [oneLess, reversed]
          exact distinctRead.sublist ((List.take_sublist _ _).map _)
        · exact reversed distinctRead
      rw [sameRecords]
      rfl

/-- Equal histories answer alike. -/
theorem answers (same : SameUserIPs limit total memory db) :
    SameUserIPAnswers retention total memory db :=
  ⟨same.userIPHistory, same.userIPSummaries, same.readUserIPSnapshot⟩

end SameUserIPs

/-- Both stores hold the same history under the same policies. -/
structure SameUserIPStores (total : ℕ) (memory : MemoryUserIPStore) (db : SQLiteUserIPStore) :
    Prop where
  policies : memory.policies = db.policies
  ips : SameUserIPs memory.limit total memory.ips db.ips

variable {retention : ℤ} {total : ℕ}

/-- Every call is accepted or rejected by both and keeps them the same. -/
theorem SameUserIPStores.answer {memory : MemoryUserIPStore} {db : SQLiteUserIPStore}
    (same : SameUserIPStores total memory db) (call : UserIPCall) :
    (memory.answer retention total call).1 = (db.answer retention total call).1 ∧
      SameUserIPStores total (memory.answer retention total call).2
        (db.answer retention total call).2 := by
  rcases same with ⟨policies, ips⟩
  have sameLimit : db.limit = memory.limit := by
    rw [SQLiteUserIPStore.limit, MemoryUserIPStore.limit, policies]
  cases call with
  | applyUserIPBatch batch =>
      simp only [MemoryUserIPStore.answer, SQLiteUserIPStore.answer, sameLimit]
      rcases @SameUserIPs.applyUserIPBatch retention _ _ _ _ ips batch with
        ⟨refusal, inMemory, inDB⟩ | ⟨memory', db', inMemory, inDB, still⟩
      · rw [inMemory, inDB]
        exact ⟨rfl, policies, ips⟩
      · rw [inMemory, inDB]
        exact ⟨rfl, policies, still⟩
  | pruneUserIPHistory now => exact ⟨rfl, policies, ips.expire _⟩
  | resetUserIPHistory username => exact ⟨rfl, policies, ips.resetUserIPHistory username⟩
  | changeUserIPLimit limit now =>
      simp only [MemoryUserIPStore.answer, SQLiteUserIPStore.answer, ← policies]
      split
      · exact ⟨rfl, rfl, ips.applyUserIPPolicy now⟩
      · exact ⟨rfl, policies, ips⟩

theorem sameUserIPStores_empty (policies : ActivePolicies) :
    SameUserIPStores total ⟨policies, .empty⟩ ⟨policies, .empty⟩ := by
  have nothing : (∅ : UserIPTable).rows = [] := by decide +kernel
  have noOrder : UserIPTable.newestFirst ∅ = [] := by
    apply List.eq_nil_iff_forall_not_mem.mpr
    intro r mem
    rw [UserIPTable.mem_newestFirst, nothing] at mem
    exact List.not_mem_nil mem
  refine ⟨rfl, rfl, rfl, rfl, ⟨Table.keyed_empty, ?_⟩, ⟨?_, ?_⟩, ?_⟩
  · intro r mem
    simp only [MemoryUserIPs.empty, nothing] at mem
    cases mem
  · intro _ username
    simp [MemoryUserIPs.empty, UserIPTable.ofUser, noOrder]
  · simp [MemoryUserIPs.empty, nothing]
  · intro r mem
    simp only [SQLiteUserIPs.empty, nothing] at mem
    cases mem

/-- Run on the same calls from empty stores with the same retention and total cap, both
histories accept the same calls, hold the same records and metadata, and answer alike. -/
theorem user_ip_backends_agree (retention : ℤ) (total : ℕ) (policies : ActivePolicies)
    (calls : List UserIPCall) :
    let memory := after (fun store call => (MemoryUserIPStore.answer retention total store call).2)
      ⟨policies, .empty⟩ calls
    let db := after (fun store call => (SQLiteUserIPStore.answer retention total store call).2)
      ⟨policies, .empty⟩ calls
    outputs (MemoryUserIPStore.answer retention total) ⟨policies, .empty⟩ calls =
        outputs (SQLiteUserIPStore.answer retention total) ⟨policies, .empty⟩ calls ∧
      memory.ips.userIPs = db.ips.userIPHistory ∧
      memory.ips.userIPCollection = db.ips.readUserIPCollection ∧
      SameUserIPAnswers retention total memory.ips db.ips := by
  intro memory db
  rcases @simulation_after _ _ _ _ (MemoryUserIPStore.answer retention total)
    (SQLiteUserIPStore.answer retention total) (fun _ _ => True) (SameUserIPStores total)
    (fun memory db call same _ => same.answer call) _ _ (sameUserIPStores_empty policies)
    calls (permitted_of_forall fun _ _ => trivial) with ⟨sameOutputs, same⟩
  exact ⟨sameOutputs, same.ips.records.symm, same.ips.collection.symm, same.ips.answers⟩

/-- One address of one user. -/
def sampleUserIPBatch : UserIPBatch :=
  ⟨"batch", 100, [⟨"alice", "10.0.0.1", 4, 50, 100, 1, 0, 1⟩], false, false⟩

/-- A search for the NUL character. -/
def sampleNulQuery : UserIPQuery :=
  ⟨"alice", 100, 0, 0, String.ofList [Char.ofNat 0], 10, 0, ""⟩

/-- Not every answer is the same: a snapshot carries the mark of a durable history, and a search
for the NUL character finds nothing in one store and everything in the other. -/
theorem sampleUserIPBatch_told_apart :
    let memory := after (fun store call => (MemoryUserIPStore.answer 86400 10 store call).2)
      ⟨ActivePolicies.default, .empty⟩ [.applyUserIPBatch sampleUserIPBatch]
    let db := after (fun store call => (SQLiteUserIPStore.answer 86400 10 store call).2)
      ⟨ActivePolicies.default, .empty⟩ [.applyUserIPBatch sampleUserIPBatch]
    memory.ips.readUserIPSnapshot 86400 10 0 100 ≠ db.ips.readUserIPSnapshot 86400 10 0 100 ∧
      memory.ips.userIPHistory 86400 .ofASCII sampleNulQuery ≠
        db.ips.userIPHistoryPage 86400 .ofASCII sampleNulQuery := by
  decide +kernel

end TelemtPanel.Store
