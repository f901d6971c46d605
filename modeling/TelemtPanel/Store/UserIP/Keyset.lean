import TelemtPanel.Library.Keyset
import TelemtPanel.Store.UserIP.Answers

/-!
# Pages of addresses

The history of a user is read page by page, newest first and by address among equally new records.
A query without a cursor has the time zero in its place, which no stored record has.
-/

namespace TelemtPanel.Store

open TelemtPanel.Library UserIPTable

/-- Records are stored under their keys, and have been seen after the time zero. -/
structure UserIPTable.Dated (ips : UserIPTable) : Prop where
  keyed : HoldsKeys ips
  dated : ∀ r ∈ ips.rows, 0 < r.last

/-- What a page says about where the next one starts. -/
def UserIPRecord.cursor (r : UserIPRecord) : ℤ × String := (r.last, r.ip)

/-- The query for the page behind a cursor. -/
def UserIPQuery.at_ (q : UserIPQuery) (cursor : Option (ℤ × String)) : UserIPQuery :=
  { q with before := (cursor.getD (0, "")).1, afterIP := (cursor.getD (0, "")).2 }

def userIPItems : Except UserIPError UserIPPage → List UserIPRecord
  | .ok page => page.items
  | .error _ => []

def userIPMore : Except UserIPError UserIPPage → Bool
  | .ok page => page.hasMore
  | .error _ => false

/-- The records of a user in the time range of a query. -/
def UserIPTable.ranged (ips : UserIPTable) (retention : ℤ) (q : UserIPQuery) :
    List UserIPRecord :=
  ips.rows.filter fun r => r.username = q.username &&
    decide (r.last ≥ max q.fromSecs (userIPCutoff retention q.now))

/-- What all pages of a query hold together. -/
structure UserIPPages (ips : UserIPTable) (retention : ℤ) (q : UserIPQuery)
    (contains : String → Bool) (pages : List (Except UserIPError UserIPPage)) : Prop where
  ordered : (pages.flatMap userIPItems).Pairwise fun a b => a.pageOrder < b.pageOrder
  complete : ∀ r, r ∈ pages.flatMap userIPItems ↔
    r ∈ ips.ranged retention q ∧ q.wants contains r = true
  counts : ∀ p ∈ pages, ∃ page, p = .ok page ∧ page.total = (ips.ranged retention q).length ∧
    page.matched = ((ips.ranged retention q).filter (q.wants contains)).length ∧
    page.new = ((ips.ranged retention q).filter fun r => decide (r.first ≥ q.fromSecs)).length
  last : ∃ front final, pages = front ++ [final] ∧ (∀ p ∈ front, userIPMore p = true) ∧
    userIPMore final = false

section Pages

variable {ips : UserIPTable} {retention : ℤ} {q : UserIPQuery} {contains : String → Bool}

/-- The records that match, in the order of the pages. -/
def UserIPTable.listed (ips : UserIPTable) (retention : ℤ) (q : UserIPQuery)
    (contains : String → Bool) : List UserIPRecord :=
  (Sorter.stable UserIPRecord.pageOrder).sort
    ((ips.ranged retention q).filter (q.wants contains))

theorem mem_listed {r : UserIPRecord} : r ∈ ips.listed retention q contains ↔
    r ∈ ips.ranged retention q ∧ q.wants contains r = true := by
  rw [UserIPTable.listed, Sorter.mem_sort, List.mem_filter]

/-- Records of one user differ in their addresses. -/
theorem pairwise_listed (dated : ips.Dated) :
    (ips.listed retention q contains).Pairwise fun a b => a.pageOrder < b.pageOrder := by
  apply Sorter.pairwise_lt_sort
  have keys : (((ips.ranged retention q).filter (q.wants contains)).map UserIPRecord.key).Nodup :=
    dated.keyed.nodup_map_rows.sublist
      ((List.filter_sublist.trans List.filter_sublist).map UserIPRecord.key)
  refine List.pairwise_map.mpr ?_
  refine (List.pairwise_map.mp keys).imp_of_mem ?_
  intro left right leftMem rightMem apart same
  have user : ∀ r ∈ (ips.ranged retention q).filter (q.wants contains),
      r.username = q.username := by
    intro r mem
    have ranged := List.mem_of_mem_filter mem
    simp only [UserIPTable.ranged, List.mem_filter, Bool.and_eq_true, decide_eq_true_eq] at ranged
    exact ranged.2.1
  have ip : left.ip = right.ip := congrArg (fun rank => (ofLex rank).2) same
  apply apart
  rw [UserIPRecord.key, UserIPRecord.key, user left leftMem, user right rightMem, ip]

/-- A record is behind the last one of a page if the query for the next page takes it. -/
theorem behind_pageOrder (last : Option UserIPRecord) (dated : ∀ r ∈ last, 0 < r.last)
    (r : UserIPRecord) :
    behind UserIPRecord.pageOrder last r =
      ((q.at_ (last.map UserIPRecord.cursor)).before = 0 ||
        (decide (r.last < (q.at_ (last.map UserIPRecord.cursor)).before) ||
          r.last = (q.at_ (last.map UserIPRecord.cursor)).before &&
            decide (r.ip > (q.at_ (last.map UserIPRecord.cursor)).afterIP))) := by
  cases last with
  | none => rfl
  | some final =>
      have positive := dated final rfl
      change behind UserIPRecord.pageOrder (some final) r = (decide (final.last = 0) ||
        (decide (r.last < final.last) || decide (r.last = final.last) && decide (r.ip > final.ip)))
      rw [decide_eq_false positive.ne', Bool.false_or, Bool.eq_iff_iff]
      simp only [behind, UserIPRecord.pageOrder, Prod.Lex.toLex_lt_toLex,
        OrderDual.toDual_lt_toDual, OrderDual.toDual_inj, decide_eq_true_eq, Bool.or_eq_true,
        Bool.and_eq_true, gt_iff_lt, @eq_comm _ final.last]

/-- The exclusion of the process-local store is the selection of the durable one. -/
theorem not_excluded_iff (before last : ℤ) (ip afterIP : String) :
    (!(before ≠ 0 && (decide (last > before) || last = before && decide (ip ≤ afterIP)))) =
      (before = 0 || (decide (last < before) || last = before && decide (ip > afterIP))) := by
  rw [Bool.eq_iff_iff]
  simp only [Bool.not_eq_true', Bool.and_eq_false_iff, Bool.or_eq_false_iff, Bool.or_eq_true,
    Bool.and_eq_true, decide_eq_true_eq, decide_eq_false_iff_not, ne_eq, Decidable.not_not,
    gt_iff_lt, not_lt, not_le]
  refine or_congr_right ?_
  rcases lt_trichotomy last before with earlier | same | later
  · simp [earlier, earlier.le, earlier.ne]
  · simp [same]
  · simp [later.ne', later.not_gt, later.not_ge]

theorem one_le_limit (valid : validateUserIPQuery q = .ok ()) : 1 ≤ q.limit := by
  unfold validateUserIPQuery at valid
  split at valid
  · cases valid
  · omega

theorem validate_at (valid : validateUserIPQuery q = .ok ()) {last : Option UserIPRecord}
    (dated : ∀ r ∈ last, 0 < r.last) :
    validateUserIPQuery (q.at_ (last.map UserIPRecord.cursor)) = .ok () := by
  have before : ¬(q.at_ (last.map UserIPRecord.cursor)).before < 0 := by
    cases last with
    | none => exact lt_irrefl 0
    | some final => exact (dated final rfl).not_gt
  unfold validateUserIPQuery at valid ⊢
  split at valid
  · cases valid
  · rename_i sound
    apply if_neg
    simp only [not_or] at sound ⊢
    rcases sound with ⟨username, now, fromSecs, past, one, limit, family, search, -⟩
    exact ⟨username, now, fromSecs, past, one, limit, family, search, before⟩

/-- The page of a query behind a record. -/
def UserIPTable.pageBehind (ips : UserIPTable) (retention : ℤ) (q : UserIPQuery)
    (contains : String → Bool) (last : Option UserIPRecord) : UserIPPage :=
  let items := (ips.listed retention q contains).filter (behind UserIPRecord.pageOrder last)
  { items := items.take q.limit.toNat
    total := (ips.ranged retention q).length
    matched := ((ips.ranged retention q).filter (q.wants contains)).length
    new := ((ips.ranged retention q).filter fun r => decide (r.first ≥ q.fromSecs)).length
    hasMore := decide (q.limit.toNat < items.length) }

/-- Pages that are cut behind the last record of the page before hold everything together. -/
theorem pages_of_pageBehind (dated : ips.Dated) (valid : validateUserIPQuery q = .ok ())
    {page : Option (ℤ × String) → Except UserIPError UserIPPage}
    (cut : ∀ last : Option UserIPRecord, (∀ r ∈ last, 0 < r.last) →
      page (last.map UserIPRecord.cursor) = .ok (ips.pageBehind retention q contains last))
    {rounds : ℕ} (enough : ips.rows.length < rounds) :
    UserIPPages ips retention q contains
      (followPages (fun _ => page) userIPItems userIPMore UserIPRecord.cursor rounds 0 none) := by
  have ordered := @pairwise_listed ips retention q contains dated
  have few : (ips.listed retention q contains).length ≤ ips.rows.length := by
    rw [UserIPTable.listed, Sorter.length_sort]
    exact (List.filter_sublist.trans List.filter_sublist).length_le
  have one := one_le_limit valid
  have positive : 0 < q.limit.toNat := by omega
  have here : ∀ round count, pageAt (fun _ => page) UserIPRecord.cursor
      (ips.listed retention q contains) round count = .ok (ips.pageBehind retention q contains
        ((ips.listed retention q contains).take count).getLast?) := by
    intro _ count
    apply cut
    intro r isLast
    have mem := List.mem_of_mem_take (List.mem_of_getLast? isLast)
    exact dated.dated r (List.mem_of_mem_filter (mem_listed.mp mem).1)
  have continues : Continues (fun _ => page) userIPItems userIPMore UserIPRecord.cursor
      (ips.listed retention q contains) q.limit.toNat := by
    constructor
    · intro round count _
      rw [here, ← filter_behind ordered]
      rfl
    · intro round count _ isMore
      rw [here] at isMore
      have more := of_decide_eq_true isMore
      rw [filter_behind ordered, List.length_drop] at more
      exact more.le
    · intro round count _ isLast
      rw [here] at isLast
      have noMore := of_decide_eq_false isLast
      rw [filter_behind ordered, List.length_drop] at noMore
      exact not_lt.mp noMore
  rcases continues.followPages positive 0 (Nat.zero_le _) (few.trans_lt enough) with
    ⟨whole, last, each⟩
  rw [List.drop_zero] at whole
  refine ⟨?_, ?_, ?_, last⟩
  · exact whole ▸ ordered
  · intro r
    exact whole ▸ mem_listed
  · intro p mem
    rcases each p mem with ⟨round, read, -, rfl⟩
    exact ⟨_, here round read, rfl, rfl, rfl⟩

/-- The process-local history cuts its pages behind the cursor. -/
theorem MemoryUserIPs.userIPHistory_at {memory : MemoryUserIPs} {cases_ : LowerCase}
    (valid : validateUserIPQuery q = .ok ()) (last : Option UserIPRecord)
    (dated : ∀ r ∈ last, 0 < r.last) :
    memory.userIPHistory retention cases_ (q.at_ (last.map UserIPRecord.cursor)) =
      .ok (memory.userIPs.pageBehind retention q (MemoryUserIPs.contains cases_ q.search) last) := by
  have rows : (memory.userIPs.rows.filter fun r => !(r.username ≠ q.username ||
      decide (r.last < max q.fromSecs (userIPCutoff retention q.now)))) =
      memory.userIPs.ranged retention q := by
    apply List.filter_congr
    intro r _
    rw [Bool.eq_iff_iff]
    simp
  have items : ((memory.userIPs.ranged retention q).filter
      (q.wants (MemoryUserIPs.contains cases_ q.search))).filter
        (behind UserIPRecord.pageOrder last) =
      ((memory.userIPs.ranged retention q).filter
        (q.wants (MemoryUserIPs.contains cases_ q.search))).filter fun r => !((q.at_ (last.map UserIPRecord.cursor)).before ≠ 0 &&
          (decide (r.last > (q.at_ (last.map UserIPRecord.cursor)).before) ||
            r.last = (q.at_ (last.map UserIPRecord.cursor)).before &&
              decide (r.ip ≤ (q.at_ (last.map UserIPRecord.cursor)).afterIP))) := by
    apply List.filter_congr
    intro r _
    rw [not_excluded_iff, behind_pageOrder last dated]
  unfold MemoryUserIPs.userIPHistory
  rw [validate_at valid dated]
  unfold UserIPTable.pageBehind UserIPTable.listed
  rw [Sorter.filter_stable_sort, items, ← rows]
  rfl

/-- The durable history cuts its pages behind the cursor. -/
theorem SQLiteUserIPs.userIPHistoryPage_at {db : SQLiteUserIPs} {cases_ : LowerCase}
    (valid : validateUserIPQuery q = .ok ()) (last : Option UserIPRecord)
    (dated : ∀ r ∈ last, 0 < r.last) :
    db.userIPHistoryPage retention cases_ (q.at_ (last.map UserIPRecord.cursor)) =
      .ok (db.userIPHistory.pageBehind retention q
        (SQLiteUserIPs.matchesSearch cases_ q.search) last) := by
  have one := one_le_limit valid
  have oneMore : (q.limit + 1).toNat = q.limit.toNat + 1 := by omega
  have items : ((db.userIPHistory.ranged retention q).filter
      (q.wants (SQLiteUserIPs.matchesSearch cases_ q.search))).filter
        (behind UserIPRecord.pageOrder last) =
      ((db.userIPHistory.ranged retention q).filter
        (q.wants (SQLiteUserIPs.matchesSearch cases_ q.search))).filter fun r =>
          (q.at_ (last.map UserIPRecord.cursor)).before = 0 ||
            (decide (r.last < (q.at_ (last.map UserIPRecord.cursor)).before) ||
              r.last = (q.at_ (last.map UserIPRecord.cursor)).before &&
                decide (r.ip > (q.at_ (last.map UserIPRecord.cursor)).afterIP)) := by
    apply List.filter_congr
    intro r _
    exact behind_pageOrder last dated r
  unfold SQLiteUserIPs.userIPHistoryPage
  rw [validate_at valid dated]
  unfold UserIPTable.pageBehind UserIPTable.listed
  rw [Sorter.filter_stable_sort, items]
  refine congrArg Except.ok ?_
  simp only [UserIPPage.mk.injEq]
  refine ⟨?_, rfl, rfl, rfl, ?_⟩
  · change ((List.take (q.limit + 1).toNat _).take q.limit.toNat) = _
    rw [oneMore, List.take_take, min_eq_left (Nat.le_succ _)]
    rfl
  · change decide (q.limit.toNat < (List.take (q.limit + 1).toNat _).length) = _
    rw [oneMore, List.length_take]
    apply decide_eq_decide.mpr
    rw [lt_min_iff]
    exact and_iff_right (Nat.lt_succ_self _)

/-- The pages of a process-local history with dated records. -/
theorem MemoryUserIPs.pages_of_dated {memory : MemoryUserIPs} (dated : memory.userIPs.Dated)
    (cases_ : LowerCase) (valid : validateUserIPQuery q = .ok ()) {rounds : ℕ}
    (enough : memory.userIPs.rows.length < rounds) :
    UserIPPages memory.userIPs retention q (MemoryUserIPs.contains cases_ q.search)
      (followPages (fun _ cursor => memory.userIPHistory retention cases_ (q.at_ cursor))
        userIPItems userIPMore UserIPRecord.cursor rounds 0 none) := by
  refine pages_of_pageBehind dated valid (fun last lastDated => ?_) enough
  exact MemoryUserIPs.userIPHistory_at valid last lastDated

/-- The pages of a durable history with dated records. -/
theorem SQLiteUserIPs.pages_of_dated {db : SQLiteUserIPs} (dated : db.userIPHistory.Dated)
    (cases_ : LowerCase) (valid : validateUserIPQuery q = .ok ()) {rounds : ℕ}
    (enough : db.userIPHistory.rows.length < rounds) :
    UserIPPages db.userIPHistory retention q (SQLiteUserIPs.matchesSearch cases_ q.search)
      (followPages (fun _ cursor => db.userIPHistoryPage retention cases_ (q.at_ cursor))
        userIPItems userIPMore UserIPRecord.cursor rounds 0 none) := by
  refine pages_of_pageBehind dated valid (fun last lastDated => ?_) enough
  exact SQLiteUserIPs.userIPHistoryPage_at valid last lastDated

end Pages

section Dates

variable {ips : UserIPTable}

/-- Rows are looked up under the keys of dated records. -/
theorem dated_iff : ips.Dated ↔
    ∀ (key : UserIPKey) (r : UserIPRecord), ips[key]? = some r → r.key = key ∧ 0 < r.last := by
  constructor
  · intro dated key r found
    have carried := dated.keyed key r found
    exact ⟨carried, dated.dated r (dated.keyed.mem_rows.mpr (by rwa [carried]))⟩
  · intro sound
    have keyed : HoldsKeys ips := fun key r found => (sound key r found).1
    exact ⟨keyed, fun r mem => (sound _ r (keyed.mem_rows.mp mem)).2⟩

theorem dated_empty : (∅ : UserIPTable).Dated := by
  rw [dated_iff]
  intro key r found
  simp at found

theorem UserIPTable.Dated.filter (dated : ips.Dated) (keep : UserIPKey → UserIPRecord → Bool) :
    UserIPTable.Dated (ips.filter keep) :=
  ⟨dated.keyed.filter keep, fun r mem => dated.dated r ((dated.keyed.mem_rows_filter keep).mp mem).1⟩

theorem UserIPTable.Dated.deleteRows (dated : ips.Dated) (excess : List UserIPRecord) :
    UserIPTable.Dated (SQLiteUserIPs.deleteRows ips excess) :=
  ⟨holdsKeys_deleteRows dated.keyed excess, fun r mem =>
    dated.dated r ((Table.Keyed.mem_rows_eraseAll dated.keyed _).mp mem).1⟩

theorem UserIPTable.Dated.insert (dated : ips.Dated) {key : UserIPKey} {r : UserIPRecord}
    (carried : r.key = key) (positive : 0 < r.last) : UserIPTable.Dated (ips.insert key r) := by
  rw [dated_iff] at dated ⊢
  intro other row found
  rw [Table.lookup_insert] at found
  split at found
  · rename_i same
    cases found
    exact ⟨carried.trans same, positive⟩
  · exact dated other row found

theorem UserIPTable.Dated.expire (dated : ips.Dated) (cutoff : ℤ) :
    UserIPTable.Dated (expireUserIPs cutoff ips) :=
  dated.filter _

theorem key_merge {ips : UserIPTable} (dated : ips.Dated) (r : UserIPRecord) :
    (mergeUserIPRecord ips[r.key]? r).key = r.key ∧
      r.last ≤ (mergeUserIPRecord ips[r.key]? r).last := by
  cases found : ips[r.key]? with
  | none => exact ⟨rfl, le_rfl⟩
  | some old =>
      rw [mergeUserIPRecord]
      split
      · exact ⟨rfl, le_rfl⟩
      · refine ⟨(dated_iff.mp dated _ _ found).1, ?_⟩
        dsimp only
        split <;> omega

theorem UserIPTable.Dated.mergeRecords {records : List UserIPRecord} (dated : ips.Dated)
    (valid : ∀ r ∈ records, r.Valid) : (MemoryUserIPs.mergeRecords ips records).Dated := by
  induction records generalizing ips with
  | nil => exact dated
  | cons r records ih =>
      rcases List.forall_mem_cons.mp valid with ⟨first, rest⟩
      have merged := key_merge dated r
      have positive := first.first
      have ordered := first.last
      exact ih (dated.insert merged.1 (by omega)) rest

theorem UserIPTable.Dated.upsertRow {r : UserIPRecord} (dated : ips.Dated) (positive : 0 < r.last) :
    (SQLiteUserIPs.upsertRow ips r).Dated := by
  unfold SQLiteUserIPs.upsertRow
  cases found : ips[r.key]? with
  | none => exact dated.insert rfl positive
  | some row =>
      have stored := dated_iff.mp dated _ _ found
      exact dated.insert stored.1 (lt_max_of_lt_left stored.2)

theorem UserIPTable.Dated.upsertRows {records : List UserIPRecord} (dated : ips.Dated)
    (valid : ∀ r ∈ records, r.Valid) :
    UserIPTable.Dated (records.foldl SQLiteUserIPs.upsertRow ips) := by
  induction records generalizing ips with
  | nil => exact dated
  | cons r records ih =>
      rcases List.forall_mem_cons.mp valid with ⟨first, rest⟩
      have positive := first.first
      have ordered := first.last
      exact ih (dated.upsertRow (by omega)) rest

theorem UserIPTable.Dated.trimUsers {limit : ℕ} {users : List String} {flag : Bool}
    (dated : ips.Dated) :
    UserIPTable.Dated (users.foldl (SQLiteUserIPs.trimUser limit) (ips, flag)).1 := by
  induction users generalizing ips flag with
  | nil => exact dated
  | cons user users ih => exact ih (dated.deleteRows _)

end Dates

section Runs

variable {retention : ℤ} {total : ℕ}

theorem MemoryUserIPs.dated_pruneUserIPs {memory : MemoryUserIPs} {limit : ℕ} {now : ℤ}
    (dated : memory.userIPs.Dated) :
    (memory.pruneUserIPs retention limit total now).userIPs.Dated := by
  simp only [MemoryUserIPs.pruneUserIPs, (foldl_pruneRecord _ _).1]
  exact (dated.expire _).deleteRows _

/-- Every call keeps the process-local history dated. -/
theorem MemoryUserIPStore.dated_answer {store : MemoryUserIPStore}
    (dated : store.ips.userIPs.Dated) (call : UserIPCall) :
    (store.answer retention total call).2.ips.userIPs.Dated := by
  cases call with
  | applyUserIPBatch batch =>
      simp only [MemoryUserIPStore.answer, MemoryUserIPs.applyUserIPBatch]
      cases checked : validateUserIPBatch batch with
      | error refusal => exact dated
      | ok _ =>
          dsimp only
          split
          · exact dated
          · rename_i ips applied
            split at applied
            · cases applied
              exact dated
            split at applied
            · cases applied
            cases applied
            apply MemoryUserIPs.dated_pruneUserIPs
            exact (dated.expire _).mergeRecords (validateUserIPBatch_ok_iff.mp checked).records
  | pruneUserIPHistory now => exact dated.filter _
  | resetUserIPHistory username => exact dated.filter _
  | changeUserIPLimit limit now =>
      simp only [MemoryUserIPStore.answer]
      split
      · simp only [MemoryUserIPs.applyUserIPPolicy]
        split
        · exact dated
        · exact MemoryUserIPs.dated_pruneUserIPs dated
      · exact dated

/-- Every call keeps the durable history dated. -/
theorem SQLiteUserIPStore.dated_answer {store : SQLiteUserIPStore}
    (dated : store.ips.userIPHistory.Dated) (call : UserIPCall) :
    (store.answer retention total call).2.ips.userIPHistory.Dated := by
  cases call with
  | applyUserIPBatch batch =>
      simp only [SQLiteUserIPStore.answer, SQLiteUserIPs.applyUserIPBatch]
      cases checked : validateUserIPBatch batch with
      | error refusal => exact dated
      | ok _ =>
          have merged := ((dated.expire (userIPCutoff retention batch.through)).upsertRows
            (validateUserIPBatch_ok_iff.mp checked).records).expire
              (userIPCutoff retention batch.through)
          dsimp only
          split
          · exact dated
          · rename_i ips applied
            split at applied
            · cases applied
              exact dated
            generalize (if store.limit = 0 then [] else
              (batch.records.map (·.username)).dedup) = users at applied
            split at applied
            · cases applied
            split at applied
            · cases applied
              exact merged.trimUsers.deleteRows _
            · cases applied
              exact merged.trimUsers
  | pruneUserIPHistory now => exact dated.filter _
  | resetUserIPHistory username =>
      simp only [SQLiteUserIPStore.answer, SQLiteUserIPs.resetUserIPHistory]
      split
      · exact dated.filter _
      · exact dated_empty
  | changeUserIPLimit limit now =>
      simp only [SQLiteUserIPStore.answer]
      split
      · simp only [SQLiteUserIPs.applyUserIPPolicy, SQLiteUserIPs.pruneUserIPPolicyTx]
        split
        · exact dated
        · split
          · exact dated.expire _
          · exact (dated.expire _).deleteRows _
      · exact dated

/-- The process-local store that calls lead to. -/
abbrev MemoryUserIPStore.run (retention : ℤ) (total : ℕ) (policies : ActivePolicies)
    (calls : List UserIPCall) : MemoryUserIPStore :=
  after (fun store call => (MemoryUserIPStore.answer retention total store call).2)
    ⟨policies, .empty⟩ calls

/-- The durable store that calls lead to. -/
abbrev SQLiteUserIPStore.run (retention : ℤ) (total : ℕ) (policies : ActivePolicies)
    (calls : List UserIPCall) : SQLiteUserIPStore :=
  after (fun store call => (SQLiteUserIPStore.answer retention total store call).2)
    ⟨policies, .empty⟩ calls

/-- The process-local histories that calls lead to are dated. -/
theorem MemoryUserIPStore.dated_after (policies : ActivePolicies) (calls : List UserIPCall) :
    (run retention total policies calls).ips.userIPs.Dated :=
  @always_after _ _ (fun store call => (answer retention total store call).2)
    (fun store => store.ips.userIPs.Dated) (fun _ call dated => dated_answer dated call) _ dated_empty
    calls

/-- The durable histories that calls lead to are dated. -/
theorem SQLiteUserIPStore.dated_after (policies : ActivePolicies) (calls : List UserIPCall) :
    (run retention total policies calls).ips.userIPHistory.Dated :=
  @always_after _ _ (fun store call => (answer retention total store call).2)
    (fun store => store.ips.userIPHistory.Dated) (fun _ call dated => dated_answer dated call) _ dated_empty
    calls

variable {q : UserIPQuery} (policies : ActivePolicies) (calls : List UserIPCall)
  (cases_ : LowerCase)

/-- After any calls the pages of the process-local history visit every record once. -/
theorem MemoryUserIPStore.pages_after (valid : validateUserIPQuery q = .ok ()) {rounds : ℕ}
    (enough : (run retention total policies calls).ips.userIPs.rows.length < rounds) :
    UserIPPages (run retention total policies calls).ips.userIPs retention q
      (MemoryUserIPs.contains cases_ q.search)
      (followPages (fun _ cursor =>
          (run retention total policies calls).ips.userIPHistory retention cases_ (q.at_ cursor))
        userIPItems userIPMore UserIPRecord.cursor rounds 0 none) :=
  MemoryUserIPs.pages_of_dated (dated_after policies calls) cases_ valid enough

/-- After any calls the pages of the durable history visit every record once. -/
theorem SQLiteUserIPStore.pages_after (valid : validateUserIPQuery q = .ok ()) {rounds : ℕ}
    (enough : (run retention total policies calls).ips.userIPHistory.rows.length < rounds) :
    UserIPPages (run retention total policies calls).ips.userIPHistory retention q
      (SQLiteUserIPs.matchesSearch cases_ q.search)
      (followPages (fun _ cursor =>
          (run retention total policies calls).ips.userIPHistoryPage retention cases_ (q.at_ cursor))
        userIPItems userIPMore UserIPRecord.cursor rounds 0 none) :=
  SQLiteUserIPs.pages_of_dated (dated_after policies calls) cases_ valid enough

end Runs

end TelemtPanel.Store
