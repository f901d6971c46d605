import TelemtPanel.Library.Run
import TelemtPanel.Store.UserIP.Cap
import TelemtPanel.Store.UserIP.Pages

/-!
# Both user IP histories are one

The process-local and the durable history are run on the same calls with the
same retention and the same total cap.  They accept the same calls and hold the
same records and metadata.  What makes the two ways of capping agree is that
every user is within the cap between calls, so that only the users of a batch
can exceed it.
-/

namespace TelemtPanel.Store

open TelemtPanel.Library

/-- Calls that change the addresses of users. -/
inductive UserIPCall where
  | applyUserIPBatch (batch : UserIPBatch)
  | pruneUserIPHistory (now : ℤ)
  | resetUserIPHistory (username : String)
  | changeUserIPLimit (limit : Option ℤ) (now : ℤ)

inductive UserIPAnswer where
  | done
  | rejected (refusal : UserIPError)
  | policyRejected
deriving DecidableEq, Repr

/-- The active policies with another per-user cap. -/
def withUserIPLimit (policies : ActivePolicies) (limit : Option ℤ) : List StoragePolicy :=
  policies.toList.map fun policy =>
    if policy.category = .userIPHistory then { policy with maxIPsPerUser := limit } else policy

structure MemoryUserIPStore where
  policies : ActivePolicies
  ips : MemoryUserIPs

structure SQLiteUserIPStore where
  policies : ActivePolicies
  ips : SQLiteUserIPs

namespace MemoryUserIPStore

def limit (store : MemoryUserIPStore) : ℕ := userIPLimit (store.policies.get .userIPHistory)

def answer (retention : ℤ) (total : ℕ) (store : MemoryUserIPStore) :
    UserIPCall → UserIPAnswer × MemoryUserIPStore
  | .applyUserIPBatch batch =>
      match store.ips.applyUserIPBatch retention store.limit total batch with
      | .error refusal => (.rejected refusal, store)
      | .ok ips => (.done, { store with ips := ips })
  | .pruneUserIPHistory now =>
      (.done, { store with ips := store.ips.pruneUserIPHistory retention now })
  | .resetUserIPHistory username =>
      (.done, { store with ips := store.ips.resetUserIPHistory username })
  | .changeUserIPLimit limit now =>
      if validated : validateStoragePolicies (withUserIPLimit store.policies limit) = .ok () then
        let next := ActivePolicies.ofList _ validated
        (.done, ⟨next, store.ips.applyUserIPPolicy retention total
          (store.policies.get .userIPHistory) (next.get .userIPHistory) now⟩)
      else (.policyRejected, store)

end MemoryUserIPStore

namespace SQLiteUserIPStore

def limit (store : SQLiteUserIPStore) : ℕ := userIPLimit (store.policies.get .userIPHistory)

def answer (retention : ℤ) (total : ℕ) (store : SQLiteUserIPStore) :
    UserIPCall → UserIPAnswer × SQLiteUserIPStore
  | .applyUserIPBatch batch =>
      match store.ips.applyUserIPBatch retention store.limit total batch with
      | .error refusal => (.rejected refusal, store)
      | .ok ips => (.done, { store with ips := ips })
  | .pruneUserIPHistory now =>
      (.done, { store with ips := store.ips.pruneUserIPHistory retention now })
  | .resetUserIPHistory username =>
      (.done, { store with ips := store.ips.resetUserIPHistory username })
  | .changeUserIPLimit limit now =>
      if validated : validateStoragePolicies (withUserIPLimit store.policies limit) = .ok () then
        let next := ActivePolicies.ofList _ validated
        (.done, ⟨next, store.ips.applyUserIPPolicy retention
          (store.policies.get .userIPHistory) (next.get .userIPHistory) now⟩)
      else (.policyRejected, store)

end SQLiteUserIPStore

open UserIPTable

/-- What holds of every stored record. -/
structure UserIPRecord.Stored (r : UserIPRecord) : Prop where
  plain : ∀ c ∈ r.ip.toList, Addr.plain c = true
  observed : 1 ≤ r.observations

/-- The records of a table are within the caps. -/
structure UserIPTable.Within (limit total : ℕ) (ips : UserIPTable) : Prop where
  ofUser : 0 < limit → ∀ username, (ofUser ips username).length ≤ limit
  all : ips.rows.length ≤ total

/-- Every record is stored under its key and is sound. -/
structure UserIPTable.Sound (ips : UserIPTable) : Prop where
  keyed : HoldsKeys ips
  stored : ∀ r ∈ ips.rows, r.Stored

/-- Both histories hold the same, within the caps. -/
structure SameUserIPs (limit total : ℕ) (memory : MemoryUserIPs) (db : SQLiteUserIPs) : Prop where
  records : db.userIPHistory = memory.userIPs
  collection : db.readUserIPCollection = memory.userIPCollection
  epoch : db.userIPEpoch = memory.userIPEpoch
  sound : Sound memory.userIPs
  within : Within limit total memory.userIPs
  row : ∀ r ∈ db.userIPHistory.rows, db.collectionRow.isSome = true

section Tables

variable {ips : UserIPTable} {limit total : ℕ}

theorem sound_filter (sound : Sound ips) (keep : UserIPKey → UserIPRecord → Bool) :
    Sound (ips.filter keep) :=
  ⟨sound.keyed.filter keep, fun r mem =>
    sound.stored r ((sound.keyed.mem_rows_filter keep).mp mem).1⟩

theorem sound_insert (sound : Sound ips) {key : UserIPKey} {r : UserIPRecord}
    (carried : r.key = key) (stored : r.Stored) : Sound (ips.insert key r) := by
  have keyed : HoldsKeys (ips.insert key r) := Table.Keyed.insert sound.keyed carried
  refine ⟨keyed, fun other mem => ?_⟩
  rw [keyed.mem_rows, Table.lookup_insert] at mem
  split at mem
  · cases mem
    exact stored
  · exact sound.stored other (sound.keyed.mem_rows.mpr mem)

/-- Fewer records of each user are within the same caps. -/
theorem within_of_subset {smaller : UserIPTable} (keyedSmaller : HoldsKeys smaller)
    (within : Within limit total ips) (subset : ∀ r ∈ smaller.rows, r ∈ ips.rows) :
    Within limit total smaller := by
  constructor
  · intro limited username
    have part : ofUser smaller username ⊆ ofUser ips username := by
      intro r mem
      rcases mem_ofUser.mp mem with ⟨here, isUser⟩
      exact mem_ofUser.mpr ⟨subset r here, isUser⟩
    exact (List.subperm_of_subset ((nodup_newestFirst keyedSmaller).filter _) part).length_le.trans
      (within.ofUser limited username)
  · rw [← length_newestFirst]
    have part : newestFirst smaller ⊆ newestFirst ips := fun r mem =>
      mem_newestFirst.mpr (subset r (mem_newestFirst.mp mem))
    exact (List.subperm_of_subset (nodup_newestFirst keyedSmaller) part).length_le.trans
      ((length_newestFirst ips).trans_le within.all)

/-- The capped records are within the caps. -/
theorem within_of_newestFirst {capsOf : UserIPTable}
    (same : newestFirst ips = capped limit total capsOf) : Within limit total ips := by
  constructor
  · intro limited username
    rw [ofUser, same, capped]
    refine ((List.take_sublist _ _).filter _).length_le.trans ?_
    exact length_filter_capGroups_le limited _ username
  · rw [← length_newestFirst, same]
    exact List.length_take_le _ _

/-- Merging a sound record with a sound one. -/
theorem stored_mergeUserIPRecord {old : Option UserIPRecord} {next : UserIPRecord}
    (stored : ∀ r ∈ old, r.Stored ∧ r.key = next.key) (nextStored : next.Stored) :
    (mergeUserIPRecord old next).Stored ∧ (mergeUserIPRecord old next).key = next.key := by
  cases old with
  | none => exact ⟨nextStored, rfl⟩
  | some old =>
      rcases stored old rfl with ⟨⟨plain, observed⟩, sameKey⟩
      have nextObserved := nextStored.observed
      rw [mergeUserIPRecord, if_neg (by omega)]
      refine ⟨⟨plain, ?_⟩, sameKey⟩
      dsimp only
      split
      · decide
      · omega

/-- Both backends merge a record alike. -/
theorem upsertRow_eq {r : UserIPRecord} (sound : Sound ips) :
    SQLiteUserIPs.upsertRow ips r = ips.insert r.key (mergeUserIPRecord ips[r.key]? r) := by
  unfold SQLiteUserIPs.upsertRow
  cases found : ips[r.key]? with
  | none => rfl
  | some row =>
      have carried := sound.keyed _ _ found
      have observed := (sound.stored row (sound.keyed.mem_rows.mpr (by rwa [carried]))).observed
      rw [mergeUserIPRecord, if_neg (by omega)]
      have last : max row.last r.last = if row.last ≤ r.last then r.last else row.last := by
        split <;> omega
      dsimp only
      rw [last]

theorem sound_merge {r : UserIPRecord} (sound : Sound ips) (stored : r.Stored) :
    Sound (ips.insert r.key (mergeUserIPRecord ips[r.key]? r)) := by
  have merged := @stored_mergeUserIPRecord ips[r.key]? r (by
    intro old found
    have carried := sound.keyed _ _ found
    exact ⟨sound.stored old (sound.keyed.mem_rows.mpr (by rwa [carried])), carried⟩) stored
  exact sound_insert sound merged.2 merged.1

/-- Both backends merge the records of a batch alike. -/
theorem foldl_upsertRow {records : List UserIPRecord} (sound : Sound ips)
    (stored : ∀ r ∈ records, r.Stored) :
    records.foldl SQLiteUserIPs.upsertRow ips = MemoryUserIPs.mergeRecords ips records ∧
      Sound (MemoryUserIPs.mergeRecords ips records) := by
  induction records generalizing ips with
  | nil => exact ⟨rfl, sound⟩
  | cons r records ih =>
      rcases List.forall_mem_cons.mp stored with ⟨first, rest⟩
      have next := sound_merge sound first
      rw [List.foldl_cons, upsertRow_eq sound]
      exact ih next rest

/-- Users outside a batch keep their records. -/
theorem lookup_mergeRecords_of_notMem {records : List UserIPRecord} {key : UserIPKey}
    (absent : key.username ∉ records.map (·.username)) :
    (MemoryUserIPs.mergeRecords ips records)[key]? = ips[key]? := by
  induction records generalizing ips with
  | nil => rfl
  | cons r records ih =>
      rw [List.map_cons, List.mem_cons, not_or] at absent
      have other : r.key ≠ key := by
        rintro rfl
        exact absent.1 rfl
      have step : MemoryUserIPs.mergeRecords ips (r :: records) =
          MemoryUserIPs.mergeRecords (ips.insert r.key (mergeUserIPRecord ips[r.key]? r))
            records := rfl
      rw [step, ih absent.2, Table.lookup_insert, if_neg other]

/-- Trimming a set of users that contains every user beyond the cap. -/
theorem trimUsers_eq (keyed : HoldsKeys ips) (users : List String) (flag : Bool)
    (covers : 0 < limit → ∀ user, user ∉ users → (ofUser ips user).length ≤ limit) :
    let trimmed := (if limit = 0 then [] else users).foldl (SQLiteUserIPs.trimUser limit)
      (ips, flag)
    HoldsKeys trimmed.1 ∧
      newestFirst trimmed.1 = capGroups (·.username) limit (fun _ => 0) (newestFirst ips) ∧
      (trimmed.2 = true ↔ flag = true ∨
        capGroups (·.username) limit (fun _ => 0) (newestFirst ips) ≠ newestFirst ips) := by
  rcases Nat.eq_zero_or_pos limit with unlimited | limited
  · subst unlimited
    rw [capGroups_of_unlimited rfl]
    exact ⟨keyed, rfl, by simp⟩
  · rw [if_neg limited.ne']
    intro trimmed
    rcases foldl_trimUser users keyed flag with ⟨trimmedKeyed, ofTrimmed, flagged⟩
    have every : ∀ user, ofUser trimmed.1 user = (ofUser ips user).take limit := by
      intro user
      refine (ofTrimmed user).trans ?_
      split
      · rfl
      · rename_i absent
        rw [List.take_of_length_le (covers limited user absent)]
    have order := newestFirst_of_ofUser keyed trimmedKeyed limited every
    refine ⟨trimmedKeyed, order, flagged.trans (or_congr_right ?_)⟩
    rw [← order]
    constructor
    · rintro ⟨user, mem, beyond⟩ same
      have length : (ofUser ips user).length = ((ofUser ips user).take limit).length := by
        rw [← every, ofUser, ofUser, same]
      rw [List.length_take] at length
      omega
    · intro differ
      by_contra none_
      apply differ
      have sameUser : ∀ user, ofUser trimmed.1 user = ofUser ips user := by
        intro user
        rw [every, List.take_of_length_le]
        by_cases mem : user ∈ users
        · by_contra beyond
          exact none_ ⟨user, mem, not_le.mp beyond⟩
        · exact covers limited user mem
      rw [eq_of_newestFirst trimmedKeyed keyed]
      apply newestFirst_eq trimmedKeyed (pairwise_newestFirst keyed)
      intro r
      have mem_iff : r ∈ ofUser trimmed.1 r.username ↔ r ∈ ofUser ips r.username := by
        rw [sameUser]
      simp only [mem_ofUser, and_true] at mem_iff
      exact mem_newestFirst.trans mem_iff.symm

/-- The statement of a policy change trims every user. -/
theorem deleteRows_excessOfUsers (keyed : HoldsKeys ips) (limited : 0 < limit) :
    let excess := SQLiteUserIPs.excessOfUsers limit ips
    newestFirst (SQLiteUserIPs.deleteRows ips excess) =
        capGroups (·.username) limit (fun _ => 0) (newestFirst ips) ∧
      (0 < excess.length ↔
        capGroups (·.username) limit (fun _ => 0) (newestFirst ips) ≠ newestFirst ips) := by
  intro excess
  have member : ∀ r, r ∈ excess ↔ r ∈ SQLiteUserIPs.excessOfUser limit ips r.username := by
    intro r
    simp only [excess, SQLiteUserIPs.excessOfUsers, List.mem_flatMap, List.mem_dedup,
      List.mem_map]
    constructor
    · rintro ⟨user, -, mem⟩
      have isUser := mem
      rw [excessOfUser_eq keyed] at isUser
      rwa [(mem_ofUser.mp (List.mem_of_mem_drop isUser)).2]
    · intro mem
      exact ⟨r.username, ⟨r, mem_rows_of_mem_excessOfUser keyed mem, rfl⟩, mem⟩
  have present : ∀ r ∈ excess, r ∈ ips.rows := fun r mem =>
    mem_rows_of_mem_excessOfUser keyed ((member r).mp mem)
  have keyedLeft := holdsKeys_deleteRows keyed excess
  have order : newestFirst (SQLiteUserIPs.deleteRows ips excess) =
      capGroups (·.username) limit (fun _ => 0) (newestFirst ips) := by
    apply newestFirst_of_ofUser keyed keyedLeft limited
    intro user
    apply ofUser_eq keyedLeft ((pairwise_ofUser keyed user).sublist (List.take_sublist _ _))
    intro r
    rw [mem_take_ofUser_iff keyed, mem_rows_deleteRows keyed present, member, mem_ofUser]
    constructor
    · rintro ⟨⟨mem, rfl⟩, included⟩
      exact ⟨⟨mem, included⟩, rfl⟩
    · rintro ⟨⟨mem, included⟩, rfl⟩
      exact ⟨⟨mem, rfl⟩, included⟩
  refine ⟨order, ?_⟩
  rw [← order]
  constructor
  · intro some_ same
    rcases List.exists_mem_of_length_pos some_ with ⟨r, mem⟩
    have left : r ∈ (SQLiteUserIPs.deleteRows ips excess).rows := by
      rw [← mem_newestFirst, same]
      exact mem_newestFirst.mpr (present r mem)
    exact ((mem_rows_deleteRows keyed present).mp left).2 mem
  · intro differ
    by_contra none_
    have empty : excess = [] := List.length_eq_zero_iff.mp (by omega)
    rw [empty] at differ
    exact differ rfl

end Tables

namespace SameUserIPs

variable {retention : ℤ} {limit total : ℕ} {memory : MemoryUserIPs} {db : SQLiteUserIPs}

/-- Records that expire go from both histories. -/
theorem expire (same : SameUserIPs limit total memory db) (cutoff : ℤ) :
    SameUserIPs limit total { memory with userIPs := expireUserIPs cutoff memory.userIPs }
      { db with userIPHistory := expireUserIPs cutoff db.userIPHistory } := by
  have sound := sound_filter same.sound fun _ r => !decide (r.last < cutoff)
  have subset : ∀ r ∈ Table.rows (expireUserIPs cutoff memory.userIPs), r ∈ memory.userIPs.rows :=
    fun r mem => ((same.sound.keyed.mem_rows_filter _).mp mem).1
  refine ⟨by rw [same.records], same.collection, same.epoch, sound,
    within_of_subset sound.keyed same.within subset, ?_⟩
  intro r mem
  rw [same.records] at mem
  exact same.row r (by rw [same.records]; exact subset r mem)

/-- A batch is applied or refused by both. -/
theorem applyUserIPBatch (same : SameUserIPs limit total memory db) (b : UserIPBatch) :
    (∃ refusal, memory.applyUserIPBatch retention limit total b = .error refusal ∧
        db.applyUserIPBatch retention limit total b = .error refusal) ∨
      ∃ memory' db', memory.applyUserIPBatch retention limit total b = .ok memory' ∧
        db.applyUserIPBatch retention limit total b = .ok db' ∧
        SameUserIPs limit total memory' db' := by
  unfold MemoryUserIPs.applyUserIPBatch SQLiteUserIPs.applyUserIPBatch
  rw [same.collection]
  cases checked : validateUserIPBatch b with
  | error refusal => exact .inl ⟨refusal, rfl, rfl⟩
  | ok _ =>
      dsimp only
      split
      · exact .inr ⟨memory, db, rfl, rfl, same⟩
      split
      · exact .inl ⟨.staleBatch, rfl, rfl⟩
      right
      have valid := validateUserIPBatch_ok_iff.mp checked
      set cutoff := userIPCutoff retention b.through
      set expired := expireUserIPs cutoff memory.userIPs with expiredEq
      set collection := nextUserIPCollection memory.userIPCollection b
      have soundExpired : Sound expired := sound_filter same.sound _
      have stored : ∀ r ∈ b.records, r.Stored := fun r mem =>
        ⟨fun c => (valid.records r mem).plain_of_mem_ip, (valid.records r mem).observations⟩
      rcases foldl_upsertRow soundExpired stored with ⟨mergedAlike, soundMerged⟩
      rw [same.records, ← expiredEq, mergedAlike]
      set merged := MemoryUserIPs.mergeRecords expired b.records with mergedEq
      set rows := expireUserIPs cutoff merged with rowsEq
      have soundRows : Sound rows := sound_filter soundMerged _
      -- Users outside the batch hold no more than before.
      have covers : 0 < limit → ∀ user, user ∉ (b.records.map (·.username)).dedup →
          (ofUser rows user).length ≤ limit := by
        intro limited user absent
        rw [List.mem_dedup] at absent
        refine (List.subperm_of_subset ((nodup_newestFirst soundRows.keyed).filter _)
          fun r mem => ?_).length_le.trans (same.within.ofUser limited user)
        rcases mem_ofUser.mp mem with ⟨inRows, isUser⟩
        have inMerged := ((soundMerged.keyed.mem_rows_filter _).mp inRows).1
        rw [soundMerged.keyed.mem_rows, mergedEq, lookup_mergeRecords_of_notMem
          (by rw [← isUser] at absent; exact absent), ← soundExpired.keyed.mem_rows] at inMerged
        exact mem_ofUser.mpr ⟨((same.sound.keyed.mem_rows_filter _).mp inMerged).1, isUser⟩
      set users := (b.records.map (·.username)).dedup
      rcases trimUsers_eq soundRows.keyed users collection.limited covers with
        ⟨trimmedKeyed, trimmedOrder, trimmedFlag⟩
      have trimmedSound : Sound ((if limit = 0 then [] else users).foldl
          (SQLiteUserIPs.trimUser limit) (rows, collection.limited)).1 := by
        refine ⟨trimmedKeyed, fun r mem => soundRows.stored r ?_⟩
        rw [← mem_newestFirst, trimmedOrder] at mem
        exact mem_newestFirst.mp ((capGroups_sublist _).subset mem)
      set trimmed := (if limit = 0 then [] else users).foldl (SQLiteUserIPs.trimUser limit)
        (rows, collection.limited) with trimmedEq
      set kept := MemoryUserIPs.pruneUserIPs retention limit total
        { memory with userIPs := merged, userIPCollection := collection } b.through with keptEq
      have keptOrder : newestFirst kept.userIPs = capped limit total rows :=
        newestFirst_pruneUserIPs soundMerged.keyed
      have keptKeyed : HoldsKeys kept.userIPs := holdsKeys_pruneUserIPs soundMerged.keyed
      have keptFlag : kept.userIPCollection = { collection with
          limited := collection.limited || decide (capped limit total rows ≠ newestFirst rows) } :=
        limited_pruneUserIPs
      have keptSound : Sound kept.userIPs := by
        refine ⟨keptKeyed, fun r mem => soundRows.stored r ?_⟩
        rw [← mem_newestFirst, keptOrder] at mem
        exact mem_newestFirst.mp (((List.take_sublist _ _).trans
          (capGroups_sublist _)).subset mem)
      have length : trimmed.1.rows.length =
          (capGroups (·.username) limit (fun _ => 0) (newestFirst rows)).length := by
        rw [← length_newestFirst, trimmedOrder]
      have cappedEq : capped limit total rows =
          (capGroups (·.username) limit (fun _ => 0) (newestFirst rows)).take total := rfl
      split
      · rename_i beyond
        refine ⟨_, _, rfl, rfl, ?_⟩
        have order := @newestFirst_deleteRows_excessOfAll trimmed.1 total trimmedKeyed
        rw [trimmedOrder, ← cappedEq, ← keptOrder] at order
        have sameRecords := eq_of_newestFirst (holdsKeys_deleteRows trimmedKeyed _) keptKeyed order
        refine ⟨sameRecords, ?_, same.epoch, keptSound, within_of_newestFirst keptOrder,
          fun _ _ => rfl⟩
        rw [keptFlag]
        have dropped : capped limit total rows ≠ newestFirst rows := by
          intro unchanged
          have lengths := congrArg List.length unchanged
          rw [cappedEq, List.length_take] at lengths
          have shorter := (@capGroups_sublist _ _ _ (fun r : UserIPRecord => r.username) limit
            (fun _ => 0) (newestFirst rows)).length_le
          omega
        rw [decide_eq_true dropped, Bool.or_true]
        rfl
      · rename_i within
        refine ⟨_, _, rfl, rfl, ?_⟩
        have unchangedCap : capped limit total rows =
            capGroups (·.username) limit (fun _ => 0) (newestFirst rows) := by
          rw [cappedEq, List.take_of_length_le]
          omega
        have sameRecords := eq_of_newestFirst trimmedKeyed keptKeyed
          (by rw [trimmedOrder, keptOrder, unchangedCap])
        refine ⟨sameRecords, ?_, same.epoch, keptSound, within_of_newestFirst keptOrder,
          fun _ _ => rfl⟩
        rw [keptFlag, unchangedCap]
        have flag : trimmed.2 = (collection.limited || decide
            (capGroups (·.username) limit (fun _ => 0) (newestFirst rows) ≠
              newestFirst rows)) := by
          rw [Bool.eq_iff_iff, trimmedFlag, Bool.or_eq_true, decide_eq_true_eq]
        rw [← flag]
        rfl

/-- A reset forgets the same records. -/
theorem resetUserIPHistory (same : SameUserIPs limit total memory db) (username : String) :
    SameUserIPs limit total (memory.resetUserIPHistory username)
      (db.resetUserIPHistory username) := by
  have sound := sound_filter same.sound fun key _ =>
    !(username = "" || key.username = username)
  have subset : ∀ r ∈ Table.rows (memory.userIPs.filter fun key _ =>
      !(username = "" || key.username = username)), r ∈ memory.userIPs.rows :=
    fun r mem => ((same.sound.keyed.mem_rows_filter _).mp mem).1
  have within := within_of_subset sound.keyed same.within subset
  by_cases all : username = ""
  · subst all
    have nothing : (∅ : UserIPTable) = memory.userIPs.filter fun key _ =>
        !("" = "" || key.username = "") := by
      apply Table.ext
      intro key
      rw [Table.lookup_filter]
      simp
    have forgotten : db.resetUserIPHistory "" =
        { userIPHistory := ∅
          collectionRow := db.collectionRow.map fun c =>
            { c with since := 0, limited := false, gap := false }
          userIPEpoch := db.userIPEpoch + 1 } := by
      simp [SQLiteUserIPs.resetUserIPHistory]
    rw [forgotten]
    refine ⟨nothing, ?_, congrArg (· + 1) same.epoch, sound, within, ?_⟩
    · have collection := same.collection
      unfold SQLiteUserIPs.readUserIPCollection at collection ⊢
      simp only [MemoryUserIPs.resetUserIPHistory, ↓reduceIte, ← collection]
      cases db.collectionRow with
      | none => rfl
      | some c => rfl
    · intro r mem
      cases mem
  · have forgotten : db.resetUserIPHistory username =
        { db with
          userIPHistory := db.userIPHistory.filter fun key _ => !decide (key.username = username)
          userIPEpoch := db.userIPEpoch + 1 } := by
      simp [SQLiteUserIPs.resetUserIPHistory, all]
    rw [forgotten]
    refine ⟨?_, ?_, congrArg (· + 1) same.epoch, sound, within, ?_⟩
    · rw [same.records]
      simp [MemoryUserIPs.resetUserIPHistory, all]
    · simp only [MemoryUserIPs.resetUserIPHistory, all, ↓reduceIte]
      exact same.collection
    · intro r mem
      apply same.row r
      rw [same.records] at mem ⊢
      exact ((same.sound.keyed.mem_rows_filter _).mp mem).1

/-- A change of the policy caps both histories alike. -/
theorem applyUserIPPolicy {policy next : StoragePolicy}
    (same : SameUserIPs (userIPLimit policy) total memory db) (now : ℤ) :
    SameUserIPs (userIPLimit next) total
      (memory.applyUserIPPolicy retention total policy next now)
      (db.applyUserIPPolicy retention policy next now) := by
  unfold MemoryUserIPs.applyUserIPPolicy SQLiteUserIPs.applyUserIPPolicy
  split
  · rename_i unchanged
    have sameLimit : userIPLimit next = userIPLimit policy := by
      simp only [storagePoliciesEqual, Bool.and_eq_true, decide_eq_true_eq] at unchanged
      rw [userIPLimit, userIPLimit, unchanged.2]
    rwa [sameLimit]
  · set limit := userIPLimit next
    set cutoff := userIPCutoff retention now
    have expired := same.expire cutoff
    set rows := expireUserIPs cutoff memory.userIPs with rowsEq
    have soundRows : Sound rows := expired.sound
    set kept := memory.pruneUserIPs retention limit total now with keptEq
    have keptOrder : newestFirst kept.userIPs = capped limit total rows :=
      newestFirst_pruneUserIPs same.sound.keyed
    have keptKeyed : HoldsKeys kept.userIPs := holdsKeys_pruneUserIPs same.sound.keyed
    have keptFlag : kept.userIPCollection = { memory.userIPCollection with
        limited := memory.userIPCollection.limited ||
          decide (capped limit total rows ≠ newestFirst rows) } :=
      limited_pruneUserIPs
    have keptSound : Sound kept.userIPs := by
      refine ⟨keptKeyed, fun r mem => soundRows.stored r ?_⟩
      rw [← mem_newestFirst, keptOrder] at mem
      exact mem_newestFirst.mp (((List.take_sublist _ _).trans (capGroups_sublist _)).subset mem)
    have cappedEq : capped limit total rows =
        capGroups (·.username) limit (fun _ => 0) (newestFirst rows) := by
      rw [capped, List.take_of_length_le]
      refine (capGroups_sublist _).length_le.trans ?_
      rw [length_newestFirst]
      exact expired.within.all
    unfold SQLiteUserIPs.pruneUserIPPolicyTx
    rw [same.records, ← rowsEq]
    split
    · rename_i unlimited
      have unchanged : capped limit total rows = newestFirst rows := by
        rw [cappedEq, capGroups_of_unlimited unlimited]
      refine ⟨eq_of_newestFirst soundRows.keyed keptKeyed (by rw [keptOrder, unchanged]), ?_,
        congrArg (· + 1) same.epoch, keptSound, within_of_newestFirst keptOrder, ?_⟩
      · dsimp only
        rw [keptFlag, unchanged, decide_eq_false (by simp), Bool.or_false]
        exact same.collection
      · intro r mem
        exact expired.row r (by rw [expired.records]; exact mem)
    · rename_i limited
      rcases deleteRows_excessOfUsers soundRows.keyed (Nat.pos_of_ne_zero limited) with
        ⟨order, dropped⟩
      refine ⟨eq_of_newestFirst (holdsKeys_deleteRows soundRows.keyed _) keptKeyed
        (by rw [order, keptOrder, cappedEq]), ?_, congrArg (· + 1) same.epoch, keptSound,
        within_of_newestFirst keptOrder, ?_⟩
      · dsimp only
        rw [keptFlag, cappedEq]
        have collection := same.collection
        unfold SQLiteUserIPs.readUserIPCollection at collection ⊢
        rw [← collection]
        dsimp only
        split
        · rename_i some_
          rcases List.exists_mem_of_length_pos some_ with ⟨r, mem⟩
          have present : r ∈ rows.rows := by
            simp only [SQLiteUserIPs.excessOfUsers, List.mem_flatMap] at mem
            rcases mem with ⟨user, -, mem⟩
            exact mem_rows_of_mem_excessOfUser soundRows.keyed mem
          have hasRow := expired.row r (by rw [expired.records]; exact present)
          rcases Option.isSome_iff_exists.mp hasRow with ⟨c, isRow⟩
          dsimp only at isRow
          rw [decide_eq_true (dropped.mp some_), Bool.or_true, isRow]
          rfl
        · rename_i none_
          rw [decide_eq_false fun differ => none_ (dropped.mpr differ), Bool.or_false]
      · intro r mem
        have present := ((mem_rows_deleteRows soundRows.keyed fun r mem => by
          simp only [SQLiteUserIPs.excessOfUsers, List.mem_flatMap] at mem
          rcases mem with ⟨user, -, mem⟩
          exact mem_rows_of_mem_excessOfUser soundRows.keyed mem).mp mem).1
        have hasRow := expired.row r (by rw [expired.records]; exact present)
        dsimp only at hasRow ⊢
        split
        · rwa [Option.isSome_map]
        · exact hasRow

end SameUserIPs

end TelemtPanel.Store
