import TelemtPanel.Store.UserIP.Memory
import TelemtPanel.Store.UserIP.SQLite

/-!
# One cap for both histories

Both backends keep, of the records in the order newest first, at most `limit` of
each user and at most `total` of all.  The process-local store does so in one
pass; the durable one trims users and then the oldest rows.
-/

namespace TelemtPanel.Store

open TelemtPanel.Library

namespace UserIPTable

variable {ips : UserIPTable} {limit total : ℕ}

/-- The records, newest first. -/
def newestFirst (ips : UserIPTable) : List UserIPRecord :=
  (Sorter.stable UserIPRecord.ageDesc).sort ips.rows

/-- The records of a user, newest first. -/
def ofUser (ips : UserIPTable) (username : String) : List UserIPRecord :=
  (newestFirst ips).filter fun r => r.username = username

/-- The records that remain under the caps. -/
def capped (limit total : ℕ) (ips : UserIPTable) : List UserIPRecord :=
  (capGroups (·.username) limit (fun _ => 0) (newestFirst ips)).take total

/-- Every record is stored under its key. -/
abbrev HoldsKeys (ips : UserIPTable) : Prop := Table.Keyed UserIPRecord.key ips

@[simp]
theorem mem_newestFirst {r : UserIPRecord} : r ∈ newestFirst ips ↔ r ∈ ips.rows :=
  Sorter.mem_sort _

@[simp]
theorem mem_ofUser {r : UserIPRecord} {username : String} :
    r ∈ ofUser ips username ↔ r ∈ ips.rows ∧ r.username = username := by
  simp [ofUser]

theorem length_newestFirst (ips : UserIPTable) : (newestFirst ips).length = ips.rows.length :=
  Sorter.length_sort _ _

theorem pairwise_newestFirst (keyed : HoldsKeys ips) :
    (newestFirst ips).Pairwise fun a b => a.ageDesc < b.ageDesc :=
  Sorter.pairwise_lt_sort _ (UserIPRecord.nodup_map_of_key UserIPRecord.key_of_ageDesc
    keyed.nodup_map_rows)

theorem nodup_newestFirst (keyed : HoldsKeys ips) : (newestFirst ips).Nodup := by
  refine (pairwise_newestFirst keyed).imp ?_
  rintro a b less rfl
  exact lt_irrefl _ less

/-- The order is determined by the records. -/
theorem newestFirst_eq (keyed : HoldsKeys ips) {sorted : List UserIPRecord}
    (ordered : sorted.Pairwise fun a b => a.ageDesc < b.ageDesc)
    (same : ∀ r, r ∈ sorted ↔ r ∈ ips.rows) : newestFirst ips = sorted :=
  Sorter.eq_of_pairwise_lt (pairwise_newestFirst keyed) ordered fun r =>
    mem_newestFirst.trans (same r).symm

/-- Deleting some of the records leaves the others. -/
theorem mem_rows_deleteRows (keyed : HoldsKeys ips) {excess : List UserIPRecord}
    (present : ∀ r ∈ excess, r ∈ ips.rows) {r : UserIPRecord} :
    r ∈ (SQLiteUserIPs.deleteRows ips excess).rows ↔ r ∈ ips.rows ∧ r ∉ excess := by
  rw [SQLiteUserIPs.deleteRows, Table.Keyed.mem_rows_eraseAll keyed]
  refine and_congr_right fun mem => not_congr ?_
  constructor
  · intro keyMem
    rcases List.mem_map.mp keyMem with ⟨other, otherMem, same⟩
    have here := keyed.mem_rows.mp mem
    have there := keyed.mem_rows.mp (present other otherMem)
    rw [same, here] at there
    cases there
    exact otherMem
  · exact List.mem_map_of_mem

theorem holdsKeys_deleteRows (keyed : HoldsKeys ips) (excess : List UserIPRecord) :
    HoldsKeys (SQLiteUserIPs.deleteRows ips excess) :=
  Table.Keyed.eraseAll keyed _

/-- Splitting off a tail of the order and deleting it. -/
theorem newestFirst_deleteRows (keyed : HoldsKeys ips) {kept excess : List UserIPRecord}
    (split : (kept ++ excess).Perm (newestFirst ips)) (sublist : kept.Sublist (newestFirst ips)) :
    newestFirst (SQLiteUserIPs.deleteRows ips excess) = kept := by
  have distinct := split.nodup_iff.mpr (nodup_newestFirst keyed)
  have apart := (List.nodup_append.mp distinct).2.2
  have present : ∀ r ∈ excess, r ∈ ips.rows := fun r mem =>
    mem_newestFirst.mp (split.mem_iff.mp (List.mem_append_right _ mem))
  apply newestFirst_eq (holdsKeys_deleteRows keyed excess)
  · exact (pairwise_newestFirst keyed).sublist sublist
  · intro r
    rw [mem_rows_deleteRows keyed present]
    constructor
    · intro mem
      exact ⟨mem_newestFirst.mp (sublist.subset mem), fun excluded => apart r mem r excluded rfl⟩
    · rintro ⟨mem, included⟩
      rcases List.mem_append.mp (split.mem_iff.mpr (mem_newestFirst.mpr mem)) with here | there
      · exact here
      · exact absurd there included

/-- Tables with the same order are the same. -/
theorem eq_of_newestFirst {other : UserIPTable} (keyed : HoldsKeys ips)
    (keyedOther : HoldsKeys other) (same : newestFirst ips = newestFirst other) : ips = other := by
  apply Table.Keyed.ext keyed keyedOther
  intro r
  rw [← mem_newestFirst, same, mem_newestFirst]

section Memory

/-- The pass drops what is beyond the caps, and records that it did. -/
theorem foldl_pruneRecord (rows : List UserIPRecord) (pass : MemoryUserIPs.Pruning) :
    (rows.foldl (MemoryUserIPs.pruneRecord limit total) pass).userIPs =
        SQLiteUserIPs.deleteRows pass.userIPs
          (dropRest (·.username) limit total pass.counts pass.kept rows) ∧
      (rows.foldl (MemoryUserIPs.pruneRecord limit total) pass).limited =
        (pass.limited || decide
          (0 < (dropRest (·.username) limit total pass.counts pass.kept rows).length)) := by
  induction rows generalizing pass with
  | nil => simp [dropRest, SQLiteUserIPs.deleteRows]
  | cons r rows ih =>
      rw [List.foldl_cons, dropRest]
      rcases ih (MemoryUserIPs.pruneRecord limit total pass r) with ⟨ihIPs, ihLimited⟩
      rw [ihIPs, ihLimited]
      unfold MemoryUserIPs.pruneRecord
      split
      · simp [SQLiteUserIPs.deleteRows]
      · exact ⟨rfl, rfl⟩

/-- What the process-local store keeps. -/
theorem newestFirst_pruneUserIPs {retention now : ℤ} {memory : MemoryUserIPs}
    (keyed : HoldsKeys memory.userIPs) :
    newestFirst (memory.pruneUserIPs retention limit total now).userIPs =
      capped limit total (expireUserIPs (userIPCutoff retention now) memory.userIPs) := by
  have keyedLeft : HoldsKeys (expireUserIPs (userIPCutoff retention now) memory.userIPs) :=
    Table.Keyed.filter keyed _
  simp only [MemoryUserIPs.pruneUserIPs, (foldl_pruneRecord _ _).1]
  rw [capped, ← Nat.sub_zero total, ← keepFirst_eq_take]
  exact newestFirst_deleteRows keyedLeft (keepFirst_append_dropRest _) (keepFirst_sublist _)

theorem holdsKeys_pruneUserIPs {retention now : ℤ} {memory : MemoryUserIPs}
    (keyed : HoldsKeys memory.userIPs) :
    HoldsKeys (memory.pruneUserIPs retention limit total now).userIPs := by
  simp only [MemoryUserIPs.pruneUserIPs, (foldl_pruneRecord _ _).1]
  exact holdsKeys_deleteRows (Table.Keyed.filter keyed _) _

/-- The process-local store records whether it dropped a record. -/
theorem limited_pruneUserIPs {retention now : ℤ} {memory : MemoryUserIPs} :
    (memory.pruneUserIPs retention limit total now).userIPCollection =
      { memory.userIPCollection with
        limited := memory.userIPCollection.limited ||
          decide (capped limit total
            (expireUserIPs (userIPCutoff retention now) memory.userIPs) ≠
              newestFirst (expireUserIPs (userIPCutoff retention now) memory.userIPs)) } := by
  set ips := expireUserIPs (userIPCutoff retention now) memory.userIPs with ipsEq
  have dropped : (0 < (dropRest (·.username) limit total (fun _ => 0) 0
      (newestFirst ips)).length) ↔ capped limit total ips ≠ newestFirst ips := by
    have length := (@keepFirst_append_dropRest _ _ _ (fun r : UserIPRecord => r.username) limit
      total (fun _ => 0) 0 (newestFirst ips)).length_eq
    rw [List.length_append, keepFirst_eq_take, Nat.sub_zero] at length
    have sublist : (capped limit total ips).Sublist (newestFirst ips) :=
      (List.take_sublist _ _).trans (capGroups_sublist _)
    rw [← capped] at length
    constructor
    · intro some_ same
      rw [same] at length
      omega
    · intro differ
      by_contra none_
      exact differ (sublist.eq_of_length (by omega))
  simp only [MemoryUserIPs.pruneUserIPs, (foldl_pruneRecord _ _).2]
  rw [← ipsEq]
  simp only [← dropped]
  rfl

end Memory

section SQLite

/-- The rows of a user are a part of the common order. -/
theorem sort_userAgeDesc (keyed : HoldsKeys ips) (username : String) :
    (Sorter.stable UserIPRecord.userAgeDesc).sort
      (ips.rows.filter fun r => r.username = username) = ofUser ips username := by
  have distinct : ((ips.rows.filter fun r => r.username = username).map
      UserIPRecord.userAgeDesc).Nodup := by
    refine List.pairwise_map.mpr (List.Pairwise.imp_of_mem ?_
      ((List.pairwise_map.mp keyed.nodup_map_rows).filter _))
    intro a b aMem bMem apart same
    simp only [List.mem_filter, decide_eq_true_eq] at aMem bMem
    have sameIP : a.ip = b.ip := congrArg (fun rank => (ofLex (OrderDual.ofDual rank)).2) same
    exact apart (by rw [UserIPRecord.key, UserIPRecord.key, aMem.2, bMem.2, sameIP])
  have ordered : (ofUser ips username).Pairwise fun a b => a.userAgeDesc < b.userAgeDesc := by
    refine List.Pairwise.imp_of_mem ?_
      ((pairwise_newestFirst keyed).sublist (List.filter_sublist (p := fun r : UserIPRecord =>
        r.username = username)))
    intro a b aMem bMem less
    have aUser := (mem_ofUser.mp aMem).2
    have bUser := (mem_ofUser.mp bMem).2
    simp only [UserIPRecord.ageDesc, UserIPRecord.userAgeDesc, OrderDual.toDual_lt_toDual,
      UserIPRecord.age, Prod.Lex.toLex_lt_toLex, UserIPKey.order, UserIPRecord.key, aUser,
      bUser] at less ⊢
    simpa using less
  exact Sorter.sort_eq_of_pairwise_lt _ distinct ordered fun r => by simp

theorem excessOfUser_eq (keyed : HoldsKeys ips) (username : String) :
    SQLiteUserIPs.excessOfUser limit ips username = (ofUser ips username).drop limit := by
  rw [SQLiteUserIPs.excessOfUser, sort_userAgeDesc keyed]

theorem mem_rows_of_mem_excessOfUser (keyed : HoldsKeys ips) {username : String}
    {r : UserIPRecord} (mem : r ∈ SQLiteUserIPs.excessOfUser limit ips username) :
    r ∈ ips.rows := by
  rw [excessOfUser_eq keyed] at mem
  exact (mem_ofUser.mp (List.mem_of_mem_drop mem)).1

/-- A record of a user is either among the first or beyond them. -/
theorem mem_take_ofUser_iff (keyed : HoldsKeys ips) {username : String} {r : UserIPRecord} :
    r ∈ (ofUser ips username).take limit ↔
      r ∈ ofUser ips username ∧ r ∉ SQLiteUserIPs.excessOfUser limit ips username := by
  rw [excessOfUser_eq keyed]
  have distinct : (ofUser ips username).Nodup := (nodup_newestFirst keyed).filter _
  have apart : ∀ other ∈ (ofUser ips username).take limit,
      other ∉ (ofUser ips username).drop limit := by
    have split : ((ofUser ips username).take limit ++ (ofUser ips username).drop limit).Nodup := by
      rwa [List.take_append_drop]
    intro other here there
    exact (List.nodup_append.mp split).2.2 other here other there rfl
  constructor
  · intro mem
    exact ⟨List.mem_of_mem_take mem, apart r mem⟩
  · rintro ⟨mem, included⟩
    rw [← List.take_append_drop limit (ofUser ips username)] at mem
    exact (List.mem_append.mp mem).resolve_right included

theorem pairwise_ofUser (keyed : HoldsKeys ips) (username : String) :
    (ofUser ips username).Pairwise fun a b => a.ageDesc < b.ageDesc :=
  (pairwise_newestFirst keyed).filter _

/-- The records of a user depend on nothing else. -/
theorem ofUser_eq (keyed : HoldsKeys ips) {username : String} {sorted : List UserIPRecord}
    (ordered : sorted.Pairwise fun a b => a.ageDesc < b.ageDesc)
    (same : ∀ r, r ∈ sorted ↔ r ∈ ips.rows ∧ r.username = username) :
    ofUser ips username = sorted :=
  Sorter.eq_of_pairwise_lt (pairwise_ofUser keyed username) ordered fun r =>
    mem_ofUser.trans (same r).symm

/-- Trimming a user keeps the first records of that user and all of the others. -/
theorem ofUser_trimUser (keyed : HoldsKeys ips) (flag : Bool) (username other : String) :
    ofUser (SQLiteUserIPs.trimUser limit (ips, flag) username).1 other =
      if other = username then (ofUser ips other).take limit else ofUser ips other := by
  have member : ∀ r, r ∈ (SQLiteUserIPs.trimUser limit (ips, flag) username).1.rows ↔
      r ∈ ips.rows ∧ r ∉ SQLiteUserIPs.excessOfUser limit ips username := fun r =>
    mem_rows_deleteRows keyed fun r mem => mem_rows_of_mem_excessOfUser keyed mem
  apply ofUser_eq (holdsKeys_deleteRows keyed _)
  · split
    · exact (pairwise_ofUser keyed other).sublist (List.take_sublist _ _)
    · exact pairwise_ofUser keyed other
  · intro r
    refine Iff.trans ?_ (and_congr_left' (member r)).symm
    split
    · rename_i same
      subst same
      rw [mem_take_ofUser_iff keyed, mem_ofUser]
      tauto
    · rename_i differ
      rw [mem_ofUser]
      constructor
      · rintro ⟨mem, isOther⟩
        refine ⟨⟨mem, fun excluded => differ ?_⟩, isOther⟩
        rw [excessOfUser_eq keyed] at excluded
        rw [← isOther, (mem_ofUser.mp (List.mem_of_mem_drop excluded)).2]
      · rintro ⟨⟨mem, -⟩, isOther⟩
        exact ⟨mem, isOther⟩

/-- The loop over users keeps the first records of each of them. -/
theorem foldl_trimUser (users : List String) (keyed : HoldsKeys ips) (flag : Bool) :
    HoldsKeys (users.foldl (SQLiteUserIPs.trimUser limit) (ips, flag)).1 ∧
      (∀ other, ofUser (users.foldl (SQLiteUserIPs.trimUser limit) (ips, flag)).1 other =
        if other ∈ users then (ofUser ips other).take limit else ofUser ips other) ∧
      ((users.foldl (SQLiteUserIPs.trimUser limit) (ips, flag)).2 = true ↔
        flag = true ∨ ∃ user ∈ users, limit < (ofUser ips user).length) := by
  induction users generalizing ips flag with
  | nil => exact ⟨keyed, fun _ => by simp, by simp⟩
  | cons user users ih =>
      set next := SQLiteUserIPs.trimUser limit (ips, flag) user with nextEq
      have keyedNext : HoldsKeys next.1 := holdsKeys_deleteRows keyed _
      have flagNext : next.2 = true ↔ flag = true ∨ limit < (ofUser ips user).length := by
        rw [nextEq, SQLiteUserIPs.trimUser, excessOfUser_eq keyed]
        simp
      rw [List.foldl_cons, ← nextEq]
      rcases ih keyedNext next.2 with ⟨ihKeyed, ihUser, ihFlag⟩
      refine ⟨ihKeyed, fun other => ?_, ?_⟩
      · rw [ihUser other, ofUser_trimUser keyed]
        by_cases here : other = user
        · by_cases later : other ∈ users
          · simp [here, List.take_take]
          · simp [here]
        · simp [here]
      · have length : ∀ other, (ofUser next.1 other).length =
            if other = user then min limit (ofUser ips other).length
            else (ofUser ips other).length := by
          intro other
          rw [ofUser_trimUser keyed]
          split
          · exact List.length_take
          · rfl
        rw [ihFlag, flagNext]
        simp only [length, List.mem_cons]
        constructor
        · rintro ((set_ | above) | ⟨other, mem, above⟩)
          · exact .inl set_
          · exact .inr ⟨user, .inl rfl, above⟩
          · split at above
            · omega
            · exact .inr ⟨other, .inr mem, above⟩
        · rintro (set_ | ⟨other, rfl | mem, above⟩)
          · exact .inl (.inl set_)
          · exact .inl (.inr above)
          · by_cases here : other = user
            · exact .inl (.inr (here ▸ above))
            · exact .inr ⟨other, mem, by rwa [if_neg here]⟩

/-- When every user is within the cap or trimmed, the order is the capped one. -/
theorem newestFirst_of_ofUser {trimmed : UserIPTable} (keyed : HoldsKeys ips)
    (keyedTrimmed : HoldsKeys trimmed) (limited : 0 < limit)
    (users : ∀ user, ofUser trimmed user = (ofUser ips user).take limit) :
    newestFirst trimmed = capGroups (·.username) limit (fun _ => 0) (newestFirst ips) := by
  apply newestFirst_eq keyedTrimmed
  · exact (pairwise_newestFirst keyed).sublist (capGroups_sublist _)
  · intro r
    rw [mem_capGroups_iff limited]
    change r ∈ (ofUser ips r.username).take limit ↔ r ∈ trimmed.rows
    rw [← users, mem_ofUser]
    simp

/-- Deleting the oldest rows keeps the first ones of the order. -/
theorem newestFirst_deleteRows_excessOfAll (keyed : HoldsKeys ips) :
    newestFirst (SQLiteUserIPs.deleteRows ips (SQLiteUserIPs.excessOfAll total ips)) =
      (newestFirst ips).take total := by
  have ordered : (newestFirst ips).reverse.Pairwise fun a b => a.age < b.age := by
    rw [List.pairwise_reverse]
    exact pairwise_newestFirst keyed
  have sorted : (Sorter.stable UserIPRecord.age).sort ips.rows = (newestFirst ips).reverse := by
    refine Sorter.sort_eq_of_pairwise_lt _ ?_ ordered fun r => by simp
    exact UserIPRecord.nodup_map_of_key (fun same => UserIPRecord.key_of_ageDesc same)
      keyed.nodup_map_rows
  apply newestFirst_deleteRows keyed
  · rw [SQLiteUserIPs.excessOfAll, sorted, List.take_reverse, length_newestFirst]
    refine (List.Perm.append_left _ (List.reverse_perm _)).trans ?_
    rcases Nat.le_total total ips.rows.length with above | within
    · rw [Nat.sub_sub_self above, List.take_append_drop]
    · rw [Nat.sub_eq_zero_of_le within, Nat.sub_zero, List.take_of_length_le
        (by rwa [length_newestFirst]), List.drop_of_length_le (by rw [length_newestFirst]),
        List.append_nil]
  · exact List.take_sublist _ _

end SQLite

end UserIPTable

end TelemtPanel.Store
