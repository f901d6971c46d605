import TelemtPanel.Store.UserIP.SQLite

/-!
# Pages of a snapshot

A page that starts at a cursor continues the order newest first exactly behind
the cursor, even inside a group of records with the same time.
-/

namespace TelemtPanel.Store

open TelemtPanel.Library

namespace SQLiteUserIPs

variable {rows : List UserIPRecord} {since now : ℤ}

/-- Records whose time lies in the range of a snapshot. -/
def inRange (since now : ℤ) (r : UserIPRecord) : Bool :=
  decide (since ≤ r.last) && decide (r.last ≤ now)

/-- The records of the range, newest first. -/
def newestInRange (rows : List UserIPRecord) (since now : ℤ) : List UserIPRecord :=
  (Sorter.stable UserIPRecord.newness).sort (rows.filter (inRange since now))

@[simp]
theorem mem_newestInRange {r : UserIPRecord} :
    r ∈ newestInRange rows since now ↔ r ∈ rows ∧ since ≤ r.last ∧ r.last ≤ now := by
  simp [newestInRange, inRange]

theorem nodup_map_filter {β : Type*} {rank : UserIPRecord → β}
    (distinct : (rows.map rank).Nodup) (selects : UserIPRecord → Bool) :
    ((rows.filter selects).map rank).Nodup :=
  distinct.sublist (List.filter_sublist.map rank)

theorem pairwise_newestInRange (distinct : (rows.map UserIPRecord.newness).Nodup) :
    (newestInRange rows since now).Pairwise fun a b => a.newness < b.newness :=
  Sorter.pairwise_lt_sort _ (nodup_map_filter distinct _)

theorem newness_lt_iff {a b : UserIPRecord} :
    a.newness < b.newness ↔ b.last < a.last ∨ (b.last = a.last ∧ a.keyOrder < b.keyOrder) := by
  simp only [UserIPRecord.newness, UserIPRecord.keyOrder, Prod.Lex.toLex_lt_toLex,
    OrderDual.toDual_lt_toDual, OrderDual.toDual_inj, eq_comm]

/-- Behind an item of a strictly sorted list stand the greater ones. -/
theorem mem_drop_iff {sorted : List UserIPRecord} {count : ℕ} {cursor r : UserIPRecord}
    (ordered : sorted.Pairwise fun a b => a.newness < b.newness)
    (last : (sorted.take count).getLast? = some cursor) :
    r ∈ sorted.drop count ↔ r ∈ sorted ∧ cursor.newness < r.newness := by
  have split := List.take_append_drop count sorted
  rcases List.getLast?_eq_some_iff.mp last with ⟨front, isFront⟩
  rw [isFront] at split
  rw [← split] at ordered
  rcases List.pairwise_append.mp ordered with ⟨frontOrdered, -, before⟩
  have beforeCursor := (List.pairwise_append.mp frontOrdered).2.2
  constructor
  · intro mem
    exact ⟨List.mem_of_mem_drop mem, before cursor (by simp) r mem⟩
  · rintro ⟨mem, later⟩
    rw [← split] at mem
    rcases List.mem_append.mp mem with here | there
    · rcases List.mem_append.mp here with inFront | isCursor
      · exact absurd (later.trans (beforeCursor r inFront cursor (by simp))) (lt_irrefl _)
      · rw [List.mem_singleton.mp isCursor] at later
        exact absurd later (lt_irrefl _)
    · exact there

/-- The first page. -/
theorem readUserIPSnapshotPage_none (limit : ℕ) :
    readUserIPSnapshotPage rows since now none limit = (newestInRange rows since now).take limit :=
  rfl

/-- A page behind a cursor. -/
theorem readUserIPSnapshotPage_some (distinct : (rows.map UserIPRecord.newness).Nodup)
    {count : ℕ} {cursor : UserIPRecord}
    (last : ((newestInRange rows since now).take count).getLast? = some cursor) (limit : ℕ) :
    readUserIPSnapshotPage rows since now (some cursor) limit =
      ((newestInRange rows since now).drop count).take limit := by
  set sorter := Sorter.stable UserIPRecord.newness
  set tie := sorter.sort (rows.filter fun r => r.last = cursor.last &&
    decide (cursor.keyOrder < r.keyOrder)) with tieEq
  set older := sorter.sort (rows.filter fun r => decide (since ≤ r.last) &&
    decide (r.last < cursor.last)) with olderEq
  have cursorMem := (mem_newestInRange.mp (List.mem_of_mem_take
    (List.mem_of_getLast? last))).2
  have tieMem : ∀ r, r ∈ tie ↔ r ∈ rows ∧ r.last = cursor.last ∧
      cursor.keyOrder < r.keyOrder := fun r => by simp [tieEq]
  have olderMem : ∀ r, r ∈ older ↔ r ∈ rows ∧ since ≤ r.last ∧ r.last < cursor.last :=
    fun r => by simp [olderEq]
  have behind : (newestInRange rows since now).drop count = tie ++ older := by
    refine Sorter.eq_of_pairwise_lt ((pairwise_newestInRange distinct).sublist
      (List.drop_sublist _ _)) (List.pairwise_append.mpr ⟨sorter.pairwise_lt_sort
        (nodup_map_filter distinct _), sorter.pairwise_lt_sort (nodup_map_filter distinct _),
        fun a aMem b bMem => ?_⟩) fun r => ?_
    · have aTime := ((tieMem a).mp aMem).2.1
      have bTime := ((olderMem b).mp bMem).2.2
      exact newness_lt_iff.mpr (.inl (by omega))
    · rw [mem_drop_iff (pairwise_newestInRange distinct) last, mem_newestInRange,
        newness_lt_iff, List.mem_append, tieMem, olderMem]
      constructor
      · rintro ⟨⟨mem, lower, -⟩, earlier | ⟨same, later⟩⟩
        · exact .inr ⟨mem, lower, earlier⟩
        · exact .inl ⟨mem, same, later⟩
      · rintro (⟨mem, same, later⟩ | ⟨mem, lower, earlier⟩)
        · exact ⟨⟨mem, by omega, by omega⟩, .inr ⟨same, later⟩⟩
        · exact ⟨⟨mem, lower, by omega⟩, .inl earlier⟩
  rw [behind, List.take_append]
  change (if (tie.take limit).length < limit ∧ since < cursor.last then
    tie.take limit ++ older.take (limit - (tie.take limit).length) else tie.take limit) = _
  split
  · rename_i goesOn
    rw [List.length_take] at goesOn ⊢
    rw [min_eq_right (by omega)]
  · rename_i stops
    have nothing : older.take (limit - tie.length) = [] := by
      rcases Nat.lt_or_ge (tie.take limit).length limit with short | full
      · have isFirst : cursor.last ≤ since := by
          by_contra later
          exact stops ⟨short, by omega⟩
        have empty : older = [] := by
          apply List.eq_nil_iff_forall_not_mem.mpr
          intro r mem
          have times := ((olderMem r).mp mem).2
          omega
        rw [empty, List.take_nil]
      · rw [List.length_take] at full
        rw [Nat.sub_eq_zero_of_le (by omega), List.take_zero]
    rw [nothing, List.append_nil]

/-- All pages of a snapshot together. -/
theorem readPages_snapshot (distinct : (rows.map UserIPRecord.newness).Nodup) (bound : ℕ) :
    readPages (readUserIPSnapshotPage rows since now) userIPSnapshotChunkRows (bound + 1)
      (bound + 1) [] = (newestInRange rows since now).take (bound + 1) := by
  have read := @readPages_eq_take _ (readUserIPSnapshotPage rows since now)
    (newestInRange rows since now) userIPSnapshotChunkRows (bound + 1) (by decide) ?_
    (bound + 1) 0 (by omega) (by omega) (Nat.zero_le _)
  · simpa using read
  · intro count limit inside
    cases cursor : ((newestInRange rows since now).take count).getLast? with
    | none =>
        have nothing := List.getLast?_eq_none_iff.mp cursor
        have length := congrArg List.length nothing
        rw [List.length_take_of_le inside, List.length_nil] at length
        rw [readUserIPSnapshotPage_none, length, List.drop_zero]
    | some r => exact readUserIPSnapshotPage_some distinct cursor limit

end SQLiteUserIPs

end TelemtPanel.Store
