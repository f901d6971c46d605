import TelemtPanel.Library.Sorter

/-!
# The first items of a sorted list

Three ways of keeping the first items of a list sorted by rank: a scan that
also bounds the items of each group, a heap of bounded size that sees the items
in any order, and pages that are read one after the other from a cursor.
-/

namespace TelemtPanel.Library

universe u v w

section Groups

variable {α : Type u} {γ : Type w} [DecidableEq γ] (group : α → γ) (limit total : ℕ)

/-- Keeps at most `limit` items of each group, where `counts` are kept already; a limit of zero
keeps all. -/
def capGroups (counts : γ → ℕ) : List α → List α
  | [] => []
  | item :: items =>
      if 0 < limit ∧ limit ≤ counts (group item) then capGroups counts items
      else item ::
        capGroups (Function.update counts (group item) (counts (group item) + 1)) items

/-- Keeps at most `limit` items of each group and `total` items of all, where `counts` and
`kept` are kept already. -/
def keepFirst (counts : γ → ℕ) (kept : ℕ) : List α → List α
  | [] => []
  | item :: items =>
      if (0 < limit ∧ limit ≤ counts (group item)) ∨ total ≤ kept then
        keepFirst counts kept items
      else item ::
        keepFirst (Function.update counts (group item) (counts (group item) + 1)) (kept + 1) items

/-- What `keepFirst` leaves out. -/
def dropRest (counts : γ → ℕ) (kept : ℕ) : List α → List α
  | [] => []
  | item :: items =>
      if (0 < limit ∧ limit ≤ counts (group item)) ∨ total ≤ kept then
        item :: dropRest counts kept items
      else
        dropRest (Function.update counts (group item) (counts (group item) + 1)) (kept + 1) items

variable {group limit total} {counts : γ → ℕ} {kept : ℕ}

theorem keepFirst_of_full (full : total ≤ kept) (items : List α) :
    keepFirst group limit total counts kept items = [] := by
  induction items with
  | nil => rfl
  | cons item items ih => rw [keepFirst, if_pos (.inr full), ih]

/-- Both bounds in one scan are the same as one after the other. -/
theorem keepFirst_eq_take (items : List α) :
    keepFirst group limit total counts kept items =
      (capGroups group limit counts items).take (total - kept) := by
  induction items generalizing counts kept with
  | nil => simp [keepFirst, capGroups]
  | cons item items ih =>
      rcases Nat.lt_or_ge kept total with room | full
      · by_cases used : 0 < limit ∧ limit ≤ counts (group item)
        · rw [keepFirst, if_pos (.inl used), capGroups, if_pos used, ih]
        · have open_ : ¬((0 < limit ∧ limit ≤ counts (group item)) ∨ total ≤ kept) := by omega
          have next : total - kept = (total - (kept + 1)) + 1 := by omega
          rw [keepFirst, if_neg open_, capGroups, if_neg used, ih, next, List.take_succ_cons]
      · rw [keepFirst_of_full full, Nat.sub_eq_zero_of_le full, List.take_zero]

theorem keepFirst_append_dropRest (items : List α) :
    (keepFirst group limit total counts kept items ++
      dropRest group limit total counts kept items).Perm items := by
  induction items generalizing counts kept with
  | nil => exact List.Perm.refl _
  | cons item items ih =>
      rw [keepFirst, dropRest]
      split
      · exact List.perm_middle.trans (ih.cons item)
      · exact ih.cons item

theorem keepFirst_sublist (items : List α) :
    (keepFirst group limit total counts kept items).Sublist items := by
  induction items generalizing counts kept with
  | nil => exact List.Sublist.refl _
  | cons item items ih =>
      rw [keepFirst]
      split
      · exact ih.cons item
      · exact ih.cons_cons item

theorem capGroups_sublist (items : List α) :
    (capGroups group limit counts items).Sublist items := by
  induction items generalizing counts with
  | nil => exact List.Sublist.refl _
  | cons item items ih =>
      rw [capGroups]
      split
      · exact ih.cons item
      · exact ih.cons_cons item

theorem capGroups_of_unlimited (unlimited : limit = 0) (items : List α) :
    capGroups group limit counts items = items := by
  induction items generalizing counts with
  | nil => rfl
  | cons item items ih => rw [capGroups, if_neg (by omega), ih]

/-- Within a group the cap keeps the first items. -/
theorem filter_capGroups (limited : 0 < limit) (items : List α) (g : γ) :
    (capGroups group limit counts items).filter (group · = g) =
      (items.filter (group · = g)).take (limit - counts g) := by
  induction items generalizing counts with
  | nil => simp [capGroups]
  | cons item items ih =>
      rw [capGroups]
      by_cases here : group item = g
      · subst here
        split
        · rename_i used
          rw [ih, Nat.sub_eq_zero_of_le used.2, List.take_zero, List.take_zero]
        · rename_i unused
          have next : limit - counts (group item) = (limit - (counts (group item) + 1)) + 1 := by
            omega
          simp only [List.filter_cons, decide_true, ↓reduceIte, ih, Function.update_self]
          rw [next, List.take_succ_cons]
      · split
        · simp only [List.filter_cons, here, decide_false, Bool.false_eq_true, ↓reduceIte, ih]
        · simp only [List.filter_cons, here, decide_false, Bool.false_eq_true, ↓reduceIte, ih,
            Function.update_of_ne (Ne.symm here)]

/-- An item stays when it is among the first of its group. -/
theorem mem_capGroups_iff (limited : 0 < limit) {items : List α} {item : α} :
    item ∈ capGroups group limit (fun _ => 0) items ↔
      item ∈ (items.filter (group · = group item)).take limit := by
  have inGroup := @filter_capGroups _ _ _ group _ (fun _ => 0) limited items (group item)
  rw [Nat.sub_zero] at inGroup
  rw [← inGroup, List.mem_filter]
  simp

/-- The cap holds for every group afterwards. -/
theorem length_filter_capGroups_le (limited : 0 < limit) (items : List α) (g : γ) :
    ((capGroups group limit (fun _ => 0) items).filter (group · = g)).length ≤ limit := by
  rw [filter_capGroups limited]
  exact (List.length_take_le _ _).trans (Nat.sub_le _ _)

end Groups

section Heap

variable {α : Type u} {β : Type v} [LinearOrder β] (rank : α → β) (bound : ℕ)

/-- A heap of at most `bound` items with the item of greatest rank as its root, which gives way
to an item of smaller rank when the heap is full. -/
def pushBounded (heap : List α) (item : α) : List α :=
  if heap.length < bound then heap.orderedInsert (fun a b => rank b ≤ rank a) item
  else match heap with
    | [] => []
    | root :: rest =>
        if rank item < rank root then rest.orderedInsert (fun a b => rank b ≤ rank a) item
        else root :: rest

variable {rank bound}

theorem pairwise_lt_orderedInsert {sorted : List α} {item : α}
    (ordered : sorted.Pairwise fun a b => rank a < rank b)
    (fresh : ∀ other ∈ sorted, rank other ≠ rank item) :
    (sorted.orderedInsert (fun a b => rank a ≤ rank b) item).Pairwise
      fun a b => rank a < rank b := by
  induction sorted with
  | nil => simp
  | cons first rest ih =>
      rcases List.pairwise_cons.mp ordered with ⟨least, restOrdered⟩
      rcases List.forall_mem_cons.mp fresh with ⟨freshFirst, freshRest⟩
      rw [List.orderedInsert_cons]
      split
      · rename_i before
        have less := lt_of_le_of_ne before (Ne.symm freshFirst)
        refine List.pairwise_cons.mpr ⟨?_, ordered⟩
        intro other mem
        rcases List.mem_cons.mp mem with rfl | later
        · exact less
        · exact less.trans (least other later)
      · rename_i after_
        refine List.pairwise_cons.mpr ⟨?_, ih restOrdered freshRest⟩
        intro other mem
        rcases (List.mem_orderedInsert _).mp mem with rfl | later
        · exact not_le.mp after_
        · exact least other later

/-- Inserting into the reversed list. -/
theorem orderedInsert_reverse {sorted : List α} {item : α}
    (ordered : sorted.Pairwise fun a b => rank a < rank b)
    (fresh : ∀ other ∈ sorted, rank other ≠ rank item) :
    sorted.reverse.orderedInsert (fun a b => rank b ≤ rank a) item =
      (sorted.orderedInsert (fun a b => rank a ≤ rank b) item).reverse := by
  have reversed : ∀ {list : List α}, (list.Pairwise fun a b => rank a < rank b) →
      list.reverse.Pairwise fun a b => OrderDual.toDual (rank a) < OrderDual.toDual (rank b) := by
    intro list pairwise
    simpa using List.pairwise_reverse.mpr pairwise
  have inserted := @pairwise_lt_orderedInsert α βᵒᵈ _ (fun a => OrderDual.toDual (rank a)) _ item
    (reversed ordered) (by simpa using fresh)
  refine @Sorter.eq_of_pairwise_lt _ _ _ (fun a => OrderDual.toDual (rank a)) _ _ ?_
    (reversed (pairwise_lt_orderedInsert ordered fresh)) ?_
  · simpa using inserted
  · intro other
    simp [List.mem_orderedInsert]

theorem orderedInsert_append_of_le {before rest : List α} {next item : α}
    (place : rank item ≤ rank next) :
    (before ++ next :: rest).orderedInsert (fun a b => rank a ≤ rank b) item =
      before.orderedInsert (fun a b => rank a ≤ rank b) item ++ next :: rest := by
  induction before with
  | nil => simp [place]
  | cons first before ih =>
      simp only [List.cons_append, List.orderedInsert_cons, ih]
      split <;> rfl

theorem orderedInsert_append_of_lt {before rest : List α} {item : α}
    (place : ∀ other ∈ before, rank other < rank item) :
    (before ++ rest).orderedInsert (fun a b => rank a ≤ rank b) item =
      before ++ rest.orderedInsert (fun a b => rank a ≤ rank b) item := by
  induction before with
  | nil => rfl
  | cons first before ih =>
      rcases List.forall_mem_cons.mp place with ⟨placeFirst, placeRest⟩
      simp only [List.cons_append, List.orderedInsert_cons, not_le.mpr placeFirst, ↓reduceIte,
        ih placeRest]

/-- A heap that holds the first items still does after one more item. -/
theorem pushBounded_take (positive : 0 < bound) {sorted : List α} {item : α}
    (ordered : sorted.Pairwise fun a b => rank a < rank b)
    (fresh : ∀ other ∈ sorted, rank other ≠ rank item) :
    pushBounded rank bound (sorted.take bound).reverse item =
      ((sorted.orderedInsert (fun a b => rank a ≤ rank b) item).take bound).reverse := by
  have orderedTake : (sorted.take bound).Pairwise fun a b => rank a < rank b :=
    ordered.sublist (List.take_sublist bound sorted)
  have freshTake : ∀ other ∈ sorted.take bound, rank other ≠ rank item := fun other mem =>
    fresh other (List.mem_of_mem_take mem)
  rcases Nat.lt_or_ge sorted.length bound with room | full
  · rw [List.take_of_length_le room.le]
    unfold pushBounded
    rw [List.length_reverse, if_pos room, orderedInsert_reverse ordered fresh,
      List.take_of_length_le]
    rw [List.orderedInsert_length]
    exact room
  · have length : (sorted.take bound).length = bound := List.length_take_of_le full
    have notEmpty : sorted.take bound ≠ [] := by
      intro none_
      rw [none_] at length
      exact positive.ne length
    -- The kept items are split at the root, which is the last of them.
    rcases List.eq_nil_or_concat' (sorted.take bound) with none_ | ⟨front, root, split⟩
    · exact absurd none_ notEmpty
    · have whole : sorted = front ++ root :: sorted.drop bound := by
        conv_lhs => rw [← List.take_append_drop bound sorted, split]
        simp
      have frontLength : front.length + 1 = bound := by
        rw [← length, split]
        simp
      rw [split] at orderedTake freshTake
      rcases List.pairwise_append.mp orderedTake with ⟨frontOrdered, -, frontBefore⟩
      have freshFront : ∀ other ∈ front, rank other ≠ rank item := fun other mem =>
        freshTake other (List.mem_append_left _ mem)
      have freshRoot : rank root ≠ rank item := freshTake root (by simp)
      rw [split, List.reverse_append, List.reverse_singleton, List.singleton_append, pushBounded,
        if_neg (by simp; omega)]
      split
      · rename_i smaller
        rw [orderedInsert_reverse frontOrdered freshFront, whole,
          orderedInsert_append_of_le smaller.le, List.take_left']
        rw [List.orderedInsert_length, frontLength]
      · rename_i greater
        have larger : rank root < rank item := lt_of_le_of_ne (not_lt.mp greater) freshRoot
        have place : ∀ other ∈ front ++ [root], rank other < rank item := by
          intro other mem
          rcases List.mem_append.mp mem with inFront | isRoot
          · exact (frontBefore other inFront root (by simp)).trans larger
          · rw [List.mem_singleton.mp isRoot]
            exact larger
        have whole' : sorted = (front ++ [root]) ++ sorted.drop bound := by
          rw [List.append_assoc]
          exact whole
        rw [whole', orderedInsert_append_of_lt place, List.take_left']
        · simp
        · simpa using frontLength

/-- A bounded heap that has seen all items holds the first ones. -/
theorem foldl_pushBounded (positive : 0 < bound) (sorter : Sorter rank) {items : List α}
    (distinct : (items.map rank).Nodup) :
    items.foldl (pushBounded rank bound) [] = ((sorter.sort items).take bound).reverse := by
  induction items using List.reverseRecOn with
  | nil =>
      have nothing : sorter.sort [] = [] := List.length_eq_zero_iff.mp (sorter.length_sort [])
      simp [nothing]
  | append_singleton items item ih =>
      rw [List.map_append, List.nodup_append] at distinct
      rcases distinct with ⟨distinctItems, -, apart⟩
      have fresh : ∀ other ∈ sorter.sort items, rank other ≠ rank item := by
        intro other mem
        exact apart (rank other) (List.mem_map_of_mem (sorter.mem_sort.mp mem)) (rank item)
          (by simp)
      have ordered := sorter.pairwise_lt_sort distinctItems
      have inserted : sorter.sort (items ++ [item]) =
          (sorter.sort items).orderedInsert (fun a b => rank a ≤ rank b) item := by
        apply sorter.sort_eq_of_pairwise_lt
        · rw [List.map_append, List.nodup_append]
          exact ⟨distinctItems, by simp, apart⟩
        · exact pairwise_lt_orderedInsert ordered fresh
        · intro other
          simp [List.mem_orderedInsert, or_comm]
      rw [List.foldl_append, ih distinctItems, List.foldl_cons, List.foldl_nil,
        pushBounded_take positive ordered fresh, inserted]

end Heap

section Pages

variable {α : Type u}

/-- Reads pages of at most `chunk` items, each from the last item read so far, until `bound`
items are read or a page is not full. -/
def readPages (page : Option α → ℕ → List α) (chunk bound : ℕ) : (rounds : ℕ) → List α → List α
  | 0, read => read
  | rounds + 1, read =>
      let limit := min chunk (bound - read.length)
      let next := page read.getLast? limit
      if next.length < limit ∨ bound ≤ (read ++ next).length then read ++ next
      else readPages page chunk bound rounds (read ++ next)

/-- Pages that continue after their cursor read the first items. -/
theorem readPages_eq_take {page : Option α → ℕ → List α} {sorted : List α} {chunk bound : ℕ}
    (positive : 0 < chunk)
    (continues : ∀ count limit, count ≤ sorted.length →
      page (sorted.take count).getLast? limit = (sorted.drop count).take limit)
    {rounds count : ℕ} (enough : bound - count ≤ rounds) (unfinished : count < bound)
    (inside : count ≤ sorted.length) :
    readPages page chunk bound rounds (sorted.take count) = sorted.take bound := by
  induction rounds generalizing count with
  | zero => omega
  | succ rounds ih =>
      have length : (sorted.take count).length = count := List.length_take_of_le inside
      rw [readPages, length, continues count _ inside]
      set limit := min chunk (bound - count) with limitEq
      have joined : sorted.take count ++ (sorted.drop count).take limit =
          sorted.take (count + limit) := List.take_add.symm
      rw [joined]
      split
      · rename_i done
        simp only [List.length_take, List.length_drop] at done
        rcases Nat.lt_or_ge sorted.length (count + limit) with short | long
        · rw [List.take_of_length_le short.le, List.take_of_length_le (by omega)]
        · have last : count + limit = bound := by omega
          rw [last]
      · rename_i goesOn
        simp only [List.length_take, List.length_drop, not_or, not_lt, not_le] at goesOn
        exact ih (by omega) (by omega) (by omega)

end Pages

end TelemtPanel.Library
