import TelemtPanel.Library.Sorter

/-!
# Keyset pagination

A page starts behind a cursor, which is made of the last item of the page before it.  If the pages
are cut from a list of strictly increasing ranks, then following the cursors lists every item once
and in order, however the page size divides the list.
-/

namespace TelemtPanel.Library

universe u v w

variable {α : Type u}

section Cursors

variable {β : Type v} [LinearOrder β] {rank : α → β} {sorted : List α}

/-- Items that come after the last one that has been read. -/
def behind (rank : α → β) (last : Option α) (item : α) : Bool :=
  match last with
  | none => true
  | some last => decide (rank last < rank item)

/-- What is behind a part that has been read is the rest. -/
theorem filter_behind (ordered : sorted.Pairwise fun a b => rank a < rank b) (count : ℕ) :
    sorted.filter (behind rank (sorted.take count).getLast?) = sorted.drop count := by
  cases isLast : (sorted.take count).getLast? with
  | none =>
      have nothing := List.getLast?_eq_none_iff.mp isLast
      have whole := List.take_append_drop count sorted
      rw [nothing, List.nil_append] at whole
      rw [whole]
      exact List.filter_eq_self.mpr fun _ _ => rfl
  | some last =>
      rcases List.getLast?_eq_some_iff.mp isLast with ⟨front, isFront⟩
      have split := List.take_append_drop count sorted
      rw [← split] at ordered
      rcases List.pairwise_append.mp ordered with ⟨readOrdered, -, before⟩
      rw [isFront] at readOrdered
      have beforeLast := (List.pairwise_append.mp readOrdered).2.2
      have read : (sorted.take count).filter (behind rank (some last)) = [] := by
        apply List.filter_eq_nil_iff.mpr
        intro item mem
        rw [isFront] at mem
        simp only [behind, decide_eq_true_eq, not_lt]
        rcases List.mem_append.mp mem with inFront | isItem
        · exact (beforeLast item inFront last (List.mem_singleton_self last)).le
        · rw [List.mem_singleton.mp isItem]
      have rest : (sorted.drop count).filter (behind rank (some last)) = sorted.drop count := by
        apply List.filter_eq_self.mpr
        intro item mem
        exact decide_eq_true (before last (List.mem_of_getLast? isLast) item mem)
      conv_lhs => rw [← split]
      rw [List.filter_append, read, rest, List.nil_append]

end Cursors

section Following

variable {κ : Type v} {P : Type w} (page : ℕ → Option κ → P) (items : P → List α) (more : P → Bool)
  (cursorOf : α → κ)

/-- Reads pages until one says that it is the last.  What is read may depend on the round. -/
def followPages : ℕ → ℕ → Option κ → List P
  | 0, _, _ => []
  | rounds + 1, round, cursor =>
      match more (page round cursor), (items (page round cursor)).getLast? with
      | true, some last => page round cursor :: followPages rounds (round + 1) (some (cursorOf last))
      | _, _ => [page round cursor]

/-- The page behind a number of items. -/
def pageAt (sorted : List α) (round count : ℕ) : P :=
  page round ((sorted.take count).getLast?.map cursorOf)

/-- Pages are cut from a list; one that is followed by another one is full. -/
structure Continues (sorted : List α) (limit : ℕ) : Prop where
  items : ∀ round, ∀ count ≤ sorted.length,
    items (pageAt page cursorOf sorted round count) = (sorted.drop count).take limit
  full : ∀ round, ∀ count ≤ sorted.length,
    more (pageAt page cursorOf sorted round count) = true → limit ≤ sorted.length - count
  last : ∀ round, ∀ count ≤ sorted.length,
    more (pageAt page cursorOf sorted round count) = false → sorted.length - count ≤ limit

variable {page items more cursorOf} {sorted : List α} {limit : ℕ}

/-- Following the cursors reads the rest of the list, and only the last page says that it is. -/
theorem Continues.followPages (continues : Continues page items more cursorOf sorted limit)
    (positive : 0 < limit) {rounds count : ℕ} (round : ℕ) (inside : count ≤ sorted.length)
    (enough : sorted.length - count < rounds) :
    let pages := followPages page items more cursorOf rounds round
      ((sorted.take count).getLast?.map cursorOf)
    pages.flatMap items = sorted.drop count ∧
      (∃ front last, pages = front ++ [last] ∧ (∀ p ∈ front, more p = true) ∧
        more last = false) ∧
      ∀ p ∈ pages, ∃ later, ∃ read ≤ sorted.length,
        p = pageAt page cursorOf sorted later read := by
  induction rounds generalizing count round with
  | zero => omega
  | succ rounds ih =>
      have here := continues.items round count inside
      have isPage : page round ((sorted.take count).getLast?.map cursorOf) =
          pageAt page cursorOf sorted round count := rfl
      simp only [Library.followPages, isPage]
      cases isMore : more (pageAt page cursorOf sorted round count) with
      | false =>
          have short := continues.last round count inside isMore
          refine ⟨?_, ⟨[], _, rfl, by simp, isMore⟩, ?_⟩
          · rw [List.flatMap_singleton, here, List.take_of_length_le (by simpa using short)]
          · intro p mem
            exact ⟨round, count, inside, List.mem_singleton.mp mem⟩
      | true =>
          have long := continues.full round count inside isMore
          have joined : sorted.take (count + limit) =
              sorted.take count ++ (sorted.drop count).take limit := List.take_add
          have nonempty : (sorted.drop count).take limit ≠ [] := by
            apply List.ne_nil_of_length_pos
            rw [List.length_take, List.length_drop]
            omega
          rcases Option.ne_none_iff_exists'.mp
            (mt List.getLast?_eq_none_iff.mp nonempty) with ⟨last, isLast⟩
          have next : (sorted.take (count + limit)).getLast? = some last := by
            rw [joined, List.getLast?_append, isLast]
            rfl
          rcases ih (round + 1) (show count + limit ≤ sorted.length by omega) (by omega) with
            ⟨rest, ⟨front, final, pages, allMore, isFinal⟩, each⟩
          rw [next, Option.map_some] at rest pages each
          simp only [here, isLast]
          refine ⟨?_, ⟨pageAt page cursorOf sorted round count :: front, final, ?_, ?_, isFinal⟩,
            ?_⟩
          · rw [List.flatMap_cons, rest, here, ← List.drop_drop, List.take_append_drop]
          · rw [pages, List.cons_append]
          · intro p mem
            rcases List.mem_cons.mp mem with rfl | mem
            · exact isMore
            · exact allMore p mem
          · intro p mem
            rcases List.mem_cons.mp mem with rfl | mem
            · exact ⟨round, count, inside, rfl⟩
            · exact each p mem

end Following

end TelemtPanel.Library
