import Mathlib

/-!
# Sorting by a rank

An ordering by a rank leaves the order of equally ranked items open: a sort of
the keys of a hash map, or a query ordered by one column, may return any of
them.  A `Sorter` is one such outcome; results about it hold for all of them.
-/

namespace TelemtPanel.Library

universe u v

/-- Some way of listing items by increasing rank. -/
structure Sorter {α : Type u} {β : Type v} [LinearOrder β] (rank : α → β) where
  sort : List α → List α
  perm : ∀ items, (sort items).Perm items
  sorted : ∀ items, (sort items).Pairwise fun left right => rank left ≤ rank right

namespace Sorter

variable {α : Type u} {β : Type v} [LinearOrder β] {rank : α → β}

/-- The stable outcome. -/
def stable (rank : α → β) : Sorter rank where
  sort items := items.mergeSort fun left right => decide (rank left ≤ rank right)
  perm items := items.mergeSort_perm _
  sorted items := by
    have ordered := @List.pairwise_mergeSort α
      (fun left right => decide (rank left ≤ rank right))
      (by intro a b c; simpa using le_trans) (by intro a b; simpa using le_total _ _) items
    simpa using ordered

/-- Inserting item by item. -/
def insertion (rank : α → β) : Sorter rank where
  sort items := items.insertionSort fun left right => rank left ≤ rank right
  perm items := List.perm_insertionSort _ items
  sorted items := by
    have : Std.Total fun left right : α => rank left ≤ rank right := ⟨fun _ _ => le_total _ _⟩
    have : IsTrans α fun left right => rank left ≤ rank right := ⟨fun _ _ _ => le_trans⟩
    exact List.pairwise_insertionSort _ items

/-- What is ordered already stays as it is. -/
theorem stable_sort_of_pairwise {items : List α}
    (ordered : items.Pairwise fun left right => rank left ≤ rank right) :
    (stable rank).sort items = items :=
  List.mergeSort_of_pairwise (by simpa using ordered)

/-- A new first item goes before the items that are not smaller. -/
theorem stable_sort_cons (first : α) (rest : List α) : ∃ before after,
    (stable rank).sort (first :: rest) = before ++ first :: after ∧
      (stable rank).sort rest = before ++ after ∧
      (∀ item ∈ before, rank item < rank first) ∧ ∀ item ∈ after, rank first ≤ rank item := by
  rcases @List.mergeSort_cons _ (fun left right => decide (rank left ≤ rank right))
    (by intro a b c; simpa using le_trans) (by intro a b; simpa using le_total _ _) first rest
    with ⟨before, after, whole, split, smaller⟩
  refine ⟨before, after, whole, split, ?_, ?_⟩
  · intro item mem
    simpa using smaller item mem
  · have ordered := (stable rank).sorted (first :: rest)
    simp only [stable, whole] at ordered
    exact (List.pairwise_cons.mp (List.pairwise_append.mp ordered).2.1).1

/-- The stable outcome can be filtered before or after. -/
theorem filter_stable_sort (keep : α → Bool) (items : List α) :
    ((stable rank).sort items).filter keep = (stable rank).sort (items.filter keep) := by
  induction items with
  | nil => simp [stable]
  | cons first rest ih =>
      rcases @stable_sort_cons _ _ _ rank first rest with ⟨before, after, whole, split, small, great⟩
      rw [split, List.filter_append] at ih
      rw [whole, List.filter_append]
      cases kept : keep first with
      | false =>
          rw [List.filter_cons_of_neg (by simp [kept]), List.filter_cons_of_neg (by simp [kept]), ih]
      | true =>
          rcases @stable_sort_cons _ _ _ rank first (rest.filter keep) with
            ⟨before', after', whole', split', small', great'⟩
          -- Both are split at the same place.
          have cut : ∀ left right : List α, (∀ item ∈ left, rank item < rank first) →
              (∀ item ∈ right, rank first ≤ rank item) →
              (left ++ right).takeWhile (fun item => decide (rank item < rank first)) = left ∧
              (left ++ right).dropWhile (fun item => decide (rank item < rank first)) = right := by
            intro left right low high
            have stops : right.takeWhile (fun item => decide (rank item < rank first)) = [] ∧
                right.dropWhile (fun item => decide (rank item < rank first)) = right := by
              cases right with
              | nil => exact ⟨rfl, rfl⟩
              | cons head tail => simp [high head List.mem_cons_self]
            rw [List.takeWhile_append_of_pos (by simpa using low),
              List.dropWhile_append_of_pos (by simpa using low), stops.1, stops.2]
            simp
          have first_ := cut (before.filter keep) (after.filter keep)
            (fun item mem => small item (List.mem_filter.mp mem).1)
            (fun item mem => great item (List.mem_filter.mp mem).1)
          have second := cut before' after' small' great'
          rw [← split', ← ih] at second
          rw [List.filter_cons_of_pos kept, List.filter_cons_of_pos kept, whole',
            ← second.1, ← second.2, first_.1, first_.2]

/-- Breaking ties by a second rank is one of the outcomes. -/
def ofTies {γ : Type*} [LinearOrder γ] {ties : α → γ}
    (sorter : Sorter fun item => toLex (rank item, ties item)) : Sorter rank where
  sort := sorter.sort
  perm := sorter.perm
  sorted items := by
    refine (sorter.sorted items).imp ?_
    intro left right le
    exact (Prod.Lex.monotone_fst _ _ le)

variable (sorter : Sorter rank)

@[simp]
theorem mem_sort {items : List α} {item : α} : item ∈ sorter.sort items ↔ item ∈ items :=
  (sorter.perm items).mem_iff

@[simp]
theorem length_sort (items : List α) : (sorter.sort items).length = items.length :=
  (sorter.perm items).length_eq

section Distinct

/-- A list with strictly increasing ranks is determined by its members. -/
theorem eq_of_pairwise_lt {left right : List α}
    (leftSorted : left.Pairwise fun a b => rank a < rank b)
    (rightSorted : right.Pairwise fun a b => rank a < rank b)
    (same : ∀ item, item ∈ left ↔ item ∈ right) : left = right := by
  have distinct : ∀ {items : List α}, (items.Pairwise fun a b => rank a < rank b) →
      items.Nodup := by
    intro items sorted
    refine sorted.imp ?_
    rintro a b less rfl
    exact lt_irrefl _ less
  have perm := (List.perm_ext_iff_of_nodup (distinct leftSorted) (distinct rightSorted)).mpr same
  refine perm.eq_of_pairwise ?_ leftSorted rightSorted
  intro a b _ _ less greater
  exact absurd (less.trans greater) (lt_irrefl _)

/-- Items of distinct ranks are listed by strictly increasing rank. -/
theorem pairwise_lt_sort {items : List α} (distinct : (items.map rank).Nodup) :
    (sorter.sort items).Pairwise fun a b => rank a < rank b := by
  have distinctSorted : ((sorter.sort items).map rank).Nodup :=
    ((sorter.perm items).map rank).nodup_iff.mpr distinct
  have apart := List.pairwise_map.mp distinctSorted
  exact ((sorter.sorted items).and apart).imp fun both => lt_of_le_of_ne both.1 both.2

/-- Items of distinct ranks have only one order. -/
theorem sort_eq_of_pairwise_lt {items sorted : List α} (distinct : (items.map rank).Nodup)
    (ordered : sorted.Pairwise fun a b => rank a < rank b)
    (same : ∀ item, item ∈ sorted ↔ item ∈ items) : sorter.sort items = sorted :=
  eq_of_pairwise_lt (sorter.pairwise_lt_sort distinct) ordered fun item =>
    sorter.mem_sort.trans (same item).symm

end Distinct

end Sorter

end TelemtPanel.Library
