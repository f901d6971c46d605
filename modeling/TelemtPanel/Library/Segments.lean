import Mathlib

/-!
# Totals over the segments of a sequence

What is counted between neighbours of a sequence adds up over its links, and what
an associative operation makes of its members is combined in order.  When two
segments are joined, the total of the whole comes from the totals of both and, for
a quantity of links, from the link between the last member of the one and the first
of the other.
-/

namespace TelemtPanel.Library

universe u v

variable {α : Type u} {β : Type v}

section Links

variable [AddCommMonoid β] (link : α → α → β)

/-- Sum of a quantity over the neighbours of a list. -/
def linkSum : List α → β
  | [] => 0
  | [_] => 0
  | first :: second :: rest => link first second + linkSum (second :: rest)

@[simp]
theorem linkSum_singleton (first : α) : linkSum link [first] = 0 := rfl

/-- Joining two segments adds the link between them. -/
theorem linkSum_append (first : α) (front : List α) (next : α) (rest : List α) :
    linkSum link (first :: (front ++ next :: rest)) =
      linkSum link (first :: front) + link (front.getLastD first) next +
        linkSum link (next :: rest) := by
  induction front generalizing first with
  | nil => simp [linkSum]
  | cons second front ih =>
      have inner := ih second
      simp only [List.cons_append, linkSum, List.getLastD_cons] at inner ⊢
      rw [inner]
      simp only [add_assoc]

end Links

section Totals

variable (op : β → β → β) [Std.Associative op] (value : α → β)

/-- What an associative operation makes of a first member and the ones behind it. -/
def totalOf (first : α) (rest : List α) : β := rest.foldl (fun total item => op total (value item))
  (value first)

theorem foldl_op (total : β) (rest : List α) (first : α) :
    rest.foldl (fun total item => op total (value item)) (op total (value first)) =
      op total (totalOf op value first rest) := by
  induction rest generalizing first total with
  | nil => rfl
  | cons second rest ih =>
      unfold totalOf
      rw [List.foldl_cons, List.foldl_cons, ih (op total (value first)), ih (value first)]
      exact Std.Associative.assoc _ _ _

theorem totalOf_cons (first second : α) (rest : List α) :
    totalOf op value first (second :: rest) = op (value first) (totalOf op value second rest) :=
  foldl_op op value _ _ _

/-- The total of two segments. -/
theorem totalOf_append (first : α) (front : List α) (next : α) (rest : List α) :
    totalOf op value first (front ++ next :: rest) =
      op (totalOf op value first front) (totalOf op value next rest) := by
  unfold totalOf
  rw [List.foldl_append, List.foldl_cons]
  exact foldl_op op value _ _ _

end Totals

section Bounds

variable [LinearOrder β] (value : α → β) {item : α}

theorem totalOf_min_le (first : α) (rest : List α) (mem : item ∈ first :: rest) :
    totalOf min value first rest ≤ value item := by
  induction rest generalizing first with
  | nil => simp [List.mem_singleton.mp mem, totalOf]
  | cons second rest ih =>
      rw [totalOf_cons]
      rcases List.mem_cons.mp mem with rfl | mem
      · exact min_le_left _ _
      · exact (min_le_right _ _).trans (ih second mem)

theorem le_totalOf_max (first : α) (rest : List α) (mem : item ∈ first :: rest) :
    value item ≤ totalOf max value first rest := by
  induction rest generalizing first with
  | nil => simp [List.mem_singleton.mp mem, totalOf]
  | cons second rest ih =>
      rw [totalOf_cons]
      rcases List.mem_cons.mp mem with rfl | mem
      · exact le_max_left _ _
      · exact (ih second mem).trans (le_max_right _ _)

end Bounds

theorem getLastD_append_cons (first : α) (front : List α) (next : α) (rest : List α) :
    (front ++ next :: rest).getLastD first = rest.getLastD next := by
  simp [List.getLastD_eq_getLast?, List.getLast?_append, List.getLast?_cons]

end TelemtPanel.Library
