import Mathlib

/-!
# Sets that are visited in the order of insertion

A loop over such a set sees what happens to the set meanwhile: a member that is deleted before
its turn is skipped, and one that is added is visited at the end.  Each member therefore has a
stamp, and a loop remembers the stamp from which it goes on.
-/

namespace TelemtPanel.Library

universe u

structure InsertionSet (α : Type u) where
  members : List (ℕ × α)
  next : ℕ

namespace InsertionSet

variable {α : Type u}

def empty : InsertionSet α := ⟨[], 0⟩

def add [DecidableEq α] (set : InsertionSet α) (member : α) : InsertionSet α :=
  if member ∈ set.members.map Prod.snd then set
  else ⟨set.members ++ [(set.next, member)], set.next + 1⟩

def delete [DecidableEq α] (set : InsertionSet α) (member : α) : InsertionSet α :=
  { set with members := set.members.filter fun entry => entry.2 ≠ member }

/-- The member that a loop visits next, with its stamp. -/
def following (set : InsertionSet α) (position : ℕ) : Option (ℕ × α) :=
  set.members.find? fun entry => position ≤ entry.1

/-- A loop that is over stays over when members are deleted. -/
theorem following_delete [DecidableEq α] {set : InsertionSet α} {position : ℕ}
    (ended : set.following position = none) (member : α) :
    (set.delete member).following position = none := by
  simp only [following, List.find?_eq_none] at ended ⊢
  intro entry mem
  exact ended entry (List.mem_of_mem_filter mem)

end InsertionSet

end TelemtPanel.Library
