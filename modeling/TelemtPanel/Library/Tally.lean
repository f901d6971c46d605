import TelemtPanel.Library.Table

/-!
# Tallies

A tally counts the occurrences of keys in a table.  A row is made at the first occurrence of
its key and carries the number of occurrences, possibly along with other data.
-/

namespace TelemtPanel.Library

universe u v w

/-- Adding one item adds one to the number of those that have a property it has. -/
theorem card_filter_insert {ι : Type u} [DecidableEq ι] {items : Finset ι} {item : ι}
    (isNew : item ∉ items) (has : ι → Prop) [DecidablePred has] :
    ((insert item items).filter has).card =
      (items.filter has).card + if has item then 1 else 0 := by
  rw [Finset.filter_insert]
  split
  · apply Finset.card_insert_of_notMem
    intro mem
    exact isNew (Finset.mem_filter.mp mem).1
  · rfl

section Tallies

variable {κ : Type u} {ν : Type v} [Ord κ] {size : ν → ℕ} {table : Table κ ν} {count : κ → ℕ}

/-- Every row carries the number of its key, and a key has a row once it was counted. -/
def Tallies [Std.TransOrd κ] (size : ν → ℕ) (table : Table κ ν) (count : κ → ℕ) : Prop :=
  ∀ key : κ, table[key]?.map size = if count key = 0 then none else some (count key)

namespace Tallies

variable [Std.TransOrd κ]

theorem congr {other : κ → ℕ} (tallies : Tallies size table count)
    (same : ∀ key, count key = other key) : Tallies size table other := by
  intro key
  rw [tallies key, same key]

theorem size_eq (tallies : Tallies size table count) {key : κ} {row : ν}
    (found : table[key]? = some row) : size row = count key ∧ 0 < count key := by
  have tally := tallies key
  rw [found, Option.map_some] at tally
  split at tally
  · cases tally
  · rename_i counted
    exact ⟨Option.some.inj tally, Nat.pos_of_ne_zero counted⟩

theorem map_eq (tallies : Tallies size table count) {key : κ} (counted : 0 < count key) :
    table[key]?.map size = some (count key) := by
  rw [tallies key, if_neg counted.ne']

theorem isSome_iff (tallies : Tallies size table count) (key : κ) :
    table[key]?.isSome = true ↔ 0 < count key := by
  have tally := congrArg Option.isSome (tallies key)
  rw [Option.isSome_map] at tally
  rw [tally]
  split <;> simp <;> omega

theorem empty : Tallies size (∅ : Table κ ν) fun _ => 0 := by
  intro key
  simp

variable [Std.LawfulEqOrd κ] [DecidableEq κ]

/-- Counting one more occurrence of a key. -/
theorem alter (tallies : Tallies size table count) {add : ν → ν} {new : ν}
    (adds : ∀ row, size (add row) = size row + 1) (starts : size new = 0) (key : κ) :
    Tallies size (table.alter key fun row => some (add (row.getD new))) fun other =>
      count other + if other = key then 1 else 0 := by
  intro other
  change _ = if count other + (if other = key then 1 else 0) = 0 then none
    else some (count other + if other = key then 1 else 0)
  rw [Table.lookup_alter]
  by_cases here : key = other
  · subst here
    rw [if_pos rfl, if_pos rfl, if_neg (Nat.succ_ne_zero _), Option.map_some, adds]
    have tally := tallies key
    cases found : table[key]? with
    | none =>
        rw [found] at tally
        have absent : count key = 0 := by
          by_contra counted
          simp [counted] at tally
        rw [Option.getD_none, starts, absent]
    | some row => rw [Option.getD_some, (tallies.size_eq found).1]
  · rw [if_neg here, if_neg (Ne.symm here)]
    exact tallies other

/-- The numbers of all rows add up to the number of items that were counted. -/
theorem sum_rows {ι : Type w} {items : Finset ι} {place : ι → κ}
    (tallies : Tallies size table fun key => (items.filter (place · = key)).card) :
    (table.rows.map size).sum = items.card := by
  have covers : ∀ key row, table[key]? = some row → key ∈ table.keySet := Table.mem_keySet
  have counted : ∀ item ∈ items, place item ∈ table.keySet := by
    intro item mem
    have positive : 0 < (items.filter (place · = place item)).card :=
      Finset.card_pos.mpr ⟨item, Finset.mem_filter.mpr ⟨mem, rfl⟩⟩
    rcases Option.isSome_iff_exists.mp ((tallies.isSome_iff _).mpr positive) with ⟨row, found⟩
    exact covers _ row found
  have fibres := Finset.card_eq_sum_card_fiberwise counted
  have total := Table.rowSum_eq_sum size covers
  rw [Table.rowSum] at total
  rw [total, fibres]
  apply Finset.sum_congr rfl
  intro key _
  rw [tallies key]
  dsimp only
  split
  · rename_i absent
    rw [absent, Option.getD_none]
  · rw [Option.getD_some]

end Tallies
end Tallies

namespace Table

variable {κ : Type u} {ν : Type v} [Ord κ] [Std.TransOrd κ] [Std.LawfulEqOrd κ] [DecidableEq κ]

/-- Each row is changed by the items of its key in their order. -/
theorem lookup_foldl_alter {α : Type w} (keyOf : α → κ) (change : α → Option ν → Option ν)
    (items : List α) (table : Table κ ν) (key : κ) :
    (items.foldl (fun table item => Std.ExtTreeMap.alter table (keyOf item) (change item))
        table)[key]? =
      (items.filter (keyOf · = key)).foldl (fun row item => change item row) table[key]? := by
  induction items generalizing table with
  | nil => simp
  | cons item items ih =>
      rw [List.foldl_cons, ih, lookup_alter]
      by_cases here : keyOf item = key
      · simp [here]
      · simp [here]

/-- Lists that are collected under the keys of their items. -/
theorem lookup_collect {α : Type w} {β : Type v} (keyOf : α → κ) (item : α → β) (items : List α) (key : κ) :
    (items.foldl (fun (table : Table κ (List β)) a =>
        table.alter (keyOf a) fun group => some (group.getD [] ++ [item a])) ∅)[key]? =
      if items.filter (keyOf · = key) = [] then none
      else some ((items.filter (keyOf · = key)).map item) := by
  have collects : ∀ (items : List α) (group : Option (List β)),
      items.foldl (fun group a => some (group.getD [] ++ [item a])) group =
        if items = [] then group else some (group.getD [] ++ items.map item) := by
    intro items
    induction items with
    | nil => simp
    | cons a items ih =>
        intro group
        rw [List.foldl_cons, ih]
        cases items <;> simp
  rw [lookup_foldl_alter keyOf (fun a group => some (group.getD [] ++ [item a])), collects]
  simp

end Table

end TelemtPanel.Library
