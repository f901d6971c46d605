import Mathlib

/-!
# Tables

A table is a finite map whose rows are enumerated in key order, which is what
both a hash map with sorted iteration and a relation with a primary key come
down to.  We use the extensional tree maps of the standard library and add the
point-wise reading lemmas in terms of propositional equality, key orders that
are pulled back along an injection, and sums over rows.
-/

namespace TelemtPanel.Library

open Std (ExtTreeMap TransCmp TransOrd LawfulEqOrd)

universe u v w

section KeyOrder

variable {κ : Type u} {α : Type v} [LinearOrder α]

/-- The key order pulled back along an embedding into a linear order. -/
abbrev ordOn (embed : κ → α) : Ord κ := ⟨compareOn embed⟩

theorem transOrd_ordOn (embed : κ → α) : @TransOrd κ (ordOn embed) :=
  inferInstanceAs (TransCmp (compareOn embed))

theorem lawfulEqOrd_ordOn (embed : κ → α) (injective : Function.Injective embed) :
    @LawfulEqOrd κ (ordOn embed) :=
  letI := ordOn embed
  { compare_self := by
      intro key
      exact compare_eq_iff_eq.mpr rfl
    eq_of_compare := by
      intro left right equal
      exact injective (compare_eq_iff_eq.mp equal) }

end KeyOrder

/-- Rows of type `ν` addressed by a key of type `κ`. -/
abbrev Table (κ : Type u) (ν : Type v) [Ord κ] : Type (max u v) := ExtTreeMap κ ν

namespace Table

variable {κ : Type u} {ν : Type v} {μ : Type w} [Ord κ] [TransOrd κ] [LawfulEqOrd κ]

@[ext]
theorem ext {left right : Table κ ν} (same : ∀ key : κ, left[key]? = right[key]?) :
    left = right :=
  ExtTreeMap.ext_getElem? same

theorem lookup_insert [DecidableEq κ] (table : Table κ ν) (key other : κ) (row : ν) :
    (table.insert key row)[other]? = if key = other then some row else table[other]? := by
  simp [ExtTreeMap.getElem?_insert]

theorem lookup_erase [DecidableEq κ] (table : Table κ ν) (key other : κ) :
    (table.erase key)[other]? = if key = other then none else table[other]? := by
  simp [ExtTreeMap.getElem?_erase]

theorem lookup_alter [DecidableEq κ] (table : Table κ ν) (key other : κ)
    (change : Option ν → Option ν) :
    (table.alter key change)[other]? =
      if key = other then change table[key]? else table[other]? := by
  simp [ExtTreeMap.getElem?_alter]

theorem lookup_filter (table : Table κ ν) (keep : κ → ν → Bool) (key : κ) :
    (table.filter keep)[key]? = table[key]?.filter (keep key) := by
  simp

theorem lookup_map (table : Table κ ν) (change : κ → ν → μ) (key : κ) :
    (table.map change)[key]? = table[key]?.map (change key) := by
  simp [ExtTreeMap.getElem?_map]

/-- A filter that keeps every row keeps the table. -/
theorem filter_eq_self_iff {table : Table κ ν} {keep : κ → ν → Bool} :
    table.filter keep = table ↔
      ∀ (key : κ) (row : ν), table[key]? = some row → keep key row = true := by
  constructor
  · intro same key row known
    have kept : (table.filter keep)[key]? = some row := by
      rw [same]
      exact known
    rw [lookup_filter, known] at kept
    simpa using kept
  · intro kept
    apply ext
    intro key
    rw [lookup_filter]
    cases known : table[key]? with
    | none => rfl
    | some row => simp [kept key row known]

theorem mem_toList (table : Table κ ν) (key : κ) (row : ν) :
    (key, row) ∈ table.toList ↔ table[key]? = some row :=
  ExtTreeMap.mem_toList_iff_getElem?_eq_some

omit [LawfulEqOrd κ] in
theorem size_insert_of_none {table : Table κ ν} {key : κ} (absent : table[key]? = none) (row : ν) :
    (table.insert key row).size = table.size + 1 := by
  rw [ExtTreeMap.size_insert, if_neg]
  rw [ExtTreeMap.contains_eq_isSome_getElem?, absent]
  exact Bool.false_ne_true

omit [LawfulEqOrd κ] in
theorem size_insert_of_some {table : Table κ ν} {key : κ} {old : ν} (known : table[key]? = some old)
    (row : ν) : (table.insert key row).size = table.size := by
  rw [ExtTreeMap.size_insert, if_pos]
  rw [ExtTreeMap.contains_eq_isSome_getElem?, known]
  rfl

theorem nodup_keys (table : Table κ ν) : (table.toList.map (·.1)).Nodup := by
  have distinct := ExtTreeMap.distinct_keys_toList (t := table)
  refine List.pairwise_map.mpr (distinct.imp ?_)
  intro left right differ same
  rw [same] at differ
  exact differ Std.compare_self

/-- Erasing keys one after the other. -/
theorem lookup_eraseAll [DecidableEq κ] (table : Table κ ν) (keys : List κ) (key : κ) :
    (keys.foldl (·.erase ·) table)[key]? = if key ∈ keys then none else table[key]? := by
  induction keys generalizing table with
  | nil => simp
  | cons first keys ih =>
      simp only [List.foldl_cons, ih, lookup_erase, List.mem_cons]
      by_cases later : key ∈ keys
      · simp [later]
      · by_cases here : key = first
        · simp [here]
        · simp [later, here, Ne.symm here]

/-- A finite set that contains the keys of a table. -/
def keySet [DecidableEq κ] (table : Table κ ν) : Finset κ :=
  (table.toList.map (·.1)).toFinset

theorem mem_keySet [DecidableEq κ] {table : Table κ ν} (key : κ) (row : ν)
    (known : table[key]? = some row) : key ∈ table.keySet :=
  List.mem_toFinset.mpr (List.mem_map.mpr ⟨(key, row), (mem_toList _ _ _).mpr known, rfl⟩)

section Rows

variable {keyOf : ν → κ} {table : Table κ ν}

/-- The rows of a table in key order. -/
def rows (table : Table κ ν) : List ν := table.toList.map (·.2)

/-- Every row carries the key under which it is stored. -/
def Keyed (keyOf : ν → κ) (table : Table κ ν) : Prop :=
  ∀ (key : κ) row, table[key]? = some row → keyOf row = key

omit [LawfulEqOrd κ] in
theorem keyed_empty : Keyed keyOf (∅ : Table κ ν) := by
  intro key row found
  simp at found

theorem Keyed.mem_rows (keyed : Keyed keyOf table) {row : ν} :
    row ∈ table.rows ↔ table[keyOf row]? = some row := by
  simp only [rows, List.mem_map, Prod.exists, exists_eq_right, mem_toList]
  constructor
  · rintro ⟨key, found⟩
    rwa [keyed key row found]
  · intro found
    exact ⟨keyOf row, found⟩

theorem Keyed.nodup_map_rows (keyed : Keyed keyOf table) : (table.rows.map keyOf).Nodup := by
  have same : table.rows.map keyOf = table.toList.map (·.1) := by
    rw [rows, List.map_map]
    apply List.map_congr_left
    intro row mem
    exact keyed row.1 row.2 ((mem_toList _ _ _).mp mem)
  rw [same]
  exact nodup_keys table

/-- Keyed tables with the same rows are the same. -/
theorem Keyed.ext {other : Table κ ν} (keyed : Keyed keyOf table) (keyedOther : Keyed keyOf other)
    (same : ∀ row, row ∈ table.rows ↔ row ∈ other.rows) : table = other := by
  apply Table.ext
  intro key
  apply Option.ext
  intro row
  constructor
  · intro found
    have carried := keyed key row found
    have mem := (same row).mp (keyed.mem_rows.mpr (by rwa [carried]))
    rw [← carried]
    exact keyedOther.mem_rows.mp mem
  · intro found
    have carried := keyedOther key row found
    have mem := (same row).mpr (keyedOther.mem_rows.mpr (by rwa [carried]))
    rw [← carried]
    exact keyed.mem_rows.mp mem

theorem Keyed.filter (keyed : Keyed keyOf table) (keep : κ → ν → Bool) :
    Keyed keyOf (table.filter keep) := by
  intro key row found
  rw [lookup_filter, Option.filter_eq_some_iff] at found
  exact keyed key row found.1

theorem Keyed.mem_rows_filter (keyed : Keyed keyOf table) (keep : κ → ν → Bool) {row : ν} :
    row ∈ rows (table.filter keep) ↔ row ∈ table.rows ∧ keep (keyOf row) row = true := by
  rw [(keyed.filter keep).mem_rows, keyed.mem_rows, lookup_filter, Option.filter_eq_some_iff]

theorem Keyed.eraseAll [DecidableEq κ] (keyed : Keyed keyOf table) (keys : List κ) :
    Keyed keyOf (keys.foldl (·.erase ·) table) := by
  intro key row found
  rw [lookup_eraseAll] at found
  split at found
  · cases found
  · exact keyed key row found

theorem Keyed.mem_rows_eraseAll [DecidableEq κ] (keyed : Keyed keyOf table) (keys : List κ)
    {row : ν} :
    row ∈ (keys.foldl (·.erase ·) table).rows ↔ row ∈ table.rows ∧ keyOf row ∉ keys := by
  rw [(keyed.eraseAll keys).mem_rows, keyed.mem_rows, lookup_eraseAll]
  split <;> simp_all

theorem Keyed.insert [DecidableEq κ] (keyed : Keyed keyOf table) {key : κ} {row : ν}
    (carried : keyOf row = key) : Keyed keyOf (table.insert key row) := by
  intro other stored found
  rw [lookup_insert] at found
  split at found
  · rename_i here
    cases found
    rw [carried, here]
  · exact keyed other stored found

end Rows

section Sums

variable {μ : Type v} [AddCommMonoid μ]

/-- Sum of the selected rows. -/
def sumOver (table : Table κ μ) (selects : κ → Bool) : μ :=
  ((table.toList.filter fun row => selects row.1).map (·.2)).sum

/-- The sum, taken over any set that contains all keys. -/
theorem sumOver_eq_sum [DecidableEq κ] {table : Table κ μ} {keys : Finset κ}
    (covers : ∀ key row, table[key]? = some row → key ∈ keys) (selects : κ → Bool) :
    table.sumOver selects =
      ∑ key ∈ keys, if selects key = true then table[key]?.getD 0 else 0 := by
  classical
  have distinct := nodup_keys table
  have present : ∀ key ∈ (table.toList.map (·.1)).toFinset, key ∈ keys := by
    intro key mem
    simp only [List.mem_toFinset, List.mem_map] at mem
    rcases mem with ⟨row, rowMem, rfl⟩
    exact covers row.1 row.2 ((mem_toList _ _ _).mp rowMem)
  have selected : ∀ rows : List (κ × μ), ((rows.filter fun row => selects row.1).map (·.2)).sum =
      (rows.map fun row => if selects row.1 = true then row.2 else 0).sum := by
    intro rows
    have split := List.sum_map_ite (fun row : κ × μ => selects row.1 = true) (·.2) (fun _ => 0) rows
    simpa using split.symm
  rw [← Finset.sum_subset present]
  · rw [List.sum_toFinset _ distinct, List.map_map, sumOver, selected]
    apply congrArg List.sum
    apply List.map_congr_left
    intro row mem
    simp only [Function.comp_apply, (mem_toList _ _ _).mp mem, Option.getD_some]
  · intro key mem absent
    cases known : table[key]? with
    | none => simp
    | some row =>
        refine absurd (List.mem_toFinset.mpr (List.mem_map.mpr ⟨(key, row), ?_, rfl⟩)) absent
        exact (mem_toList _ _ _).mpr known

/-- Only the selected rows matter. -/
theorem sumOver_congr [DecidableEq κ] {table other : Table κ μ} {selects : κ → Bool}
    (same : ∀ key : κ, selects key = true → table[key]?.getD 0 = other[key]?.getD 0) :
    table.sumOver selects = other.sumOver selects := by
  have left : ∀ key row, table[key]? = some row → key ∈ table.keySet ∪ other.keySet :=
    fun key row known => Finset.mem_union_left _ (mem_keySet key row known)
  have right : ∀ key row, other[key]? = some row → key ∈ table.keySet ∪ other.keySet :=
    fun key row known => Finset.mem_union_right _ (mem_keySet key row known)
  rw [sumOver_eq_sum left, sumOver_eq_sum right]
  apply Finset.sum_congr rfl
  intro key _
  split
  · rename_i isSelected
    exact same key isSelected
  · rfl

/-- Amounts added at some keys add up in the sum. -/
theorem sumOver_add [DecidableEq κ] {ι : Type*} {table next : Table κ μ} {selects : κ → Bool}
    (places : Finset ι) (place : ι → κ) (amount : ι → μ)
    (added : ∀ key : κ, selects key = true → next[key]?.getD 0 =
      table[key]?.getD 0 + ∑ i ∈ places, if place i = key then amount i else 0) :
    next.sumOver selects = table.sumOver selects +
      ∑ i ∈ places, if selects (place i) = true then amount i else 0 := by
  set keys := table.keySet ∪ next.keySet ∪ places.image place with keysEq
  have left : ∀ key row, table[key]? = some row → key ∈ keys := fun key row known =>
    Finset.mem_union_left _ (Finset.mem_union_left _ (mem_keySet key row known))
  have right : ∀ key row, next[key]? = some row → key ∈ keys := fun key row known =>
    Finset.mem_union_left _ (Finset.mem_union_right _ (mem_keySet key row known))
  have placed : ∀ i ∈ places, place i ∈ keys := fun i mem =>
    Finset.mem_union_right _ (Finset.mem_image_of_mem place mem)
  have spread : ∑ i ∈ places, (if selects (place i) = true then amount i else 0) =
      ∑ key ∈ keys, if selects key = true then
        ∑ i ∈ places, (if place i = key then amount i else 0) else 0 := by
    have swapped : ∀ key ∈ keys, (if selects key = true then
        ∑ i ∈ places, (if place i = key then amount i else 0) else 0) =
        ∑ i ∈ places, if place i = key then
          (if selects (place i) = true then amount i else 0) else 0 := by
      intro key _
      split
      · rename_i isSelected
        apply Finset.sum_congr rfl
        intro i _
        by_cases here : place i = key
        · simp [here, isSelected]
        · simp [here]
      · rename_i unselected
        refine (Finset.sum_eq_zero fun i _ => ?_).symm
        by_cases here : place i = key
        · simp [here, unselected]
        · simp [here]
    rw [Finset.sum_congr rfl swapped, Finset.sum_comm]
    apply Finset.sum_congr rfl
    intro i mem
    rw [Finset.sum_ite_eq, if_pos (placed i mem)]
  rw [sumOver_eq_sum left, sumOver_eq_sum right, spread, ← Finset.sum_add_distrib]
  apply Finset.sum_congr rfl
  intro key _
  split
  · rename_i isSelected
    exact added key isSelected
  · rw [add_zero]

/-- Rows may be summed up group by group. -/
theorem sumOver_groups [DecidableEq κ] {γ : Type*} [DecidableEq γ] (table : Table κ μ)
    (selects : κ → Bool) (group : κ → γ) {groups : List γ} (distinct : groups.Nodup)
    (covers : ∀ key row, table[key]? = some row → selects key = true → group key ∈ groups) :
    (groups.map fun g => table.sumOver fun key => selects key && decide (group key = g)).sum =
      table.sumOver selects := by
  have all := @mem_keySet κ μ _ _ _ _ table
  simp only [sumOver_eq_sum all]
  rw [← List.sum_toFinset _ distinct, Finset.sum_comm]
  apply Finset.sum_congr rfl
  intro key _
  simp only [Bool.and_eq_true, decide_eq_true_eq]
  by_cases isSelected : selects key = true
  · simp only [isSelected, true_and, ↓reduceIte]
    rw [Finset.sum_ite_eq]
    cases known : table[key]? with
    | none => simp
    | some row => rw [if_pos (List.mem_toFinset.mpr (covers key row known isSelected))]
  · simp [isSelected]

/-- Selections that do not overlap may be summed up one after the other. -/
theorem sumOver_any [DecidableEq κ] {ι : Type*} (table : Table κ μ) (selects : ι → κ → Bool)
    {selections : List ι} (apart : selections.Pairwise fun left right =>
      ∀ key, ¬(selects left key = true ∧ selects right key = true)) :
    (selections.map fun i => table.sumOver (selects i)).sum =
      table.sumOver fun key => selections.any (selects · key) := by
  induction selections with
  | nil => simp [sumOver]
  | cons first rest ih =>
      rcases List.pairwise_cons.mp apart with ⟨disjoint, restApart⟩
      have all := @mem_keySet κ μ _ _ _ _ table
      rw [List.map_cons, List.sum_cons, ih restApart]
      simp only [sumOver_eq_sum all, List.any_cons]
      rw [← Finset.sum_add_distrib]
      apply Finset.sum_congr rfl
      intro key _
      by_cases here : selects first key = true
      · have elsewhere : rest.any (selects · key) = false := by
          rw [List.any_eq_false]
          intro other mem there
          exact disjoint other mem key ⟨here, there⟩
        simp [here, elsewhere]
      · simp [here]

end Sums

section RowSums

variable (size : ν → ℕ)

/-- The sum of the sizes of all rows. -/
def rowSum (table : Table κ ν) : ℕ := (table.rows.map size).sum

theorem rowSum_eq_sum [DecidableEq κ] {table : Table κ ν} {keys : Finset κ}
    (covers : ∀ key row, table[key]? = some row → key ∈ keys) :
    table.rowSum size = ∑ key ∈ keys, (table[key]?.map size).getD 0 := by
  have distinct := nodup_keys table
  have present : ∀ key ∈ (table.toList.map (·.1)).toFinset, key ∈ keys := by
    intro key mem
    simp only [List.mem_toFinset, List.mem_map] at mem
    rcases mem with ⟨row, rowMem, rfl⟩
    exact covers row.1 row.2 ((mem_toList _ _ _).mp rowMem)
  rw [← Finset.sum_subset present]
  · rw [List.sum_toFinset _ distinct, rowSum, rows, List.map_map, List.map_map]
    apply congrArg List.sum
    apply List.map_congr_left
    intro row mem
    simp only [Function.comp_apply, (mem_toList _ _ _).mp mem, Option.map_some, Option.getD_some]
  · intro key mem absent
    cases known : table[key]? with
    | none => rfl
    | some row =>
        refine absurd (List.mem_toFinset.mpr (List.mem_map.mpr ⟨(key, row), ?_, rfl⟩)) absent
        exact (mem_toList _ _ _).mpr known

/-- A row that is stored adds at most its own size. -/
theorem rowSum_insert_le [DecidableEq κ] (table : Table κ ν) (key : κ) (row : ν) :
    rowSum size (table.insert key row) ≤ table.rowSum size + size row := by
  set keys := insert key table.keySet with keysEq
  have old : ∀ key row, table[key]? = some row → key ∈ keys := fun other stored known =>
    Finset.mem_insert_of_mem (mem_keySet other stored known)
  have new : ∀ (other : κ) stored, (table.insert key row)[other]? = some stored →
      other ∈ keys := by
    intro other stored known
    rw [lookup_insert] at known
    split at known
    · rename_i same
      exact same ▸ Finset.mem_insert_self _ _
    · exact old other stored known
  have here : ∑ other ∈ keys, (if key = other then size row else 0) = size row := by
    rw [Finset.sum_ite_eq, if_pos (Finset.mem_insert_self _ _)]
  rw [rowSum_eq_sum size new, rowSum_eq_sum size old, ← here, ← Finset.sum_add_distrib]
  apply Finset.sum_le_sum
  intro other _
  rw [lookup_insert]
  split
  · exact Nat.le_add_left _ _
  · exact Nat.le_add_right _ _

theorem rowSum_erase_le [DecidableEq κ] (table : Table κ ν) (key : κ) :
    rowSum size (table.erase key) ≤ table.rowSum size := by
  have old := @mem_keySet κ ν _ _ _ _ table
  have new : ∀ (other : κ) stored, (table.erase key)[other]? = some stored →
      other ∈ table.keySet := by
    intro other stored known
    rw [lookup_erase] at known
    split at known
    · cases known
    · exact old other stored known
  rw [rowSum_eq_sum size new, rowSum_eq_sum size old]
  apply Finset.sum_le_sum
  intro other _
  rw [lookup_erase]
  split
  · exact Nat.zero_le _
  · exact le_rfl

omit [LawfulEqOrd κ] in
theorem rowSum_empty : rowSum size (∅ : Table κ ν) = 0 := by
  rw [rowSum, rows, ExtTreeMap.toList_eq_nil_iff.mpr rfl]
  rfl

end RowSums
end Table

end TelemtPanel.Library
