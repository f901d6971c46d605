import TelemtPanel.Library.Recent

/-!
# Greedy choice of disjoint intervals

Items with an interval each are offered in some order, and an item is taken unless it meets
one that has been taken before.  The taken ones are kept sorted, so it is enough to look at
the two neighbours of the place of an offered item.
-/

namespace TelemtPanel.Library

universe u v

variable {α : Type u} {β : Type v} [LinearOrder β] (start finish : α → β)

/-- Takes an item unless one of its neighbours is in the way. -/
def insertDisjoint (selected : List α) (item : α) : List α :=
  let index := placeOf start selected (start item)
  if 0 < index ∧ (selected[index - 1]?).any fun before => decide (start item ≤ finish before) then
    selected
  else if (selected[index]?).any fun next => decide (start next ≤ finish item) then selected
  else selected.insertIdx index item

/-- Takes items in the order in which they are offered. -/
def selectDisjoint (items : List α) : List α := items.foldl (insertDisjoint start finish) []

/-- Closed intervals that meet. -/
def Overlap (left right : α) : Prop := start left ≤ finish right ∧ start right ≤ finish left

/-- Intervals one after the other. -/
def InOrder (selected : List α) : Prop := selected.Pairwise fun left right => finish left < start right

variable {start finish} {selected items more : List α} {item : α}

theorem Overlap.symm {left right : α} (overlap : Overlap start finish left right) :
    Overlap start finish right left :=
  ⟨overlap.2, overlap.1⟩

theorem InOrder.pairwise_start (inOrder : InOrder start finish selected)
    (ordered : ∀ item ∈ selected, start item ≤ finish item) :
    selected.Pairwise fun left right => start left < start right := by
  refine List.Pairwise.imp_of_mem ?_ inOrder
  intro left right leftMem _ less
  exact (ordered left leftMem).trans_lt less

theorem insertIdx_eq_append (index : ℕ) (inside : index ≤ selected.length) :
    selected.insertIdx index item = selected.take index ++ item :: selected.drop index := by
  induction selected generalizing index with
  | nil =>
      have zero : index = 0 := Nat.le_zero.mp inside
      simp [zero]
  | cons first rest ih =>
      cases index with
      | zero => rfl
      | succ index =>
          rw [List.insertIdx_succ_cons, ih index (Nat.le_of_succ_le_succ inside)]
          rfl

/-- An offered item meets a taken one, or it is taken between those before and after it. -/
theorem insertDisjoint_cases (inOrder : InOrder start finish selected)
    (ordered : ∀ item ∈ selected, start item ≤ finish item) (proper : start item ≤ finish item) :
    (insertDisjoint start finish selected item = selected ∧
      ∃ taken ∈ selected, Overlap start finish taken item) ∨
    ∃ before after, selected = before ++ after ∧
      insertDisjoint start finish selected item = before ++ item :: after ∧
      (∀ taken ∈ before, finish taken < start item) ∧ ∀ taken ∈ after, finish item < start taken := by
  have below : ∀ taken ∈ selected.take (placeOf start selected (start item)),
      start taken < start item := fun taken mem => lt_of_mem_take_placeOf mem
  have above : ∀ taken ∈ selected.drop (placeOf start selected (start item)),
      start item ≤ start taken := by
    intro taken mem
    rw [drop_placeOf (inOrder.pairwise_start ordered), List.mem_filter] at mem
    simpa using mem.2
  have inside : placeOf start selected (start item) ≤ selected.length := List.findIdx_le_length
  simp only [insertDisjoint]
  generalize placeOf start selected (start item) = index at below above inside ⊢
  have whole := List.take_append_drop index selected
  have parts : InOrder start finish (selected.take index ++ selected.drop index) := by
    rwa [whole]
  rcases List.pairwise_append.mp parts with ⟨front, back, -⟩
  split
  · rename_i blocked
    rcases blocked with ⟨positive, meets⟩
    rcases (Option.any_eq_true _ _).mp meets with ⟨taken, found, meets⟩
    have before : taken ∈ selected.take index := by
      apply List.mem_of_getElem?
      rw [List.getElem?_take_of_lt (Nat.sub_lt positive Nat.one_pos)]
      exact found
    exact .inl ⟨rfl, taken, List.mem_of_getElem? found, (below taken before).le.trans proper,
      of_decide_eq_true meets⟩
  · rename_i free
    split
    · rename_i blocked
      rcases (Option.any_eq_true _ _).mp blocked with ⟨taken, found, meets⟩
      have mem : taken ∈ selected := List.mem_of_getElem? found
      have after : taken ∈ selected.drop index := by
        apply List.mem_of_getElem? (i := 0)
        rw [List.getElem?_drop]
        exact found
      exact .inl ⟨rfl, taken, mem, of_decide_eq_true meets, (above taken after).trans (ordered taken mem)⟩
    · rename_i open_
      refine .inr ⟨selected.take index, selected.drop index, whole.symm,
        insertIdx_eq_append index inside, ?_, ?_⟩
      · rcases List.eq_nil_or_concat' (selected.take index) with nothing | ⟨others, last, split⟩
        · simp [nothing]
        · have isLast : selected[index - 1]? = some last := by
            have shown := List.getLast?_take (l := selected) (i := index)
            rw [split, List.getLast?_concat] at shown
            split at shown
            · cases shown
            · rename_i positive
              rw [List.getElem?_eq_getElem (by omega)] at shown ⊢
              exact shown.symm
          have positive : 0 < index := by
            by_contra none
            simp [Nat.eq_zero_of_not_pos none] at split
          have clear : finish last < start item := by
            by_contra meets
            exact free ⟨positive, by simpa [isLast] using not_lt.mp meets⟩
          rw [split] at front
          intro taken mem
          rw [split] at mem
          rcases List.mem_append.mp mem with mem | mem
          · have earlier := (List.pairwise_append.mp front).2.2 taken mem last (by simp)
            have lastMem : last ∈ selected := List.mem_of_getElem? isLast
            exact earlier.trans ((ordered last lastMem).trans_lt clear)
          · rw [List.mem_singleton.mp mem]
            exact clear
      · cases next : selected.drop index with
        | nil => simp
        | cons head rest =>
            have isNext : selected[index]? = some head := by
              have shown := @List.getElem?_drop _ selected index 0
              rw [next] at shown
              exact shown.symm
            have clear : finish item < start head := by
              by_contra meets
              exact open_ (by simpa [isNext] using not_lt.mp meets)
            rw [next] at back
            intro taken mem
            rcases List.mem_cons.mp mem with rfl | mem
            · exact clear
            · have later := (List.pairwise_cons.mp back).1 taken mem
              have headMem : head ∈ selected := List.mem_of_getElem? isNext
              exact clear.trans ((ordered head headMem).trans_lt later)

/-- What is taken, what is left out, and why. -/
structure Selection (start finish : α → β) (stronger : α → α → Prop) (items selected : List α) :
    Prop where
  inOrder : InOrder start finish selected
  omitted : ∃ omitted, (selected ++ omitted).Perm items ∧
    ∀ item ∈ omitted, ∃ taken ∈ selected, Overlap start finish taken item ∧ stronger taken item

/-- Taken items are disjoint, and an item is left out for an earlier one. -/
theorem selection_selectDisjoint {stronger : α → α → Prop} (offered : items.Pairwise stronger)
    (proper : ∀ item ∈ items, start item ≤ finish item) :
    Selection start finish stronger items (selectDisjoint start finish items) := by
  induction items using List.reverseRecOn with
  | nil => exact ⟨.nil, [], .refl _, by simp⟩
  | append_singleton items item ih =>
      rcases List.pairwise_append.mp offered with ⟨earlier, -, before⟩
      have selection := ih earlier fun other mem => proper other (by simp [mem])
      rcases selection.omitted with ⟨omitted, perm, reasons⟩
      have isItem : ∀ taken ∈ selectDisjoint start finish items, taken ∈ items := fun taken mem =>
        perm.subset (List.mem_append_left _ mem)
      have ordered : ∀ taken ∈ selectDisjoint start finish items, start taken ≤ finish taken :=
        fun taken mem => proper taken (by simp [isItem taken mem])
      have step : selectDisjoint start finish (items ++ [item]) =
          insertDisjoint start finish (selectDisjoint start finish items) item := by
        simp [selectDisjoint]
      rw [step]
      rcases insertDisjoint_cases selection.inOrder ordered (proper item (by simp)) with
        ⟨same, taken, mem, overlap⟩ | ⟨front, back, split, inserted, clearFront, clearBack⟩
      · rw [same]
        refine ⟨selection.inOrder, omitted ++ [item], ?_, ?_⟩
        · rw [← List.append_assoc]
          exact perm.append_right _
        · intro other isOmitted
          rcases List.mem_append.mp isOmitted with isOmitted | isOmitted
          · exact reasons other isOmitted
          · rw [List.mem_singleton.mp isOmitted]
            exact ⟨taken, mem, overlap, before taken (isItem taken mem) item (by simp)⟩
      · rw [inserted]
        have inOrder := selection.inOrder
        rw [split] at inOrder
        rcases List.pairwise_append.mp inOrder with ⟨frontOrder, backOrder, cross⟩
        refine ⟨?_, omitted, ?_, ?_⟩
        · refine List.pairwise_append.mpr ⟨frontOrder, List.pairwise_cons.mpr ⟨clearBack, backOrder⟩, ?_⟩
          intro left isLeft right isRight
          rcases List.mem_cons.mp isRight with rfl | isRight
          · exact clearFront left isLeft
          · exact cross left isLeft right isRight
        · rw [split] at perm
          have moved : (front ++ item :: back ++ omitted).Perm (item :: (front ++ back ++ omitted)) := by
            simp only [List.append_assoc, List.cons_append]
            exact List.perm_middle
          exact moved.trans ((perm.cons item).trans (List.perm_append_singleton item items).symm)
        · intro other isOmitted
          rcases reasons other isOmitted with ⟨taken, mem, reason⟩
          refine ⟨taken, ?_, reason⟩
          rw [split] at mem
          rcases List.mem_append.mp mem with mem | mem
          · exact List.mem_append_left _ mem
          · exact List.mem_append_right _ (List.mem_cons_of_mem _ mem)

theorem selectDisjoint_subset (offered : ∀ item ∈ items, start item ≤ finish item) :
    ∀ taken ∈ selectDisjoint start finish items, taken ∈ items := by
  have selection := @selection_selectDisjoint _ _ _ start finish items (fun _ _ => True)
    (List.pairwise_of_forall fun _ _ => trivial) offered
  rcases selection.omitted with ⟨omitted, perm, -⟩
  exact fun taken mem => perm.subset (List.mem_append_left _ mem)

/-- Items that are offered later do not change what is taken of the earlier ones. -/
theorem filter_selectDisjoint_append {keep : α → Bool}
    (proper : ∀ item ∈ items ++ more, start item ≤ finish item)
    (kept : ∀ item ∈ items, keep item = true) (dropped : ∀ item ∈ more, keep item = false) :
    (selectDisjoint start finish (items ++ more)).filter keep = selectDisjoint start finish items := by
  induction more using List.reverseRecOn with
  | nil =>
      rw [List.append_nil] at proper ⊢
      exact List.filter_eq_self.mpr fun item mem => kept item (selectDisjoint_subset proper item mem)
  | append_singleton more item ih =>
      have properBefore : ∀ other ∈ items ++ more, start other ≤ finish other := by
        intro other mem
        apply proper
        rw [← List.append_assoc]
        exact List.mem_append_left _ mem
      have same := ih properBefore fun other mem => dropped other (by simp [mem])
      have selection := @selection_selectDisjoint _ _ _ start finish (items ++ more)
        (fun _ _ => True) (List.pairwise_of_forall fun _ _ => trivial) properBefore
      have ordered : ∀ taken ∈ selectDisjoint start finish (items ++ more),
          start taken ≤ finish taken := fun taken mem =>
        properBefore taken (selectDisjoint_subset properBefore taken mem)
      have step : selectDisjoint start finish (items ++ (more ++ [item])) =
          insertDisjoint start finish (selectDisjoint start finish (items ++ more)) item := by
        simp [selectDisjoint]
      rw [step, ← same]
      rcases insertDisjoint_cases selection.inOrder ordered (proper item (by simp)) with
        ⟨unchanged, -⟩ | ⟨front, back, split, inserted, -, -⟩
      · rw [unchanged]
      · rw [inserted, split]
        simp [dropped item (by simp)]

end TelemtPanel.Library
