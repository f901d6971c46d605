import TelemtPanel.Library.Sorter

/-!
# Buffers of recent items

A list without equal ranks, in increasing order, is a map from ranks to items.  A binary
search finds the place of a rank; the new item takes the place of the old one, or moves
the later ones up.  Dropping a prefix leaves the items of the greatest ranks, and what has
been dropped so never comes back.
-/

namespace TelemtPanel.Library

universe u v

section Place

variable {α : Type u} {β : Type v} [LinearOrder β] (rank : α → β)

/-- Position of the first item whose rank is not below a bound. -/
def placeOf (items : List α) (bound : β) : ℕ := items.findIdx fun item => decide (bound ≤ rank item)

/-- Overwrites the item of the same rank, or inserts a new one. -/
def place (items : List α) (item : α) : List α :=
  let index := placeOf rank items (rank item)
  if (items[index]?).any fun other => decide (rank other = rank item) then items.set index item
  else items.insertIdx index item

variable {rank} {items rest : List α} {first item other : α} {bound : β}

theorem placeOf_cons_of_lt (below : rank first < bound) :
    placeOf rank (first :: rest) bound = placeOf rank rest bound + 1 := by
  simp [placeOf, List.findIdx_cons, not_le.mpr below]

theorem placeOf_cons_of_le (above : bound ≤ rank first) : placeOf rank (first :: rest) bound = 0 := by
  simp [placeOf, List.findIdx_cons, above]

/-- In a sorted list a bound splits what is below it from the rest. -/
theorem drop_placeOf (ordered : items.Pairwise fun a b => rank a < rank b) (bound : β) :
    items.drop (placeOf rank items bound) = items.filter fun item => decide (bound ≤ rank item) := by
  induction items with
  | nil => rfl
  | cons first rest ih =>
      rcases List.pairwise_cons.mp ordered with ⟨least, restOrdered⟩
      rcases lt_or_ge (rank first) bound with below | above
      · rw [placeOf_cons_of_lt below, List.drop_succ_cons, ih restOrdered]
        simp [below]
      · rw [placeOf_cons_of_le above, List.drop_zero]
        symm
        apply List.filter_eq_self.mpr
        intro other mem
        rcases List.mem_cons.mp mem with rfl | mem
        · simpa using above
        · simpa using above.trans (least other mem).le

theorem lt_of_mem_take_placeOf (mem : item ∈ items.take (placeOf rank items bound)) :
    rank item < bound := by
  induction items with
  | nil => simp at mem
  | cons first rest ih =>
      rcases lt_or_ge (rank first) bound with below | above
      · rw [placeOf_cons_of_lt below, List.take_succ_cons] at mem
        rcases List.mem_cons.mp mem with rfl | mem
        · exact below
        · exact ih mem
      · rw [placeOf_cons_of_le above] at mem
        simp at mem

theorem place_cons_of_lt (below : rank first < rank item) :
    place rank (first :: rest) item = first :: place rank rest item := by
  simp only [place, placeOf_cons_of_lt below, List.getElem?_cons_succ, List.set_cons_succ,
    List.insertIdx_succ_cons]
  split <;> rfl

theorem place_cons_of_eq (same : rank first = rank item) :
    place rank (first :: rest) item = item :: rest := by
  simp [place, placeOf_cons_of_le same.ge, same]

theorem place_cons_of_gt (above : rank item < rank first) :
    place rank (first :: rest) item = item :: first :: rest := by
  simp [place, placeOf_cons_of_le above.le, above.ne']

theorem mem_place (ordered : items.Pairwise fun a b => rank a < rank b) :
    other ∈ place rank items item ↔ other = item ∨ other ∈ items ∧ rank other ≠ rank item := by
  induction items with
  | nil => simp [place, placeOf]
  | cons first rest ih =>
      rcases List.pairwise_cons.mp ordered with ⟨least, restOrdered⟩
      have apart (above : rank item ≤ rank first) : ∀ {other}, other ∈ rest →
          rank other ≠ rank item := fun mem => (above.trans_lt (least _ mem)).ne'
      rcases lt_trichotomy (rank first) (rank item) with below | same | above
      · rw [place_cons_of_lt below, List.mem_cons, List.mem_cons, ih restOrdered]
        constructor
        · rintro (rfl | rfl | ⟨mem, differs⟩)
          · exact .inr ⟨.inl rfl, below.ne⟩
          · exact .inl rfl
          · exact .inr ⟨.inr mem, differs⟩
        · rintro (rfl | ⟨rfl | mem, differs⟩)
          · exact .inr (.inl rfl)
          · exact .inl rfl
          · exact .inr (.inr ⟨mem, differs⟩)
      · rw [place_cons_of_eq same, List.mem_cons, List.mem_cons]
        constructor
        · rintro (rfl | mem)
          · exact .inl rfl
          · exact .inr ⟨.inr mem, apart same.ge mem⟩
        · rintro (rfl | ⟨rfl | mem, differs⟩)
          · exact .inl rfl
          · exact absurd same differs
          · exact .inr mem
      · rw [place_cons_of_gt above, List.mem_cons, List.mem_cons]
        constructor
        · rintro (rfl | rfl | mem)
          · exact .inl rfl
          · exact .inr ⟨.inl rfl, above.ne'⟩
          · exact .inr ⟨.inr mem, apart above.le mem⟩
        · rintro (rfl | ⟨mem, -⟩)
          · exact .inl rfl
          · exact .inr mem

theorem pairwise_place (ordered : items.Pairwise fun a b => rank a < rank b) :
    (place rank items item).Pairwise fun a b => rank a < rank b := by
  induction items with
  | nil => simp [place, placeOf]
  | cons first rest ih =>
      rcases List.pairwise_cons.mp ordered with ⟨least, restOrdered⟩
      rcases lt_trichotomy (rank first) (rank item) with below | same | above
      · rw [place_cons_of_lt below]
        refine List.pairwise_cons.mpr ⟨?_, ih restOrdered⟩
        intro other mem
        rcases (mem_place restOrdered).mp mem with rfl | ⟨mem, -⟩
        · exact below
        · exact least other mem
      · rw [place_cons_of_eq same]
        rw [same] at least
        exact List.pairwise_cons.mpr ⟨least, restOrdered⟩
      · rw [place_cons_of_gt above]
        refine List.pairwise_cons.mpr ⟨?_, ordered⟩
        intro other mem
        rcases List.mem_cons.mp mem with rfl | mem
        · exact above
        · exact above.trans (least other mem)

end Place

section Newest

variable {α : Type u} {β : Type v} [LinearOrder β] {rank : α → β} {items : List α} {item : α}

/-- The last items of a sorted list are those with few greater ones. -/
theorem mem_drop_length_sub (ordered : items.Pairwise fun a b => rank a < rank b) (bound : ℕ) :
    item ∈ items.drop (items.length - bound) ↔
      item ∈ items ∧ (items.filter fun other => decide (rank item < rank other)).length < bound := by
  induction items with
  | nil => simp
  | cons first rest ih =>
      rcases List.pairwise_cons.mp ordered with ⟨least, restOrdered⟩
      rcases Nat.lt_or_ge rest.length bound with room | full
      · have all : (first :: rest).length - bound = 0 := by
          rw [List.length_cons]
          omega
        rw [all, List.drop_zero]
        refine ⟨fun mem => ⟨mem, ?_⟩, And.left⟩
        rcases List.mem_cons.mp mem with rfl | mem
        · simpa using (List.length_filter_le _ rest).trans_lt room
        · have smaller : ¬rank item < rank first := (least item mem).le.not_gt
          simpa [smaller] using (List.length_filter_le _ rest).trans_lt room
      · have tail : (first :: rest).length - bound = rest.length - bound + 1 := by
          rw [List.length_cons]
          omega
        rw [tail, List.drop_succ_cons, ih restOrdered]
        constructor
        · rintro ⟨mem, few⟩
          have smaller : ¬rank item < rank first := (least item mem).le.not_gt
          exact ⟨List.mem_cons_of_mem _ mem, by simpa [smaller] using few⟩
        · rintro ⟨mem, few⟩
          rcases List.mem_cons.mp mem with rfl | mem
          · have all : rest.filter (fun other => decide (rank item < rank other)) = rest := by
              apply List.filter_eq_self.mpr
              intro other isLater
              simpa using least other isLater
            simp [all] at few
            omega
          · have smaller : ¬rank item < rank first := (least item mem).le.not_gt
            exact ⟨mem, by simpa [smaller] using few⟩

/-- How many of some ranks are greater than a given one. -/
def above (ranks : Finset β) (bound : β) : ℕ := (ranks.filter (bound < ·)).card

theorem above_mono {ranks others : Finset β} (sub : ranks ⊆ others) (bound : β) :
    above ranks bound ≤ above others bound :=
  Finset.card_le_card (Finset.filter_subset_filter _ sub)

theorem above_anti (ranks : Finset β) {low high : β} (le : low ≤ high) :
    above ranks high ≤ above ranks low := by
  apply Finset.card_le_card
  intro bound mem
  rw [Finset.mem_filter] at mem ⊢
  exact ⟨mem.1, le.trans_lt mem.2⟩

/-- What is missing among the greatest ranks has enough of them above it. -/
theorem above_lt_iff {kept all : Finset β} {bound : ℕ} {low : β} (sub : kept ⊆ all)
    (dropped : ∀ high ∈ all, high ∉ kept → low < high → bound ≤ above all high) :
    above kept low < bound ↔ above all low < bound := by
  constructor
  · intro few
    by_contra many
    have proper : ∃ high ∈ all.filter (low < ·), high ∉ kept := by
      by_contra none
      push Not at none
      refine many (lt_of_le_of_lt (Finset.card_le_card ?_) few)
      intro high mem
      exact Finset.mem_filter.mpr ⟨none high mem, (Finset.mem_filter.mp mem).2⟩
    -- Above the greatest rank that is missing nothing is missing.
    rcases proper with ⟨high, mem, missing⟩
    have some : ((all.filter (low < ·)).filter (· ∉ kept)).Nonempty :=
      ⟨high, Finset.mem_filter.mpr ⟨mem, missing⟩⟩
    have greatest := Finset.max'_mem _ some
    set top := ((all.filter (low < ·)).filter (· ∉ kept)).max' some with topEq
    simp only [Finset.mem_filter] at greatest
    have enough := dropped top greatest.1.1 greatest.2 greatest.1.2
    have same : above all top ≤ above kept top := by
      apply Finset.card_le_card
      intro other isAbove
      rw [Finset.mem_filter] at isAbove ⊢
      refine ⟨?_, isAbove.2⟩
      by_contra absent
      have atMost := Finset.le_max' ((all.filter (low < ·)).filter (· ∉ kept)) other
        (by simp [isAbove.1, absent, greatest.1.2.trans isAbove.2])
      exact absurd isAbove.2 atMost.not_gt
    have := above_anti kept greatest.1.2.le
    omega
  · exact (above_mono sub low).trans_lt

end Newest

end TelemtPanel.Library
