import Mathlib

/-!
# Wall clocks

A wall clock shows an instant with an offset that may change.  It is steady if its changes are
farther apart than twice a span, and none puts the clock back by more than this span.  It may then
show a time twice, but no other time lies behind: before a time is shown first, all times shown
are smaller.
-/

namespace TelemtPanel.Library.WallClock

/-- The time that a clock shows. -/
def reading (offset : ℤ → ℤ) (instant : ℤ) : ℤ := instant + offset instant

/-- The offset does not change in a span of instants, or once. -/
def ChangesOnce (offset : ℤ → ℤ) (start stop : ℤ) : Prop :=
  (∀ instant, start ≤ instant → instant ≤ stop → offset instant = offset start) ∨
    ∃ change, start < change ∧ change ≤ stop ∧
      (∀ instant, start ≤ instant → instant < change → offset instant = offset start) ∧
      ∀ instant, change ≤ instant → instant ≤ stop → offset instant = offset stop

structure Steady (span : ℤ) (offset : ℤ → ℤ) : Prop where
  positive : 0 < span
  apart : ∀ start stop, start ≤ stop → stop ≤ start + 2 * span → ChangesOnce offset start stop
  back : ∀ instant, offset instant - offset (instant + 1) ≤ span

namespace Steady

variable {span : ℤ} {offset : ℤ → ℤ} {wall first instant start stop : ℤ}

theorem reading_near (steady : Steady span offset) (ordered : start ≤ stop)
    (near : stop ≤ start + 2 * span) :
    reading offset start + (stop - start) - span ≤ reading offset stop := by
  have positive := steady.positive
  unfold reading
  rcases steady.apart start stop ordered near with same | ⟨change, after, before, old, new⟩
  · have last := same stop ordered le_rfl
    omega
  · have last := old (change - 1) (by omega) (by omega)
    have next := new change le_rfl before
    have back := steady.back (change - 1)
    rw [sub_add_cancel] at back
    omega

/-- No change makes up for the time that passes between two of them. -/
theorem reading_far (steady : Steady span offset) (far : start + 2 * span ≤ stop) :
    reading offset start < reading offset stop := by
  have positive := steady.positive
  have grows : ∀ steps : ℕ, ∀ start, start + 2 * span ≤ stop → stop ≤ start + 2 * span + steps →
      reading offset start < reading offset stop := by
    intro steps
    induction steps using Nat.strong_induction_on with
    | h steps ih =>
        intro start far close
        have middle := steady.reading_near (show start ≤ start + 2 * span by omega) le_rfl
        by_cases beyond : start + 4 * span ≤ stop
        · have rest := ih (steps - (2 * span).toNat) (by omega) (start + 2 * span) (by omega)
            (by omega)
          omega
        · rcases far.eq_or_lt with rfl | later
          · omega
          · have rest := steady.reading_near far (by omega)
            omega
  exact grows (stop - (start + 2 * span)).toNat start far (by omega)

/-- A clock never falls behind by more than the span. -/
theorem reading_sub_le (steady : Steady span offset) (ordered : start ≤ stop) :
    reading offset start - span ≤ reading offset stop := by
  have positive := steady.positive
  by_cases near : stop ≤ start + 2 * span
  · have drop := steady.reading_near ordered near
    omega
  · have grows := steady.reading_far (show start + 2 * span ≤ stop by omega)
    omega

/-- Between two instants that show times in the wrong order there is one change. -/
theorem fold (steady : Steady span offset) (ordered : start < stop)
    (behind : reading offset stop ≤ reading offset start) :
    offset start - offset stop ≤ span ∧
      ∀ other, stop - span ≤ other → other ≤ start → offset other = offset start := by
  have positive := steady.positive
  have near : stop < start + 2 * span := by
    by_contra far
    have grows := steady.reading_far (le_of_not_gt far)
    omega
  have drop := steady.reading_near ordered.le near.le
  have differ : offset start ≠ offset stop := by
    unfold reading at behind
    omega
  have limit : offset start - offset stop ≤ span := by
    unfold reading at drop
    omega
  refine ⟨limit, ?_⟩
  intro other recent early
  rcases steady.apart other stop (by omega) (by omega) with same | ⟨change, -, before, old, new⟩
  · exact absurd ((same start early ordered.le).trans (same stop (by omega) le_rfl).symm) differ
  · by_cases later : change ≤ start
    · exact absurd (new start later ordered.le) differ
    · exact (old start early (lt_of_not_ge later)).symm

/-- Before a time is shown first, only smaller ones are shown. -/
theorem reading_lt (steady : Steady span offset)
    (least : IsLeast {instant | reading offset instant = wall} first) (before : instant < first) :
    reading offset instant < wall := by
  by_contra reached
  have shown : reading offset first = wall := least.1
  rcases steady.fold before (by omega) with ⟨limit, same⟩
  -- the instant that showed the time earlier, at the offset of `instant`
  have earlier := same (instant - (reading offset instant - wall))
    (by unfold reading at *; omega) (by omega)
  have shows : reading offset (instant - (reading offset instant - wall)) = wall := by
    rw [reading, earlier]
    unfold reading
    omega
  have first_le := least.2 shows
  omega

theorem first_le (steady : Steady span offset)
    (least : IsLeast {instant | reading offset instant = wall} first)
    (reached : wall ≤ reading offset instant) : first ≤ instant := by
  by_contra before
  exact absurd (steady.reading_lt least (lt_of_not_ge before)) (not_lt_of_ge reached)

/-- Later times are shown first later. -/
theorem first_lt_first (steady : Steady span offset) {later next : ℤ}
    (least : IsLeast {instant | reading offset instant = wall} first)
    (leastLater : IsLeast {instant | reading offset instant = later} next) (less : wall < later) :
    first < next := by
  have shown : reading offset first = wall := least.1
  have shownLater : reading offset next = later := leastLater.1
  refine lt_of_le_of_ne (steady.first_le least (by omega)) ?_
  rintro rfl
  omega

/-- A time is shown at most twice. -/
theorem isLeast_of_shown_again (steady : Steady span offset) (ordered : start < stop)
    (shows : reading offset start = wall) (again : reading offset stop = wall) :
    IsLeast {instant | reading offset instant = wall} start := by
  refine ⟨shows, ?_⟩
  intro other earlier
  have earlier : reading offset other = wall := earlier
  by_contra before
  rcases steady.fold ordered (by omega) with ⟨-, same⟩
  rcases steady.fold (show other < stop by omega) (by omega) with ⟨limit, -⟩
  have sameOffset := same other (by unfold reading at *; omega) (by omega)
  unfold reading at *
  omega

/-- An offset that is in force on the other side of a gap does not lead back to the minute that
is skipped, if all gaps last at least a minute. -/
theorem skipped (steady : Steady span offset) {minute change : ℤ} (short : minute < span)
    (gaps : ∀ instant, ¬(0 < offset (instant + 1) - offset instant ∧
      offset (instant + 1) - offset instant < minute))
    (notShown : ∀ instant, reading offset instant ≠ wall)
    (after : change + offset (change - 1) ≤ wall) (before : wall < change + offset change)
    (involved : instant = wall - offset (change - 1) ∨ instant = wall - offset change) :
    ¬(wall ≤ reading offset instant ∧ reading offset instant < wall + minute) := by
  rintro ⟨lower, upper⟩
  have positive := steady.positive
  have differ := notShown instant
  have gap := gaps (change - 1)
  rw [sub_add_cancel] at gap
  rcases involved with early | late
  · have following : ∀ other, change ≤ other → other ≤ change - 1 + 2 * span →
        offset other = offset change := by
      intro other isAfter near
      rcases steady.apart (change - 1) other (by omega) near with same | ⟨next, later, _, old, new⟩
      · have here := same change (by omega) isAfter
        omega
      · have isNext : next = change := by
          by_contra other
          have here := old change (by omega) (by omega)
          omega
        subst isNext
        have last := new next le_rfl isAfter
        omega
    by_cases near : instant ≤ change - 1 + 2 * span
    · have same := following instant (by omega) near
      unfold reading at *
      omega
    · have same := following (change - 1 + 2 * span) (by omega) le_rfl
      have drop := steady.reading_sub_le (show change - 1 + 2 * span ≤ instant by omega)
      unfold reading at *
      omega
  · have preceding : ∀ other, change - 2 * span ≤ other → other < change →
        offset other = offset (change - 1) := by
      intro other near isBefore
      rcases steady.apart other change isBefore.le (by omega) with same | ⟨next, _, upTo, old, new⟩
      · have here := same change isBefore.le le_rfl
        have last := same (change - 1) (by omega) (by omega)
        omega
      · have isNext : next = change := by
          by_contra other
          have here := new (change - 1) (by omega) (by omega)
          omega
        subst isNext
        exact (old (next - 1) (by omega) (by omega)).symm
    by_cases near : change - 2 * span ≤ instant
    · have same := preceding instant near (by omega)
      unfold reading at *
      omega
    · have same := preceding (change - 2 * span) le_rfl (by omega)
      have drop := steady.reading_sub_le (show instant ≤ change - 2 * span by omega)
      unfold reading at *
      omega

end Steady

section Transitions

/-- The offset after the last transition that is not later. -/
def offsetFrom : ℤ → List (ℤ × ℤ) → ℤ → ℤ
  | base, [], _ => base
  | base, (change, offset) :: transitions, instant =>
      if instant < change then base else offsetFrom offset transitions instant

/-- Offsets that are given by transitions change at these only. -/
theorem changesOnce_offsetFrom {gap : ℤ} (transitions : List (ℤ × ℤ)) (base : ℤ)
    (apart : transitions.IsChain fun first next => first.1 + gap < next.1) {start stop : ℤ}
    (near : stop ≤ start + gap) : ChangesOnce (offsetFrom base transitions) start stop := by
  induction transitions generalizing base with
  | nil =>
      left
      intro instant _ _
      rfl
  | cons transition transitions ih =>
      rcases transition with ⟨change, offset⟩
      have rest := ih offset apart.of_cons
      by_cases none : stop < change
      · left
        intro instant _ upTo
        simp only [offsetFrom]
        rw [if_pos (by omega), if_pos (by omega)]
      · by_cases started : change ≤ start
        · have same : ∀ instant, start ≤ instant →
              offsetFrom base ((change, offset) :: transitions) instant =
                offsetFrom offset transitions instant := by
            intro instant after
            simp only [offsetFrom]
            rw [if_neg (by omega)]
          rcases rest with constant | ⟨next, after, upTo, old, new⟩
          · left
            intro instant after upTo
            rw [same instant after, same start le_rfl]
            exact constant instant after upTo
          · right
            refine ⟨next, after, upTo, ?_, ?_⟩
            · intro instant isAfter before
              rw [same instant isAfter, same start le_rfl]
              exact old instant isAfter before
            · intro instant isAfter isUpTo
              rw [same instant (by omega), same stop (by omega)]
              exact new instant isAfter isUpTo
        · have settled : ∀ instant, change ≤ instant → instant ≤ stop →
              offsetFrom base ((change, offset) :: transitions) instant = offset := by
            intro instant after upTo
            simp only [offsetFrom]
            rw [if_neg (by omega)]
            cases transitions with
            | nil => rfl
            | cons next transitions =>
                have later := (List.isChain_cons_cons.mp apart).1
                simp only at later
                rw [offsetFrom, if_pos (by omega)]
          right
          refine ⟨change, by omega, by omega, ?_, ?_⟩
          · intro instant _ before
            simp only [offsetFrom]
            rw [if_pos before, if_pos (by omega)]
          · intro instant after upTo
            rw [settled instant after upTo, settled stop (by omega) le_rfl]

end Transitions

end TelemtPanel.Library.WallClock
