import Mathlib

/-!
# Cutting UTF-8 text

A rune is encoded by a lead byte and as many continuation bytes as the lead byte
asks for; the first of them may be restricted further.  A byte sequence that holds
a text need not be well formed.  A cut at a position separates a rune when a
well-formed encoding begins before the position and ends after it.

A reader that only has the part in front of the cut cannot know what follows.  It
sees whether the part ends in the beginning of an encoding, and may leave that
beginning out.  The result is the longest part that separates no rune exactly when
the text goes on to complete what was begun.
-/

namespace TelemtPanel.Library

/-- Whether a byte may be the first of an encoding: it is not a continuation byte. -/
def runeStart (b : UInt8) : Bool := b &&& 0xC0 != 0x80

/-- Number of bytes that a first byte asks for; a byte that begins no encoding stands alone. -/
def runeWidth (b : UInt8) : ℕ :=
  if b < 0xC2 then 1
  else if b < 0xE0 then 2
  else if b < 0xF0 then 3
  else if b < 0xF5 then 4
  else 1

/-- Whether a byte begins an encoding. -/
def isLead (b : UInt8) : Bool := b < 0x80 || (0xC2 ≤ b && b < 0xF5)

/-- Least and greatest second byte behind a first byte. -/
def acceptRange (lead : UInt8) : UInt8 × UInt8 :=
  if lead = 0xE0 then (0xA0, 0xBF)
  else if lead = 0xED then (0x80, 0x9F)
  else if lead = 0xF0 then (0x90, 0xBF)
  else if lead = 0xF4 then (0x80, 0x8F)
  else (0x80, 0xBF)

/-- Least and greatest byte at an index behind the first one. -/
def byteRange (lead : UInt8) : ℕ → UInt8 × UInt8
  | 0 => acceptRange lead
  | _ + 1 => (0x80, 0xBF)

/-- A byte may stand at an index behind the first one. -/
def Accepts (lead : UInt8) (index : ℕ) (b : UInt8) : Prop :=
  (byteRange lead index).1 ≤ b ∧ b ≤ (byteRange lead index).2

instance decidableAccepts (lead : UInt8) (index : ℕ) (b : UInt8) :
    Decidable (Accepts lead index b) := inferInstanceAs (Decidable (_ ∧ _))

/-- Whether bytes begin with a complete encoding, or with a byte sequence that no
continuation makes an encoding. -/
def fullRune : List UInt8 → Bool
  | [] => false
  | lead :: rest =>
      decide (runeWidth lead ≤ rest.length + 1) ||
        (rest.head?.any fun b => !decide (Accepts lead 0 b)) ||
        (rest[1]?.any fun b => !decide (Accepts lead 1 b))

/-- The encoding of one rune. -/
inductive Rune : List UInt8 → Prop where
  | mk {lead : UInt8} {rest : List UInt8} (begins : isLead lead = true)
      (width : rest.length + 1 = runeWidth lead)
      (accepted : ∀ index b, rest[index]? = some b → Accepts lead index b) : Rune (lead :: rest)

/-- Cutting a text at a position separates a rune. -/
def Separates (text : List UInt8) (position : ℕ) : Prop :=
  ∃ start rune, Rune rune ∧ rune <+: text.drop start ∧ start < position ∧
    position < start + rune.length

/-- Bytes that a continuation makes the encoding of a rune. -/
def Unfinished (part : List UInt8) : Prop :=
  part ≠ [] ∧ ∃ more, more ≠ [] ∧ Rune (part ++ more)

/-- A text ends in the beginning of an encoding. -/
def EndsUnfinished (text : List UInt8) : Prop := ∃ start, Unfinished (text.drop start)

open Classical in
/-- Length of the longest part of a text within a limit that separates no rune. -/
noncomputable def unseparated (text : List UInt8) (limit : ℕ) : ℕ :=
  Nat.findGreatest (fun position => ¬Separates text position) limit

/-- Leaves out what follows the last byte that may be the first of an encoding, and that byte,
when they are the beginning of one. -/
def trimUnfinished (part : List UInt8) : List UInt8 :=
  match part.reverse.dropWhile fun b => !runeStart b with
  | [] => part
  | _ :: before =>
      if fullRune (part.drop before.length) then part else part.take before.length

theorem runeStart_iff (b : UInt8) : runeStart b = true ↔ ¬(0x80 ≤ b ∧ b ≤ 0xBF) := by
  revert b
  decide +kernel

theorem runeStart_of_isLead {b : UInt8} (begins : isLead b = true) : runeStart b = true := by
  revert b
  decide +kernel

theorem isLead_of_runeWidth {b : UInt8} (wide : 1 < runeWidth b) : isLead b = true := by
  revert b
  decide +kernel

theorem acceptRange_bounds (lead : UInt8) : 0x80 ≤ (acceptRange lead).1 ∧
    (acceptRange lead).1 ≤ (acceptRange lead).2 ∧ (acceptRange lead).2 ≤ 0xBF := by
  revert lead
  decide +kernel

theorem runeWidth_le (b : UInt8) : runeWidth b ≤ 4 := by
  revert b
  decide +kernel

/-- What may stand behind a first byte begins no encoding. -/
theorem Accepts.not_runeStart {lead b : UInt8} {index : ℕ} (accepted : Accepts lead index b) :
    runeStart b = false := by
  rw [← Bool.not_eq_true, runeStart_iff, not_not]
  cases index with
  | zero =>
      rcases acceptRange_bounds lead with ⟨low, -, high⟩
      exact ⟨UInt8.le_trans low accepted.1, UInt8.le_trans accepted.2 high⟩
  | succ index => exact accepted

theorem accepts_low (lead : UInt8) (index : ℕ) :
    Accepts lead index (byteRange lead index).1 := by
  cases index with
  | zero => exact ⟨UInt8.le_refl _, (acceptRange_bounds lead).2.1⟩
  | succ index => exact ⟨UInt8.le_refl _, (by decide : (0x80 : UInt8) ≤ 0xBF)⟩

/-- An encoding has its only first byte at its head. -/
theorem Rune.starts {rune : List UInt8} (isRune : Rune rune) : ∃ lead rest,
    rune = lead :: rest ∧ runeStart lead = true ∧ ∀ b ∈ rest, runeStart b = false := by
  rcases isRune with @⟨lead, rest, begins, -, accepted⟩
  refine ⟨lead, rest, rfl, runeStart_of_isLead begins, ?_⟩
  intro b mem
  rcases List.mem_iff_getElem?.mp mem with ⟨index, found⟩
  exact (accepted index b found).not_runeStart

theorem unfinished_iff (part : List UInt8) :
    Unfinished part ↔ part ≠ [] ∧ fullRune part = false := by
  cases part with
  | nil => simp [Unfinished]
  | cons lead rest =>
      simp only [Unfinished, ne_eq, reduceCtorEq, not_false_eq_true, true_and, List.cons_append]
      constructor
      · rintro ⟨more, nonempty, isRune⟩
        cases isRune with
        | mk begins width accepted =>
            have longer := List.length_pos_iff.mpr nonempty
            rw [List.length_append] at width
            have kept : ∀ index b, rest[index]? = some b → Accepts lead index b := by
              intro index b found
              refine accepted index b ?_
              rw [List.getElem?_append_left (List.getElem?_eq_some_iff.mp found).1, found]
            simp only [fullRune, Bool.or_eq_false_iff, decide_eq_false_iff_not, not_le]
            refine ⟨⟨by omega, ?_⟩, ?_⟩
            · rw [List.head?_eq_getElem?]
              cases found : rest[0]? with
              | none => rfl
              | some b => simp [kept 0 b found]
            · cases found : rest[1]? with
              | none => rfl
              | some b => simp [kept 1 b found]
      · intro notFull
        simp only [fullRune, Bool.or_eq_false_iff, decide_eq_false_iff_not, not_le] at notFull
        rcases notFull with ⟨⟨short, second⟩, third⟩
        have width := runeWidth_le lead
        refine ⟨(List.range (runeWidth lead - rest.length - 1)).map fun index =>
          (byteRange lead (rest.length + index)).1, ?_, ?_⟩
        · rw [List.map_eq_nil_iff, List.range_eq_nil]
          omega
        · refine .mk (isLead_of_runeWidth (by omega)) ?_ ?_
          · rw [List.length_append, List.length_map, List.length_range]
            omega
          · intro index b found
            rcases lt_or_ge index rest.length with inside | behind
            · rw [List.getElem?_append_left inside] at found
              have two : index = 0 ∨ index = 1 := by omega
              rcases two with rfl | rfl
              · rw [List.head?_eq_getElem?, found] at second
                simpa using second
              · rw [found] at third
                simpa using third
            · rw [List.getElem?_append_right behind, List.getElem?_map,
                Option.map_eq_some_iff] at found
              rcases found with ⟨offset, isOffset, rfl⟩
              have same := (List.getElem?_eq_some_iff.mp isOffset).2
              rw [List.getElem_range] at same
              rw [← same, Nat.add_sub_cancel' behind]
              exact accepts_low lead index

section Cut

variable {text front rest : List UInt8} {lead : UInt8} {limit start position : ℕ}

/-- What stands in front of the cut of a rune is the beginning of its encoding. -/
theorem Rune.unfinished {rune : List UInt8} (isRune : Rune rune) (inText : rune <+: text.drop start)
    (before : start < position) (after : position < start + rune.length) :
    Unfinished ((text.take position).drop start) := by
  rcases inText with ⟨behind, same⟩
  have dropped : (text.take position).drop start = rune.take (position - start) := by
    rw [List.drop_take, ← same, List.take_append_of_le_length (by omega)]
  refine ⟨?_, rune.drop (position - start), ?_, ?_⟩
  · rw [dropped, ← List.length_pos_iff, List.length_take]
    omega
  · rw [← List.length_pos_iff, List.length_drop]
    omega
  · rw [dropped, List.take_append_drop]
    exact isRune

theorem Separates.unfinished (separates : Separates text position) :
    EndsUnfinished (text.take position) := by
  rcases separates with ⟨start, rune, isRune, inText, before, after⟩
  exact ⟨start, isRune.unfinished inText before after⟩

/-- The beginning of an encoding is what follows the last first byte. -/
theorem start_of_unfinished (unfinished : Unfinished ((front ++ lead :: rest).drop start))
    (starts : runeStart lead = true) (follows : ∀ b ∈ rest, runeStart b = false) :
    start = front.length := by
  rcases unfinished with ⟨nonempty, more, -, isRune⟩
  rcases isRune.starts with ⟨first, others, same, firstStarts, othersFollow⟩
  rcases lt_trichotomy start front.length with earlier | rfl | later
  · rw [List.drop_append_of_le_length earlier.le] at same
    rcases List.exists_cons_of_length_pos (l := front.drop start)
      (by rw [List.length_drop]; omega) with ⟨b, more', isHead⟩
    rw [isHead, List.cons_append, List.cons_append, List.cons_eq_cons] at same
    have noStart := othersFollow lead (same.2 ▸ by simp)
    rw [starts] at noStart
    cases noStart
  · rfl
  · have inRest : first ∈ rest := by
      have isHead : ((front ++ lead :: rest).drop start).head? = some first := by
        rcases List.exists_cons_of_ne_nil nonempty with ⟨b, more', isCons⟩
        rw [isCons, List.cons_append, List.cons_eq_cons] at same
        rw [isCons, List.head?_cons, same.1]
      have further : (front ++ lead :: rest).drop start =
          rest.drop (start - front.length - 1) := by
        rw [List.drop_append, List.drop_of_length_le later.le, List.nil_append,
          show start - front.length = (start - front.length - 1) + 1 by omega,
          List.drop_succ_cons]
        simp
      rw [further] at isHead
      exact List.mem_of_mem_drop (List.mem_of_mem_head? isHead)
    rw [follows first inRest] at firstStarts
    cases firstStarts

/-- A text either holds no first byte, or ends in its last one and what follows it. -/
theorem split_lastStart (part : List UInt8) :
    (∀ b ∈ part, runeStart b = false) ∧ trimUnfinished part = part ∨
      ∃ front lead rest, part = front ++ lead :: rest ∧ runeStart lead = true ∧
        (∀ b ∈ rest, runeStart b = false) ∧
        trimUnfinished part = if fullRune (lead :: rest) then part else front := by
  have whole := List.takeWhile_append_dropWhile (p := fun b => !runeStart b) (l := part.reverse)
  have inTail : ∀ b ∈ part.reverse.takeWhile fun b => !runeStart b, runeStart b = false := by
    intro b mem
    simpa using List.mem_takeWhile_imp mem
  unfold trimUnfinished
  split
  · rename_i none
    left
    rw [none, List.append_nil] at whole
    refine ⟨?_, rfl⟩
    intro b mem
    rw [whole] at inTail
    exact inTail b (List.mem_reverse.mpr mem)
  · rename_i lead before found
    right
    have starts := List.head?_dropWhile_not (fun b => !runeStart b) part.reverse
    rw [found] at starts whole
    have same := congrArg List.reverse whole
    rw [List.reverse_reverse, List.reverse_append, List.reverse_cons, List.append_assoc,
      List.singleton_append] at same
    refine ⟨before.reverse, lead, _, same.symm, by simpa using starts, ?_, ?_⟩
    · intro b mem
      exact inTail b (List.mem_reverse.mp mem)
    · have dropped := congrArg (List.drop before.reverse.length) same
      have taken := congrArg (List.take before.reverse.length) same
      rw [List.drop_left, List.length_reverse] at dropped
      rw [List.take_left, List.length_reverse] at taken
      rw [← dropped, ← taken]

theorem isGreatest_unseparated (text : List UInt8) (limit : ℕ) :
    IsGreatest {position | position ≤ limit ∧ ¬Separates text position}
      (unseparated text limit) := by
  classical
  have zero : ¬Separates text 0 := fun ⟨_, _, _, _, before, _⟩ => absurd before (Nat.not_lt_zero _)
  refine ⟨⟨Nat.findGreatest_le _, ?_⟩, ?_⟩
  · exact Nat.findGreatest_spec (P := fun position => ¬Separates text position)
      (Nat.zero_le limit) zero
  · rintro position ⟨within, whole⟩
    exact Nat.le_findGreatest within whole

theorem unseparated_eq_limit (whole : ¬Separates text limit) : unseparated text limit = limit :=
  (isGreatest_unseparated text limit).unique ⟨⟨le_refl _, whole⟩, fun _ known => known.1⟩

/-- A position in front of a first byte separates no rune. -/
theorem not_separates_of_runeStart (found : text[position]? = some lead)
    (starts : runeStart lead = true) : ¬Separates text position := by
  rintro ⟨start, rune, isRune, ⟨behind, same⟩, before, after⟩
  rcases isRune.starts with ⟨first, others, rfl, -, follows⟩
  have inOthers : others[position - start - 1]? = some lead := by
    rw [List.length_cons] at after
    rw [show position = start + (position - start - 1 + 1) by omega, ← List.getElem?_drop, ← same,
      List.cons_append, List.getElem?_cons_succ, List.getElem?_append_left (by omega)] at found
    exact found
  rw [follows lead (List.mem_of_getElem? inOthers)] at starts
  cases starts

/-- A rune that the limit separates is left out. -/
theorem unseparated_eq_start (separates : Separates text limit)
    (same : text.take limit = front ++ lead :: rest) (starts : runeStart lead = true)
    (follows : ∀ b ∈ rest, runeStart b = false) : unseparated text limit = front.length := by
  rcases separates with ⟨start, rune, isRune, inText, before, after⟩
  have unfinished := isRune.unfinished inText before after
  rw [same] at unfinished
  have isStart := start_of_unfinished unfinished starts follows
  subst isStart
  refine (isGreatest_unseparated text limit).unique ⟨⟨before.le, ?_⟩, ?_⟩
  · refine not_separates_of_runeStart ?_ starts
    rw [← List.getElem?_take_of_lt before, same, List.getElem?_append_right (le_refl _),
      Nat.sub_self, List.getElem?_cons_zero]
  · rintro position ⟨within, whole⟩
    refine not_lt.mp fun behind => whole ?_
    exact ⟨front.length, rune, isRune, inText, behind, within.trans_lt after⟩

/-- Leaving out the beginning of an encoding gives the longest part that separates no rune exactly
when the text completes it. -/
theorem trimUnfinished_take_iff (fits : limit ≤ text.length) :
    trimUnfinished (text.take limit) = text.take (unseparated text limit) ↔
      (EndsUnfinished (text.take limit) → Separates text limit) := by
  have isWhole : ¬EndsUnfinished (text.take limit) →
      text.take (unseparated text limit) = text.take limit := fun noEnd => by
    rw [unseparated_eq_limit fun separates => noEnd separates.unfinished]
  rcases split_lastStart (text.take limit) with ⟨follows, trimmed⟩ |
    ⟨front, lead, rest, same, starts, follows, trimmed⟩
  · have noEnd : ¬EndsUnfinished (text.take limit) := by
      rintro ⟨start, nonempty, more, -, isRune⟩
      rcases isRune.starts with ⟨lead, others, isHead, starts, -⟩
      rcases List.exists_cons_of_ne_nil nonempty with ⟨first, others', isCons⟩
      rw [isCons, List.cons_append, List.cons_eq_cons] at isHead
      have mem : first ∈ (text.take limit).drop start := isCons ▸ List.mem_cons_self
      rw [← isHead.1, follows first (List.mem_of_mem_drop mem)] at starts
      cases starts
    rw [trimmed, isWhole noEnd]
    exact iff_of_true rfl fun ends => absurd ends noEnd
  · rw [trimmed]
    by_cases full : fullRune (lead :: rest) = true
    · have noEnd : ¬EndsUnfinished (text.take limit) := by
        rintro ⟨start, unfinished⟩
        rw [same] at unfinished
        have isStart := start_of_unfinished unfinished starts follows
        rw [isStart, List.drop_left, unfinished_iff, full] at unfinished
        cases unfinished.2
      rw [if_pos full, isWhole noEnd]
      exact iff_of_true rfl fun ends => absurd ends noEnd
    · have ends : EndsUnfinished (text.take limit) := by
        refine ⟨front.length, ?_⟩
        rw [same, List.drop_left, unfinished_iff]
        exact ⟨List.cons_ne_nil _ _, Bool.not_eq_true _ ▸ full⟩
      rw [if_neg full]
      have long := congrArg List.length same
      rw [List.length_take, min_eq_left fits, List.length_append, List.length_cons] at long
      constructor
      · intro isLongest _
        by_contra whole
        rw [unseparated_eq_limit whole, same] at isLongest
        have short := congrArg List.length isLongest
        rw [List.length_append, List.length_cons] at short
        omega
      · intro completes
        rw [unseparated_eq_start (completes ends) same starts follows]
        have shorter : text.take front.length = (text.take limit).take front.length := by
          rw [List.take_take, min_eq_left (by omega)]
        rw [shorter, same, List.take_left]

end Cut

end TelemtPanel.Library
