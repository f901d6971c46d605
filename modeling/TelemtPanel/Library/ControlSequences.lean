import Mathlib

/-!
# Control sequences of terminals

A control character in a text begins an instruction to a terminal.  The escape
character and some of the upper control characters open a longer sequence: one with
parameters and a final character, a string up to its terminator, or intermediate
characters and a final one.  Every sequence ends at the latest before the end of its
line, so that deleting the sequences of a text deletes them in each line by itself.
-/

namespace TelemtPanel.Library

/-- The code of a character lies between two codes. -/
def within (low high : ℕ) (c : Char) : Bool := low ≤ c.toNat && c.toNat ≤ high

/-- The character ends a line. -/
def isLineEnd (c : Char) : Bool := c == '\n' || c == '\r'

/-- Control characters other than newline, carriage return and tab. -/
def isControl (c : Char) : Bool :=
  (c.toNat < 0x20 && !isLineEnd c && c != '\t') || within 0x7F 0x9F c

/-- Leaves out the final character of a sequence if it is there. -/
def dropFinal (low high : ℕ) : List Char → List Char
  | [] => []
  | c :: rest => if within low high c then rest else c :: rest

/-- What follows a control sequence: parameter and intermediate characters, then one final
character. -/
def afterCSI (text : List Char) : List Char :=
  dropFinal 0x40 0x7E (text.dropWhile (within 0x20 0x3F))

/-- What follows an escape sequence: intermediate characters, then one final character. -/
def afterEscape (text : List Char) : List Char :=
  dropFinal 0x30 0x7E (text.dropWhile (within 0x20 0x2F))

/-- The character that opens a string behind the escape character. -/
def opensString (c : Char) : Bool := c ∈ [']', 'P', '^', '_', 'X']

/-- The upper control character that opens a string. -/
def isStringControl (c : Char) : Bool :=
  c ∈ ['\u009D', '\u0090', '\u009E', '\u009F', '\u0098']

/-- What follows a control string: it goes up to the bell, to the string terminator in one of its
forms, or to the end of the line. -/
def afterString : List Char → List Char
  | [] => []
  | c :: rest =>
      if isLineEnd c then c :: rest
      else if c = '\x07' || c = '\u009C' then rest
      else if c = '\x1B' && rest.head? == some '\\' then rest.tail
      else afterString rest

/-- What follows the sequence that a control character begins. -/
def afterControl (c : Char) (text : List Char) : List Char :=
  if c = '\x1B' then
    match text with
    | [] => []
    | d :: rest =>
        if d = '[' then afterCSI rest
        else if opensString d then afterString rest
        else afterEscape (d :: rest)
  else if c = '\u009B' then afterCSI text
  else if isStringControl c then afterString text
  else text

/-- What leaves out the beginning of a text within its first line, whatever the next lines are. -/
structure StaysInLine (skip : List Char → List Char) : Prop where
  skips (text : List Char) : ∃ skipped, text = skipped ++ skip text ∧
    ∀ c ∈ skipped, isLineEnd c = false
  line {e : Char} (ends : isLineEnd e = true) (text rest : List Char) :
    skip (text ++ e :: rest) = skip text ++ e :: rest

theorem isLineEnd_iff (c : Char) : isLineEnd c = true ↔ c = '\n' ∨ c = '\r' := by
  simp [isLineEnd]

theorem within_lineEnd {low high : ℕ} {e : Char} (ends : isLineEnd e = true)
    (above : 0x20 ≤ low) : within low high e = false := by
  rcases (isLineEnd_iff e).mp ends with rfl | rfl
  · simp only [within, Char.reduceToNat, Bool.and_eq_false_iff, decide_eq_false_iff_not]
    omega
  · simp only [within, Char.reduceToNat, Bool.and_eq_false_iff, decide_eq_false_iff_not]
    omega

theorem isControl_lineEnd {e : Char} (ends : isLineEnd e = true) : isControl e = false := by
  rcases (isLineEnd_iff e).mp ends with rfl | rfl <;> decide

theorem isLineEnd_of_within {low high : ℕ} {c : Char} (above : 0x20 ≤ low)
    (inside : within low high c = true) : isLineEnd c = false := by
  by_contra ends
  rw [within_lineEnd (by simpa using ends) above] at inside
  cases inside

namespace StaysInLine

variable {skip next : List Char → List Char} {low high : ℕ}

theorem keep : StaysInLine id where
  skips text := ⟨[], rfl, by simp⟩
  line _ _ _ := rfl

theorem comp (first : StaysInLine skip) (second : StaysInLine next) :
    StaysInLine (next ∘ skip) where
  skips text := by
    rcases first.skips text with ⟨front, same, inLine⟩
    rcases second.skips (skip text) with ⟨back, same', inLine'⟩
    refine ⟨front ++ back, ?_, ?_⟩
    · rw [List.append_assoc, Function.comp_apply, ← same', ← same]
    · intro c mem
      exact (List.mem_append.mp mem).elim (inLine c) (inLine' c)
  line ends text rest := by
    rw [Function.comp_apply, first.line ends, second.line ends, Function.comp_apply]

theorem dropWhile (above : 0x20 ≤ low) : StaysInLine (List.dropWhile (within low high)) where
  skips text := by
    refine ⟨text.takeWhile (within low high), List.takeWhile_append_dropWhile.symm, ?_⟩
    intro c mem
    exact isLineEnd_of_within above (List.mem_takeWhile_imp mem)
  line ends text rest := by
    rw [List.dropWhile_append]
    split
    · rename_i empty
      rw [List.isEmpty_iff.mp empty, List.nil_append,
        List.dropWhile_cons_of_neg (by rw [within_lineEnd ends above]; decide)]
    · rfl

theorem dropFinal (above : 0x20 ≤ low) : StaysInLine (dropFinal low high) where
  skips text := by
    cases text with
    | nil => exact ⟨[], rfl, by simp⟩
    | cons c rest =>
        by_cases inside : within low high c = true
        · refine ⟨[c], by simp [Library.dropFinal, inside], ?_⟩
          intro d mem
          rw [List.mem_singleton.mp mem]
          exact isLineEnd_of_within above inside
        · exact ⟨[], by simp [Library.dropFinal, inside], by simp⟩
  line ends text rest := by
    cases text with
    | nil => simp [Library.dropFinal, within_lineEnd ends above]
    | cons c text =>
        simp only [List.cons_append, Library.dropFinal]
        split <;> rfl

theorem afterCSI : StaysInLine afterCSI := (dropWhile (by decide)).comp (dropFinal (by decide))

theorem afterEscape : StaysInLine afterEscape :=
  (dropWhile (by decide)).comp (dropFinal (by decide))

theorem afterString : StaysInLine afterString where
  skips text := by
    fun_induction Library.afterString text with
    | case1 => exact ⟨[], rfl, by simp⟩
    | case2 c rest ends => exact ⟨[], rfl, by simp⟩
    | case3 c rest inLine terminates =>
        refine ⟨[c], rfl, ?_⟩
        intro d mem
        rw [List.mem_singleton.mp mem]
        exact Bool.not_eq_true _ ▸ inLine
    | case4 c rest inLine _ terminates =>
        rcases rest with _ | ⟨d, rest⟩
        · simp at terminates
        · simp only [List.head?_cons, Bool.and_eq_true, decide_eq_true_eq, beq_iff_eq,
            Option.some.injEq] at terminates
          rcases terminates with ⟨rfl, rfl⟩
          exact ⟨['\x1B', '\\'], rfl, by simp [isLineEnd]⟩
    | case5 c rest inLine _ _ ih =>
        rcases ih with ⟨skipped, same, others⟩
        refine ⟨c :: skipped, by rw [List.cons_append, ← same], ?_⟩
        intro d mem
        rcases List.mem_cons.mp mem with rfl | mem
        · exact Bool.not_eq_true _ ▸ inLine
        · exact others d mem
  line {e} ends text rest := by
    fun_induction Library.afterString text with
    | case1 => rw [List.nil_append, Library.afterString, if_pos ends]
    | case2 c text isEnd => rw [List.cons_append, Library.afterString, if_pos isEnd]
    | case3 c text inLine terminates =>
        rw [List.cons_append, Library.afterString, if_neg inLine, if_pos terminates]
    | case4 c text inLine other terminates =>
        rcases text with _ | ⟨d, text⟩
        · simp at terminates
        · rw [List.cons_append, Library.afterString, if_neg inLine, if_neg other,
            if_pos (by simpa using terminates)]
          rfl
    | case5 c text inLine other continues ih =>
        rw [List.cons_append, Library.afterString, if_neg inLine, if_neg other, if_neg, ih]
        -- the line end behind the escape character is no terminator
        rcases text with _ | ⟨d, text⟩
        · rcases (isLineEnd_iff e).mp ends with rfl | rfl <;> simp
        · simpa using continues

theorem afterControl (c : Char) : StaysInLine (afterControl c) := by
  unfold Library.afterControl
  split
  · constructor
    · intro text
      rcases text with _ | ⟨d, text⟩
      · exact ⟨[], rfl, by simp⟩
      · simp only
        split
        · rename_i isBracket
          subst isBracket
          rcases afterCSI.skips text with ⟨skipped, same, inLine⟩
          refine ⟨'[' :: skipped, by rw [List.cons_append, ← same], ?_⟩
          simpa [isLineEnd] using inLine
        · split
          · rename_i opens
            rcases afterString.skips text with ⟨skipped, same, inLine⟩
            refine ⟨d :: skipped, by rw [List.cons_append, ← same], ?_⟩
            have inside : isLineEnd d = false := by
              by_contra ends
              rcases (isLineEnd_iff d).mp (by simpa using ends) with rfl | rfl
              · exact absurd opens (by decide)
              · exact absurd opens (by decide)
            simpa [inside] using inLine
          · exact afterEscape.skips (d :: text)
    · intro e ends text rest
      rcases text with _ | ⟨d, text⟩
      · rcases (isLineEnd_iff e).mp ends with rfl | rfl <;> rfl
      · simp only [List.cons_append]
        split
        · exact afterCSI.line ends text rest
        · split
          · exact afterString.line ends text rest
          · exact afterEscape.line ends (d :: text) rest
  · split
    · exact afterCSI
    · split
      · exact afterString
      · exact keep

theorem length_le (skip' : StaysInLine skip) (text : List Char) :
    (skip text).length ≤ text.length := by
  rcases skip'.skips text with ⟨skipped, same, -⟩
  conv_rhs => rw [same, List.length_append]
  omega

end StaysInLine

/-- Deletes the control sequences of a text from the left. -/
def deleteControls : List Char → List Char
  | [] => []
  | c :: rest =>
      if isControl c then deleteControls (afterControl c rest) else c :: deleteControls rest
termination_by text => text.length
decreasing_by
  · exact Nat.lt_succ_of_le ((StaysInLine.afterControl c).length_le rest)
  · simp

/-- What remains is no control character. -/
theorem not_control_of_mem_deleteControls {c : Char} {text : List Char}
    (mem : c ∈ deleteControls text) : isControl c = false := by
  fun_induction deleteControls text with
  | case1 => cases mem
  | case2 d rest isControl ih => exact ih mem
  | case3 d rest keeps ih =>
      rcases List.mem_cons.mp mem with rfl | mem
      · exact Bool.not_eq_true _ ▸ keeps
      · exact ih mem

theorem mem_of_mem_deleteControls {c : Char} {text : List Char}
    (mem : c ∈ deleteControls text) : c ∈ text := by
  fun_induction deleteControls text with
  | case1 => cases mem
  | case2 d rest isControl ih =>
      rcases (StaysInLine.afterControl d).skips rest with ⟨skipped, same, -⟩
      rw [same]
      exact List.mem_cons_of_mem _ (List.mem_append_right _ (ih mem))
  | case3 d rest keeps ih =>
      rcases List.mem_cons.mp mem with rfl | mem
      · exact List.mem_cons_self
      · exact List.mem_cons_of_mem _ (ih mem)

/-- Sequences are deleted in each line by itself. -/
theorem deleteControls_line {e : Char} (ends : isLineEnd e = true) (text rest : List Char) :
    deleteControls (text ++ e :: rest) = deleteControls text ++ e :: deleteControls rest := by
  fun_induction deleteControls text with
  | case1 =>
      rw [List.nil_append, deleteControls, isControl_lineEnd ends, if_neg (by decide),
        List.nil_append]
  | case2 c text control ih =>
      rw [List.cons_append, deleteControls, if_pos control,
        (StaysInLine.afterControl c).line ends, ih]
  | case3 c text keeps ih =>
      rw [List.cons_append, deleteControls, if_neg keeps, ih, List.cons_append]

end TelemtPanel.Library
