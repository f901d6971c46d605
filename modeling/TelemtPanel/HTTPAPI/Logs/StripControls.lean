import TelemtPanel.Library.RuneText
import TelemtPanel.Library.ControlSequences

/-!
# Removal of terminal instructions from log text

The scanner goes over the bytes of a message, decodes a character at a position and
skips by bytes behind an introducer.  On repaired text every position it stops at is
between two characters, so that it deletes exactly the control sequences of the text.
-/

namespace TelemtPanel.HTTPAPI

open TelemtPanel.Library

/-- The character that stands for an invalid byte. -/
def runeError : Char := '\uFFFD'

/-- The first character of a string and its width. -/
def decodeRuneInString (s : List UInt8) : Char × ℕ :=
  match decodeRune? s with
  | some r => (r, r.utf8Size)
  | none => (runeError, if s.isEmpty then 0 else 1)

/-- Loop of the repair of invalid bytes; the flag says that the previous byte was invalid. -/
def toValidUTF8From (replacement : List UInt8) (invalid : Bool) (s : List UInt8) : List UInt8 :=
  match s with
  | [] => []
  | b :: rest =>
      if b < 0x80 then b :: toValidUTF8From replacement false rest
      else
        let wid := (decodeRuneInString (b :: rest)).2
        if wid = 1 then
          (if invalid then [] else replacement) ++ toValidUTF8From replacement true rest
        else
          (b :: rest).take wid ++ toValidUTF8From replacement false (rest.drop (wid - 1))
termination_by s.length
decreasing_by all_goals simp; try omega

def toValidUTF8 (s replacement : List UInt8) : List UInt8 := toValidUTF8From replacement false s

theorem width_pos {s : List UInt8} (nonempty : s ≠ []) : 0 < (decodeRuneInString s).2 := by
  unfold decodeRuneInString
  split
  · exact Char.utf8Size_pos _
  · simp [nonempty]

theorem width_drop_pos {msg : List UInt8} {i : ℕ} (inside : i < msg.length) :
    0 < (decodeRuneInString (msg.drop i)).2 :=
  width_pos (by simpa using inside)

/-- Position of the first character with a property. -/
def indexFunc (f : Char → Bool) (msg : List UInt8) (i : ℕ) : Option ℕ :=
  if _ : i < msg.length then
    if f (decodeRuneInString (msg.drop i)).1 then some i
    else indexFunc f msg (i + (decodeRuneInString (msg.drop i)).2)
  else none
termination_by msg.length - i
decreasing_by
  have positive := width_drop_pos ‹i < msg.length›
  omega

def logControl (r : Char) : Bool :=
  (r.toNat < 0x20 && r != '\n' && r != '\r' && r != '\t') || (0x7F ≤ r.toNat && r.toNat ≤ 0x9F)

def skipLogCSI (msg : List UInt8) (i : ℕ) : ℕ :=
  if inside : i < msg.length then
    let c := msg[i]
    if 0x40 ≤ c && c ≤ 0x7E then i + 1
    else if c < 0x20 || 0x3F < c then i
    else skipLogCSI msg (i + 1)
  else i
termination_by msg.length - i

def skipLogControlString (msg : List UInt8) (i : ℕ) : ℕ :=
  if inside : i < msg.length then
    let c := msg[i]
    if c = 0x0A || c = 0x0D then i
    else if c = 0x07 then i + 1
    else if c = 0x1B && msg[i + 1]? == some 0x5C then i + 2
    else if (String.utf8EncodeChar '\u009C').isPrefixOf (msg.drop i) then
      i + (String.utf8EncodeChar '\u009C').length
    else skipLogControlString msg (i + 1)
  else i
termination_by msg.length - i

/-- Loop over the intermediate bytes of an escape sequence. -/
def skipIntermediates (msg : List UInt8) (i : ℕ) : ℕ :=
  if inside : i < msg.length then
    if 0x20 ≤ msg[i] && msg[i] ≤ 0x2F then skipIntermediates msg (i + 1) else i
  else i
termination_by msg.length - i

/-- The byte behind the intermediate ones is skipped when it is a final byte. -/
def skipFinal (msg : List UInt8) (i : ℕ) : ℕ :=
  if (msg[i]?.any fun c => 0x30 ≤ c && c ≤ 0x7E) then i + 1 else i

/-- The switch over the control character in front of a position. -/
def skipLogSequence (msg : List UInt8) (r : Char) (i : ℕ) : ℕ :=
  if r = '\x1B' then
    match msg[i]? with
    | none => i
    | some c =>
        if c = 0x5B then skipLogCSI msg (i + 1)
        else if [0x5D, 0x50, 0x5E, 0x5F, 0x58].contains c then skipLogControlString msg (i + 1)
        else skipFinal msg (skipIntermediates msg i)
  else if r = '\u009B' then skipLogCSI msg i
  else if r ∈ ['\u009D', '\u0090', '\u009E', '\u009F', '\u0098'] then skipLogControlString msg i
  else i

theorem le_skipLogCSI (msg : List UInt8) (i : ℕ) : i ≤ skipLogCSI msg i := by
  fun_induction skipLogCSI msg i <;> omega

theorem le_skipLogControlString (msg : List UInt8) (i : ℕ) : i ≤ skipLogControlString msg i := by
  fun_induction skipLogControlString msg i <;> omega

theorem le_skipIntermediates (msg : List UInt8) (i : ℕ) : i ≤ skipIntermediates msg i := by
  fun_induction skipIntermediates msg i <;> omega

theorem le_skipFinal (msg : List UInt8) (i : ℕ) : i ≤ skipFinal msg i := by
  unfold skipFinal
  split <;> omega

theorem le_skipLogSequence (msg : List UInt8) (r : Char) (i : ℕ) :
    i ≤ skipLogSequence msg r i := by
  have csi := le_skipLogCSI msg
  have string := le_skipLogControlString msg
  unfold skipLogSequence
  split
  · split
    · rfl
    · split
      · exact (Nat.le_succ i).trans (csi (i + 1))
      · split
        · exact (Nat.le_succ i).trans (string (i + 1))
        · exact (le_skipIntermediates msg i).trans (le_skipFinal msg _)
  · split
    · exact csi i
    · split
      · exact string i
      · rfl

/-- Loop of the scanner; `plain` is where the text begins that is not yet written. -/
def stripLogControlsFrom (msg : List UInt8) (i plain : ℕ) (out : List UInt8) : List UInt8 :=
  if _ : i < msg.length then
    let r := (decodeRuneInString (msg.drop i)).1
    let width := (decodeRuneInString (msg.drop i)).2
    if logControl r then
      let next := skipLogSequence msg r (i + width)
      stripLogControlsFrom msg next next (out ++ (msg.take i).drop plain)
    else stripLogControlsFrom msg (i + width) plain out
  else out ++ msg.drop plain
termination_by msg.length - i
decreasing_by
  · have positive := width_drop_pos ‹i < msg.length›
    have later := le_skipLogSequence msg (decodeRuneInString (msg.drop i)).1
      (i + (decodeRuneInString (msg.drop i)).2)
    omega
  · have positive := width_drop_pos ‹i < msg.length›
    omega

def stripLogControls (msg : List UInt8) : List UInt8 :=
  let msg := toValidUTF8 msg (String.utf8EncodeChar '\uFFFD')
  match indexFunc logControl msg 0 with
  | none => msg
  | some first => stripLogControlsFrom msg first 0 []

section Repair

variable {s rest : List UInt8}

theorem decodeRuneInString_rune (c : Char) (rest : List UInt8) :
    decodeRuneInString (String.utf8EncodeChar c ++ rest) = (c, c.utf8Size) := by
  rw [decodeRuneInString, decodeRune?_encode]

theorem utf8Size_ne_one {c : Char} (high : 0x80 ≤ c.toNat) : c.utf8Size ≠ 1 := by
  intro one
  rw [Char.utf8Size_eq_one_iff, UInt32.le_iff_toNat_le] at one
  change c.toNat ≤ 127 at one
  omega

theorem high_of_invalid {b : UInt8} (invalid : decodeRune? (b :: rest) = none) : ¬b < 0x80 := by
  intro low
  rw [← List.singleton_append, ← utf8EncodeChar_toChar low, decodeRune?_encode] at invalid
  cases invalid

theorem toValidUTF8From_rune (replacement : List UInt8) (invalid : Bool) (c : Char)
    (rest : List UInt8) :
    toValidUTF8From replacement invalid (String.utf8EncodeChar c ++ rest) =
      String.utf8EncodeChar c ++ toValidUTF8From replacement false rest := by
  rcases lt_or_ge c.toNat 0x80 with low | high
  · rw [utf8EncodeChar_low low, List.singleton_append, toValidUTF8From, if_pos,
      List.singleton_append]
    rw [UInt8.lt_iff_toNat_lt, toNat_toUInt8 low]
    exact low
  · rcases List.exists_cons_of_ne_nil (utf8EncodeChar_ne_nil c) with ⟨b, more, same⟩
    have isHigh := high_of_mem_utf8EncodeChar high (same ▸ List.mem_cons_self)
    have size := String.length_utf8EncodeChar c
    have decoded := decodeRuneInString_rune c rest
    rw [same, List.length_cons] at size
    rw [same, List.cons_append] at decoded
    rw [same, List.cons_append, toValidUTF8From, if_neg (UInt8.not_lt.mpr isHigh), decoded]
    simp only
    rw [if_neg (utf8Size_ne_one high), ← size, List.take_succ_cons, List.take_left,
      Nat.add_sub_cancel, List.drop_left, List.cons_append]

theorem toValidUTF8From_invalid {b : UInt8} (replacement : List UInt8) (invalid : Bool)
    (begins : decodeRune? (b :: rest) = none) :
    toValidUTF8From replacement invalid (b :: rest) =
      (if invalid then [] else replacement) ++ toValidUTF8From replacement true rest := by
  rw [toValidUTF8From, if_neg (high_of_invalid begins), decodeRuneInString, begins]
  simp

/-- The flag of the loop leaves out the rest of a run that is already replaced. -/
theorem toValidUTF8From_eq (s : List UInt8) (invalid : Bool) :
    toValidUTF8From (String.utf8EncodeChar '\uFFFD') invalid s = encode (replaceRuns
      (if invalid then (readRunes s).dropWhile Option.isNone else readRunes s)) := by
  induction s using readInduction generalizing invalid with
  | nil => cases invalid <;> simp [toValidUTF8From, replaceRuns]
  | rune c rest ih =>
      rw [toValidUTF8From_rune, ih false, readRunes_rune]
      cases invalid <;> simp [replaceRuns]
  | invalid b rest begins ih =>
      rw [toValidUTF8From_invalid _ _ begins, ih true, readRunes_invalid begins]
      cases invalid <;> simp [replaceRuns]

theorem toValidUTF8_eq (s : List UInt8) :
    toValidUTF8 s (String.utf8EncodeChar '\uFFFD') = encode (repair s) :=
  toValidUTF8From_eq s false

end Repair

section Positions

variable {msg : List UInt8} {i : ℕ} {c : Char} {rest : List Char}

theorem not_inside (ends : msg.drop i = encode []) : ¬i < msg.length := by
  rw [encode_nil, List.drop_eq_nil_iff] at ends
  omega

theorem drop_rune (follows : msg.drop i = encode (c :: rest)) :
    msg.drop (i + c.utf8Size) = encode rest := by
  rw [← List.drop_drop, follows, encode_cons, ← String.length_utf8EncodeChar, List.drop_left]

theorem decode_drop (follows : msg.drop i = encode (c :: rest)) :
    decodeRuneInString (msg.drop i) = (c, c.utf8Size) := by
  rw [follows, encode_cons, decodeRuneInString_rune]

/-- Where a character stands is a byte of its own code, or one in the upper half. -/
theorem byte_at (follows : msg.drop i = encode (c :: rest)) :
    ∃ inside : i < msg.length, (c.toNat < 0x80 ∧ msg[i].toNat = c.toNat ∧
      msg.drop (i + 1) = encode rest) ∨ (0x80 ≤ c.toNat ∧ 0x80 ≤ msg[i].toNat) := by
  have inside : i < msg.length := by
    by_contra outside
    rw [List.drop_of_length_le (by omega), encode_cons] at follows
    exact utf8EncodeChar_ne_nil c (List.append_eq_nil_iff.mp follows.symm).1
  refine ⟨inside, ?_⟩
  have nonempty : 0 < (msg.drop i).length := by simpa using inside
  have byte : msg[i] = (msg.drop i)[0] := by simp
  rcases lt_or_ge c.toNat 0x80 with low | high
  · left
    refine ⟨low, ?_, ?_⟩
    · simp only [byte, follows, encode_cons, utf8EncodeChar_low low, List.singleton_append,
        List.getElem_cons_zero, toNat_toUInt8 low]
    · have after := drop_rune follows
      rwa [← String.length_utf8EncodeChar, utf8EncodeChar_low low] at after
  · right
    refine ⟨high, ?_⟩
    have member : msg[i] ∈ String.utf8EncodeChar c := by
      simp only [byte, follows, encode_cons]
      rw [List.getElem_append_left (List.length_pos_iff.mpr (utf8EncodeChar_ne_nil c))]
      exact List.getElem_mem _
    exact UInt8.le_iff_toNat_le.mp (high_of_mem_utf8EncodeChar high member)

/-- A byte of the lower half stands where its character does. -/
theorem byte_iff {low : UInt8} (isLow : low < 0x80) (follows : msg.drop i = encode rest) :
    msg[i]? = some low ↔ rest.head? = some (Char.ofUInt8 low) := by
  have code : (Char.ofUInt8 low).toNat = low.toNat := by
    revert isLow
    revert low
    decide +kernel
  have isLow' := UInt8.lt_iff_toNat_lt.mp isLow
  cases rest with
  | nil =>
      rw [List.getElem?_eq_none (not_lt.mp (not_inside follows))]
      simp
  | cons c rest =>
      rcases byte_at follows with ⟨inside, byte⟩
      rw [List.getElem?_eq_getElem inside, List.head?_cons, Option.some_inj, Option.some_inj,
        ← UInt8.toNat_inj, ← Char.toNat_inj, code]
      rcases byte with ⟨-, same, -⟩ | ⟨high, upper⟩
      · rw [same]
      · have bound : (0x80 : UInt8).toNat = 0x80 := rfl
        omega

theorem drop_skipLogCSI (follows : msg.drop i = encode rest) :
    msg.drop (skipLogCSI msg i) = encode (afterCSI rest) := by
  induction rest generalizing i with
  | nil =>
      rw [skipLogCSI, dif_neg (not_inside follows)]
      exact follows
  | cons c rest ih =>
      rcases byte_at follows with ⟨inside, byte⟩
      rw [skipLogCSI, dif_pos inside]
      simp only [Bool.and_eq_true, Bool.or_eq_true, decide_eq_true_eq, UInt8.le_iff_toNat_le,
        UInt8.lt_iff_toNat_lt, UInt8.reduceToNat]
      by_cases parameter : within 0x20 0x3F c = true
      · have range := parameter
        simp only [within, Bool.and_eq_true, decide_eq_true_eq] at range
        rcases byte with ⟨-, same, after⟩ | ⟨high, -⟩
        · rw [if_neg (by omega), if_neg (by omega), ih after, afterCSI, afterCSI,
            List.dropWhile_cons_of_pos parameter]
        · omega
      · have others := parameter
        simp only [within, Bool.and_eq_true, decide_eq_true_eq] at others
        rw [afterCSI, List.dropWhile_cons_of_neg parameter, dropFinal]
        by_cases final : within 0x40 0x7E c = true
        · have range := final
          simp only [within, Bool.and_eq_true, decide_eq_true_eq] at range
          rcases byte with ⟨-, same, after⟩ | ⟨high, -⟩
          · rw [if_pos (by omega), if_pos final, after]
          · omega
        · rw [if_neg final, ← follows]
          simp only [within, Bool.and_eq_true, decide_eq_true_eq] at final
          rcases byte with ⟨-, same, -⟩ | ⟨-, upper⟩
          · rw [if_neg (by omega), if_pos (by omega)]
          · rw [if_neg (by omega), if_pos (by omega)]

theorem drop_skipIntermediates (follows : msg.drop i = encode rest) :
    msg.drop (skipIntermediates msg i) = encode (rest.dropWhile (within 0x20 0x2F)) := by
  induction rest generalizing i with
  | nil =>
      rw [skipIntermediates, dif_neg (not_inside follows)]
      exact follows
  | cons c rest ih =>
      rcases byte_at follows with ⟨inside, byte⟩
      rw [skipIntermediates, dif_pos inside]
      simp only [Bool.and_eq_true, decide_eq_true_eq, UInt8.le_iff_toNat_le, UInt8.reduceToNat]
      by_cases intermediate : within 0x20 0x2F c = true
      · have range := intermediate
        simp only [within, Bool.and_eq_true, decide_eq_true_eq] at range
        rcases byte with ⟨-, same, after⟩ | ⟨high, -⟩
        · rw [if_pos (by omega), ih after, List.dropWhile_cons_of_pos intermediate]
        · omega
      · rw [List.dropWhile_cons_of_neg intermediate, ← follows]
        simp only [within, Bool.and_eq_true, decide_eq_true_eq] at intermediate
        rcases byte with ⟨-, same, -⟩ | ⟨-, upper⟩
        · rw [if_neg (by omega)]
        · rw [if_neg (by omega)]

theorem drop_skipFinal (follows : msg.drop i = encode rest) :
    msg.drop (skipFinal msg i) = encode (dropFinal 0x30 0x7E rest) := by
  cases rest with
  | nil =>
      rw [skipFinal, List.getElem?_eq_none (not_lt.mp (not_inside follows))]
      exact follows
  | cons c rest =>
      rcases byte_at follows with ⟨inside, byte⟩
      rw [skipFinal, List.getElem?_eq_getElem inside, dropFinal]
      simp only [Option.any_some, Bool.and_eq_true, decide_eq_true_eq, UInt8.le_iff_toNat_le,
        UInt8.reduceToNat, within]
      rcases byte with ⟨-, same, after⟩ | ⟨high, upper⟩
      · rw [same]
        split
        · exact after
        · exact follows
      · rw [if_neg (by omega), if_neg (by omega)]
        exact follows

theorem byte_eq_iff {low : UInt8} (isLow : low < 0x80) (follows : msg.drop i = encode (c :: rest))
    (inside : i < msg.length) : msg[i] = low ↔ c = Char.ofUInt8 low := by
  have same := byte_iff isLow follows
  rwa [List.getElem?_eq_getElem inside, List.head?_cons, Option.some_inj, Option.some_inj] at same

theorem encode_terminator : String.utf8EncodeChar '\u009C' = [0xC2, 0x9C] := by decide +kernel

theorem isPrefixOf_terminator (follows : msg.drop i = encode (c :: rest)) :
    (String.utf8EncodeChar '\u009C').isPrefixOf (msg.drop i) = true ↔ c = '\u009C' := by
  rw [List.isPrefixOf_iff_prefix]
  constructor
  · rintro ⟨behind, same⟩
    have first := decodeRune?_encode '\u009C' behind
    rw [same, follows, encode_cons, decodeRune?_encode, Option.some_inj] at first
    exact first
  · rintro rfl
    exact ⟨encode rest, by rw [follows, encode_cons]⟩

/-- The scanner of strings goes over a byte of the upper half that does not begin the
terminator. -/
theorem skipLogControlString_upper (inside : i < msg.length) (upper : 0x80 ≤ msg[i])
    (other : ¬(String.utf8EncodeChar '\u009C').isPrefixOf (msg.drop i) = true) :
    skipLogControlString msg i = skipLogControlString msg (i + 1) := by
  have different (low : UInt8) (isLow : low < 0x80) : msg[i] ≠ low := by
    rintro rfl
    exact absurd isLow (UInt8.not_lt.mpr upper)
  rw [skipLogControlString, dif_pos inside]
  simp only [different 0x0A (by decide), different 0x0D (by decide), different 0x07 (by decide),
    different 0x1B (by decide), Bool.or_self, decide_false, Bool.false_and,
    Bool.false_eq_true, if_false, other]

/-- None of the bytes behind the first one of a character begins another character. -/
theorem skipLogControlString_tail {bytes behind : List UInt8}
    (follows : msg.drop i = bytes ++ behind)
    (inner : ∀ b ∈ bytes, 0x80 ≤ b ∧ ¬b.IsUTF8FirstByte) :
    skipLogControlString msg i = skipLogControlString msg (i + bytes.length) := by
  induction bytes generalizing i with
  | nil => rfl
  | cons b bytes ih =>
      have inside : i < msg.length := by
        by_contra outside
        rw [List.drop_of_length_le (by omega)] at follows
        cases follows
      have byte : msg[i] = b := by
        have first := congrArg (fun list => list[0]?) follows
        simpa [inside] using first
      have after : msg.drop (i + 1) = bytes ++ behind := by
        rw [← List.drop_drop, follows, List.cons_append, List.drop_one, List.tail_cons]
      have isInner := inner b List.mem_cons_self
      rw [skipLogControlString_upper inside (byte ▸ isInner.1) ?_,
        ih after fun d mem => inner d (List.mem_cons_of_mem b mem), List.length_cons]
      · congr 1
        omega
      · rw [follows, encode_terminator, List.cons_append, List.isPrefixOf_cons_cons]
        simp only [Bool.and_eq_true, beq_iff_eq, not_and]
        rintro rfl
        exact absurd (by decide) isInner.2

theorem skipLogControlString_rune (follows : msg.drop i = encode (c :: rest))
    (high : 0x80 ≤ c.toNat) (other : c ≠ '\u009C') :
    skipLogControlString msg i = skipLogControlString msg (i + c.utf8Size) := by
  rcases byte_at follows with ⟨inside, ⟨low, -⟩ | ⟨-, upper⟩⟩
  · omega
  rcases List.exists_cons_of_ne_nil (utf8EncodeChar_ne_nil c) with ⟨b, more, same⟩
  have size := String.length_utf8EncodeChar c
  have after : msg.drop (i + 1) = more ++ encode rest := by
    rw [← List.drop_drop, follows, encode_cons, same, List.cons_append, List.drop_one,
      List.tail_cons]
  rw [skipLogControlString_upper inside (UInt8.le_iff_toNat_le.mpr upper)
      fun found => other ((isPrefixOf_terminator follows).mp found),
    skipLogControlString_tail after ?_]
  · congr 1
    rw [same, List.length_cons] at size
    omega
  · intro d mem
    have inTail : d ∈ (String.utf8EncodeChar c).tail := by rw [same]; exact mem
    exact ⟨high_of_mem_utf8EncodeChar high (List.mem_of_mem_tail inTail),
      not_first_of_mem_tail inTail⟩

/-- One step of the scanner of strings in terms of the character at the position. -/
theorem skipLogControlString_at (follows : msg.drop i = encode (c :: rest)) :
    skipLogControlString msg i =
      if isLineEnd c = true then i
      else if c = '\x07' then i + 1
      else if c = '\x1B' ∧ rest.head? = some '\\' then i + 2
      else if c = '\u009C' then i + 2
      else skipLogControlString msg (i + 1) := by
  rcases byte_at follows with ⟨inside, byte⟩
  have newline : msg[i] = 0x0A ↔ c = '\n' := byte_eq_iff (by decide) follows inside
  have carriage : msg[i] = 0x0D ↔ c = '\r' := byte_eq_iff (by decide) follows inside
  have bell : msg[i] = 0x07 ↔ c = '\x07' := byte_eq_iff (by decide) follows inside
  have escape : msg[i] = 0x1B ↔ c = '\x1B' := byte_eq_iff (by decide) follows inside
  have backslash : c = '\x1B' → (msg[i + 1]? = some 0x5C ↔ rest.head? = some '\\') := by
    rintro rfl
    exact byte_iff (by decide) (drop_rune follows)
  rw [skipLogControlString, dif_pos inside]
  simp only [Bool.or_eq_true, Bool.and_eq_true, decide_eq_true_eq, beq_iff_eq, newline, carriage,
    bell, escape, isLineEnd_iff, isPrefixOf_terminator follows]
  refine if_congr Iff.rfl rfl (if_congr Iff.rfl rfl (if_congr ?_ rfl (if_congr Iff.rfl ?_ rfl)))
  · exact and_congr_right backslash
  · rw [encode_terminator]
    rfl

theorem drop_skipLogControlString (follows : msg.drop i = encode rest) :
    msg.drop (skipLogControlString msg i) = encode (afterString rest) := by
  fun_induction afterString rest generalizing i with
  | case1 =>
      rw [skipLogControlString, dif_neg (not_inside follows)]
      exact follows
  | case2 c rest ends =>
      rw [skipLogControlString_at follows, if_pos ends]
      exact follows
  | case3 c rest inLine terminates =>
      rw [skipLogControlString_at follows, if_neg inLine]
      simp only [Bool.or_eq_true, decide_eq_true_eq] at terminates
      rcases terminates with rfl | rfl
      · rw [if_pos rfl]
        exact drop_rune follows
      · rw [if_neg (by decide), if_neg (by simp), if_pos rfl]
        exact drop_rune follows
  | case4 c rest inLine other terminates =>
      simp only [Bool.and_eq_true, decide_eq_true_eq, beq_iff_eq] at terminates
      rcases terminates with ⟨rfl, isBackslash⟩
      rcases rest with _ | ⟨d, rest⟩
      · cases isBackslash
      · rw [List.head?_cons, Option.some_inj] at isBackslash
        subst isBackslash
        rw [skipLogControlString_at follows, if_neg inLine, if_neg (by decide),
          if_pos ⟨rfl, List.head?_cons⟩]
        exact drop_rune (drop_rune follows)
  | case5 c rest inLine other continues ih =>
      simp only [Bool.or_eq_true, decide_eq_true_eq, not_or] at other
      have next : skipLogControlString msg i = skipLogControlString msg (i + c.utf8Size) := by
        rcases byte_at follows with ⟨inside, ⟨low, -⟩ | ⟨high, -⟩⟩
        · rw [skipLogControlString_at follows, if_neg inLine, if_neg other.1,
            if_neg (by simpa using continues), if_neg other.2, ← String.length_utf8EncodeChar,
            utf8EncodeChar_low low, List.length_singleton]
        · exact skipLogControlString_rune follows high other.2
      rw [next]
      exact ih (drop_rune follows)

/-- The switch skips exactly the rest of the sequence that the control character begins. -/
theorem drop_skipLogSequence (r : Char) (follows : msg.drop i = encode rest) :
    msg.drop (skipLogSequence msg r i) = encode (afterControl r rest) := by
  unfold skipLogSequence afterControl
  split
  · cases rest with
    | nil =>
        rw [List.getElem?_eq_none (not_lt.mp (not_inside follows))]
        exact follows
    | cons d rest =>
        rcases byte_at follows with ⟨inside, -⟩
        have byte {low : UInt8} (isLow : low < 0x80) : msg[i] = low ↔ d = Char.ofUInt8 low :=
          byte_eq_iff isLow follows inside
        have bracket : msg[i] = 0x5B ↔ d = '[' := byte (by decide)
        have opens : [0x5D, 0x50, 0x5E, 0x5F, 0x58].contains msg[i] = true ↔
            opensString d = true := by
          simp only [opensString, List.contains_iff_mem, List.mem_cons, List.not_mem_nil, or_false,
            decide_eq_true_eq]
          exact or_congr (byte (by decide)) (or_congr (byte (by decide)) (or_congr
            (byte (by decide)) (or_congr (byte (by decide)) (byte (by decide)))))
        have after (low : d.toNat < 0x80) : msg.drop (i + 1) = encode rest := by
          have next := drop_rune follows
          rwa [← String.length_utf8EncodeChar, utf8EncodeChar_low low] at next
        rw [List.getElem?_eq_getElem inside]
        simp only [bracket, opens]
        split
        · rename_i isBracket
          exact drop_skipLogCSI (after (by rw [isBracket]; decide))
        · split
          · rename_i isOpening
            have low : d.toNat < 0x80 := by
              simp only [opensString, List.mem_cons, List.not_mem_nil, or_false,
                decide_eq_true_eq] at isOpening
              rcases isOpening with rfl | rfl | rfl | rfl | rfl <;> decide
            exact drop_skipLogControlString (after low)
          · exact drop_skipFinal (drop_skipIntermediates follows)
  · split
    · exact drop_skipLogCSI follows
    · simp only [isStringControl, decide_eq_true_eq]
      split
      · exact drop_skipLogControlString follows
      · exact follows

end Positions

section Scanner

variable {msg : List UInt8}

theorem logControl_eq (r : Char) : logControl r = isControl r := by
  simp only [logControl, isControl, isLineEnd, within, Bool.not_or, Bool.and_assoc, bne]

/-- The scanner may begin at the first control character. -/
theorem stripLogControlsFrom_first (i plain : ℕ) (out : List UInt8) :
    stripLogControlsFrom msg i plain out =
      match indexFunc logControl msg i with
      | none => out ++ msg.drop plain
      | some first => stripLogControlsFrom msg first plain out := by
  fun_induction indexFunc logControl msg i with
  | case1 i inside control => rfl
  | case2 i inside plainRune ih =>
      rw [stripLogControlsFrom, dif_pos inside]
      simp only
      rw [if_neg plainRune, ih]
  | case3 i outside => rw [stripLogControlsFrom, dif_neg outside]

theorem stripLogControls_eq_from (msg : List UInt8) : stripLogControls msg =
    stripLogControlsFrom (toValidUTF8 msg (String.utf8EncodeChar '\uFFFD')) 0 0 [] := by
  rw [stripLogControls, stripLogControlsFrom_first]
  rfl

/-- Between two characters the scanner has written the kept text up to `plain`, holds the text
from there to its position, and deletes the sequences of what follows. -/
theorem stripLogControlsFrom_encode {rest : List Char} {i plain : ℕ} {out : List UInt8}
    {pending : List Char} (follows : msg.drop i = encode rest) (behind : plain ≤ i)
    (held : (msg.take i).drop plain = encode pending) :
    stripLogControlsFrom msg i plain out = out ++ encode (pending ++ deleteControls rest) := by
  fun_induction deleteControls rest generalizing i plain out pending with
  | case1 =>
      have outside := not_inside follows
      rw [List.take_of_length_le (not_lt.mp outside)] at held
      rw [stripLogControlsFrom, dif_neg outside, held, List.append_nil]
  | case2 c rest control ih =>
      rcases byte_at follows with ⟨inside, -⟩
      rw [stripLogControlsFrom, dif_pos inside]
      simp only [decode_drop follows, logControl_eq, control, if_true, held]
      have none : (msg.take (skipLogSequence msg c (i + c.utf8Size))).drop
          (skipLogSequence msg c (i + c.utf8Size)) = encode [] := by simp
      rw [ih (drop_skipLogSequence c (drop_rune follows)) le_rfl none, List.nil_append, encode_append, List.append_assoc]
  | case3 c rest keeps ih =>
      rcases byte_at follows with ⟨inside, -⟩
      rw [stripLogControlsFrom, dif_pos inside]
      simp only [decode_drop follows, logControl_eq, keeps, Bool.false_eq_true, if_false]
      have taken : msg.take (i + c.utf8Size) = msg.take i ++ String.utf8EncodeChar c := by
        rw [List.take_add, follows, encode_cons, ← String.length_utf8EncodeChar, List.take_left]
      have held' : (msg.take (i + c.utf8Size)).drop plain = encode (pending ++ [c]) := by
        rw [taken, List.drop_append_of_le_length (by rw [List.length_take]; omega), held,
          encode_append, encode_cons, encode_nil, List.append_nil]
      rw [ih (drop_rune follows) (by omega) held', List.append_assoc, List.singleton_append]

/-- The bytes are repaired and then every control sequence is deleted from the left. -/
theorem stripLogControls_eq (msg : List UInt8) :
    stripLogControls msg = encode (deleteControls (repair msg)) := by
  have scanned := @stripLogControlsFrom_encode (encode (repair msg)) (repair msg) 0 0 [] []
    rfl le_rfl rfl
  rw [stripLogControls_eq_from, toValidUTF8_eq, scanned, List.nil_append, List.nil_append]

/-- Lines are stripped separately. -/
theorem stripLogControls_line (line rest : List UInt8) :
    stripLogControls (line ++ 0x0A :: rest) =
      stripLogControls line ++ 0x0A :: stripLogControls rest := by
  simp only [stripLogControls_eq]
  rw [repair_append_low (by decide), deleteControls_line (by decide), encode_append, encode_cons]
  rfl

theorem stripLogControls_lines (lines : List (List UInt8)) :
    stripLogControls ([0x0A].intercalate lines) =
      [0x0A].intercalate (lines.map stripLogControls) := by
  induction lines with
  | nil => rw [stripLogControls_eq]; decide +kernel
  | cons line lines ih =>
      rcases lines with _ | ⟨next, lines⟩
      · simp
      · rw [List.map_cons, List.map_cons, List.intercalate_cons_cons,
          List.intercalate_cons_cons, List.append_assoc, List.append_assoc, List.singleton_append,
          stripLogControls_line, ih, List.map_cons, List.singleton_append]

theorem mem_of_mem_stripLogControls (mem : 0x0A ∈ stripLogControls msg) : 0x0A ∈ msg := by
  rw [stripLogControls_eq, mem_encode_low (by decide)] at mem
  exact mem_of_mem_repair (by decide) (mem_of_mem_deleteControls mem)

/-- Every line of the result is a line of the message, stripped by itself; none is missing. -/
theorem splitOn_stripLogControls (msg : List UInt8) :
    (stripLogControls msg).splitOn 0x0A = (msg.splitOn 0x0A).map stripLogControls := by
  induction size : msg.length using Nat.strong_induction_on generalizing msg with
  | _ size ih =>
      by_cases mem : 0x0A ∈ msg
      · rcases List.eq_append_cons_of_mem mem with ⟨line, rest, rfl, whole⟩
        have whole' : 0x0A ∉ stripLogControls line := fun mem =>
          whole (mem_of_mem_stripLogControls mem)
        rw [stripLogControls_line, List.splitOn_append_cons_self_of_not_mem whole',
          List.splitOn_append_cons_self_of_not_mem whole, List.map_cons,
          ih _ (by rw [← size, List.length_append, List.length_cons]; omega) rest rfl]
      · rw [List.splitOn_eq_singleton mem, List.map_singleton, List.splitOn_eq_singleton
          fun inside => mem (mem_of_mem_stripLogControls inside)]

/-- The result is the reference deletion on the repaired text, whatever the bytes are.  It has no
control character but the three of text layout, each deleted sequence ends within its line, and
the lines are stripped one by one. -/
theorem log_controls_stripped (msg : List UInt8) :
    (stripLogControls msg = encode (deleteControls (repair msg)) ∧
      ValidUTF8 (stripLogControls msg) ∧
      ∀ c, c ∈ deleteControls (repair msg) → c.toNat < 0x20 ∨ (0x7F ≤ c.toNat ∧ c.toNat ≤ 0x9F) →
        c = '\n' ∨ c = '\r' ∨ c = '\t') ∧
    (∀ c text, isControl c = true → ∃ deleted, text = deleted ++ afterControl c text ∧
      ∀ d ∈ c :: deleted, d ≠ '\n' ∧ d ≠ '\r') ∧
    (∀ lines : List (List UInt8), stripLogControls ([0x0A].intercalate lines) =
      [0x0A].intercalate (lines.map stripLogControls)) ∧
    (stripLogControls msg).splitOn 0x0A = (msg.splitOn 0x0A).map stripLogControls := by
  refine ⟨⟨stripLogControls_eq msg, ⟨_, stripLogControls_eq msg⟩, ?_⟩, ?_,
    stripLogControls_lines, splitOn_stripLogControls msg⟩
  · intro c mem control
    have kept := not_control_of_mem_deleteControls mem
    simp only [isControl, isLineEnd, within, Bool.or_eq_false_iff, Bool.and_eq_false_iff,
      decide_eq_false_iff_not, Bool.not_eq_false', Bool.or_eq_true, beq_iff_eq,
      bne_eq_false_iff_eq] at kept
    rcases kept with ⟨lower, upper⟩
    rcases control with low | high
    · rcases lower with (above | newline | carriage) | tab
      · exact absurd low above
      · exact .inl newline
      · exact .inr (.inl carriage)
      · exact .inr (.inr tab)
    · omega
  · intro c text control
    rcases (StaysInLine.afterControl c).skips text with ⟨deleted, same, inLine⟩
    refine ⟨deleted, same, ?_⟩
    have notEnd : ∀ d ∈ c :: deleted, isLineEnd d = false := by
      intro d mem
      rcases List.mem_cons.mp mem with rfl | mem
      · by_contra ends
        rw [isControl_lineEnd (by simpa using ends)] at control
        cases control
      · exact inLine d mem
    intro d mem
    simpa [isLineEnd] using notEnd d mem

end Scanner

end TelemtPanel.HTTPAPI
