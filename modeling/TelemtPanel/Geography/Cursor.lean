import TelemtPanel.Library.Base64
import TelemtPanel.Library.NetText
import TelemtPanel.Library.RuneText

/-!
# Cursors

A cursor names the item behind which a page begins.  It travels as the JSON text of a record,
written in base64, and is refused when it is too long or was made for another query.

The reader accepts what the decoder of a record with these fields accepts: members in any order,
repeated or missing, field names in any case, `null` for an unchanged field and any escapes.
-/

namespace TelemtPanel.Geography

open TelemtPanel.Library

structure Cursor where
  snapshot : String
  kind : String
  filter : String
  weight : ℤ
  id : String
deriving DecidableEq

namespace Cursor

def zero : Cursor := ⟨"", "", "", 0, ""⟩

section Marshal

/-- Four hexadecimal digits. -/
def hex4 (code : ℕ) : List Char :=
  [code / 4096 % 16, code / 256 % 16, code / 16 % 16, code % 16].map Nat.digitChar

/-- Whether a character is written by its number. -/
def isCoded (c : Char) : Bool :=
  c.toNat < 0x20 || c ∈ ['<', '>', '&', '\u2028', '\u2029']

/-- The letter of a short escape. -/
def shortEscape (c : Char) : Option Char :=
  if c = '"' then some '"'
  else if c = '\\' then some '\\'
  else if c = '\x08' then some 'b'
  else if c = '\x0c' then some 'f'
  else if c = '\n' then some 'n'
  else if c = '\r' then some 'r'
  else if c = '\t' then some 't'
  else none

def escapeChar (c : Char) : List Char :=
  match shortEscape c with
  | some letter => ['\\', letter]
  | none => if isCoded c then '\\' :: 'u' :: hex4 c.toNat else [c]

def quote (s : String) : List Char := '"' :: (s.toList.flatMap escapeChar ++ ['"'])

def writeInt (n : ℤ) : List Char :=
  (if n < 0 then ['-'] else []) ++ Nat.toDigits 10 n.natAbs

def member (name : String) (value : List Char) : List Char := quote name ++ ':' :: value

/-- `json.Marshal` -/
def marshal (c : Cursor) : List Char :=
  '{' :: ([','].intercalate [member "snapshot" (quote c.snapshot), member "kind" (quote c.kind),
    member "filter" (quote c.filter), member "weight" (writeInt c.weight),
    member "id" (quote c.id)] ++ ['}'])

end Marshal

section Unmarshal

def isSpace (c : Char) : Bool := c = ' ' || c = '\t' || c = '\n' || c = '\r'

def skipSpace (text : List Char) : List Char := text.dropWhile isSpace

/-- A part of a string: a character or a number of four hexadecimal digits. -/
inductive Unit where
  | rune (c : Char)
  | code (value : ℕ)

def getu4 (w x y z : Char) : Option ℕ := do
  let w ← Addr.hexDigit w
  let x ← Addr.hexDigit x
  let y ← Addr.hexDigit y
  let z ← Addr.hexDigit z
  return 4096 * w + 256 * x + 16 * y + z

/-- The character of a short escape. -/
def unescape (letter : Char) : Option Char :=
  if letter = '"' then some '"'
  else if letter = '\\' then some '\\'
  else if letter = '/' then some '/'
  else if letter = 'b' then some '\x08'
  else if letter = 'f' then some '\x0c'
  else if letter = 'n' then some '\n'
  else if letter = 'r' then some '\r'
  else if letter = 't' then some '\t'
  else none

/-- One part of a string behind its quote, and the rest. -/
def readUnit (c : Char) (rest : List Char) : Option (Unit × List Char) :=
  if c = '\\' then
    match rest with
    | 'u' :: w :: x :: y :: z :: rest => (getu4 w x y z).map fun value => (.code value, rest)
    | letter :: rest => (unescape letter).map fun c => (.rune c, rest)
    | [] => none
  else if c.toNat < 0x20 then none
  else some (.rune c, rest)

/-- The parts of a string up to its closing quote, at most so many. -/
def readUnits : (room : ℕ) → List Char → Option (List Unit × List Char)
  | 0, _ => none
  | _ + 1, [] => none
  | room + 1, c :: rest =>
      if c = '"' then some ([], rest)
      else do
        let (unit, rest) ← readUnit c rest
        let (units, rest) ← readUnits room rest
        return (unit :: units, rest)

def isSurrogate (value : ℕ) : Bool := 0xD800 ≤ value && value < 0xE000

/-- Surrogates make a character in pairs only. -/
def joinUnits : List Unit → List Char
  | [] => []
  | .rune c :: units => c :: joinUnits units
  | .code high :: .code low :: units =>
      if 0xD800 ≤ high ∧ high < 0xDC00 ∧ 0xDC00 ≤ low ∧ low < 0xE000 then
        Char.ofNat (0x10000 + 1024 * (high - 0xD800) + (low - 0xDC00)) :: joinUnits units
      else
        (if isSurrogate high then '\uFFFD' else Char.ofNat high) ::
          joinUnits (.code low :: units)
  | .code value :: units =>
      (if isSurrogate value then '\uFFFD' else Char.ofNat value) :: joinUnits units

def readString : List Char → Option (String × List Char)
  | '"' :: text => (readUnits text.length text).map fun (units, rest) =>
      (String.ofList (joinUnits units), rest)
  | _ => none

/-- An integer of 64 bits.  Other numbers do not fit the field. -/
def readInt (text : List Char) : Option (ℤ × List Char) :=
  let unsigned := if text.head? = some '-' then text.tail else text
  let digits := unsigned.takeWhile Char.isDigit
  let rest := unsigned.drop digits.length
  if digits = [] ∨ (digits.head? = some '0' ∧ digits.length ≠ 1) then none
  else if rest.head?.any fun c => c = '.' || c = 'e' || c = 'E' then none
  else
    let size : ℤ := Nat.ofDigitChars 10 digits 0
    let value := if text.head? = some '-' then -size else size
    if value < -2 ^ 63 ∨ 2 ^ 63 ≤ value then none else some (value, rest)

def readNull : List Char → Option (List Char)
  | 'n' :: 'u' :: 'l' :: 'l' :: rest => some rest
  | _ => none

/-- Field names are compared in one case. -/
def foldRune (c : Char) : Char :=
  if c = '\u017F' then 's' else if c = '\u212A' then 'k' else c.toLower

def foldName (name : String) : List Char := name.toList.map foldRune

/-- Reads the value of a field.  A field of another name is an error. -/
def readField (c : Cursor) (name : String) (text : List Char) : Option (Cursor × List Char) :=
  let name := foldName name
  if name = "snapshot".toList then
    (((readNull text).map (c.snapshot, ·)) <|> readString text).map fun (value, rest) =>
      ({ c with snapshot := value }, rest)
  else if name = "kind".toList then
    (((readNull text).map (c.kind, ·)) <|> readString text).map fun (value, rest) =>
      ({ c with kind := value }, rest)
  else if name = "filter".toList then
    (((readNull text).map (c.filter, ·)) <|> readString text).map fun (value, rest) =>
      ({ c with filter := value }, rest)
  else if name = "weight".toList then
    (((readNull text).map (c.weight, ·)) <|> readInt text).map fun (value, rest) =>
      ({ c with weight := value }, rest)
  else if name = "id".toList then
    (((readNull text).map (c.id, ·)) <|> readString text).map fun (value, rest) =>
      ({ c with id := value }, rest)
  else none

/-- The members of a record up to its closing brace, at most so many. -/
def readMembers : (room : ℕ) → Cursor → List Char → Option (Cursor × List Char)
  | 0, _, _ => none
  | room + 1, c, text => do
      let (name, text) ← readString (skipSpace text)
      match skipSpace text with
      | ':' :: text =>
          let (c, text) ← readField c name (skipSpace text)
          match skipSpace text with
          | ',' :: text => readMembers room c text
          | '}' :: text => some (c, text)
          | _ => none
      | _ => none

/-- `json.Decoder.Decode` with unknown fields disallowed. -/
def unmarshal (text : List Char) : Option (Cursor × List Char) :=
  match skipSpace text with
  | '{' :: text =>
      match skipSpace text with
      | '}' :: rest => some (zero, rest)
      | text => readMembers text.length zero text
  | text => (readNull text).map (zero, ·)

end Unmarshal

section RoundTrip

/-- The part of a string that a character is written as. -/
def unitOf (c : Char) : Unit :=
  if (shortEscape c).isNone && isCoded c then .code c.toNat else .rune c

theorem unescape_shortEscape {c letter : Char} (isShort : shortEscape c = some letter) :
    letter ≠ 'u' ∧ unescape letter = some c := by
  unfold shortEscape at isShort
  split_ifs at isShort with a b c d e f g <;> cases isShort <;> subst_vars <;> decide

theorem toNat_of_isCoded {c : Char} (coded : isCoded c = true) :
    c.toNat < 0x10000 ∧ isSurrogate c.toNat = false := by
  simp only [isCoded, Bool.or_eq_true, decide_eq_true_eq, List.mem_cons, List.not_mem_nil,
    or_false] at coded
  simp only [isSurrogate, Bool.and_eq_false_iff, decide_eq_false_iff_not]
  rcases coded with low | rfl | rfl | rfl | rfl | rfl
  · omega
  all_goals decide

theorem getu4_hex4 {code : ℕ} (small : code < 0x10000) : ∃ w x y z,
    hex4 code = [w, x, y, z] ∧ getu4 w x y z = some code := by
  refine ⟨_, _, _, _, rfl, ?_⟩
  simp only [getu4, Addr.hexDigit_digitChar (Nat.mod_lt _ (by decide : 0 < 16)),
    Option.bind_eq_bind, Option.bind_some]
  have value : 4096 * (code / 4096 % 16) + 256 * (code / 256 % 16) + 16 * (code / 16 % 16) +
      code % 16 = code := by omega
  exact congrArg some value

/-- A character is read as it was written. -/
theorem readUnit_escapeChar (c : Char) : ∃ first tail, escapeChar c = first :: tail ∧
    first ≠ '"' ∧ ∀ rest, readUnit first (tail ++ rest) = some (unitOf c, rest) := by
  unfold escapeChar unitOf
  cases short : shortEscape c with
  | some letter =>
      rcases unescape_shortEscape short with ⟨notCode, isLetter⟩
      refine ⟨'\\', [letter], rfl, by decide, ?_⟩
      intro rest
      have read : readUnit '\\' (letter :: rest) =
          (unescape letter).map fun c => (.rune c, rest) := by
        unfold readUnit
        split
        · split
          · rename_i same
            exact absurd (List.cons.inj same).1 notCode
          · rename_i same
            cases same
            rfl
          · rename_i absurd
            cases absurd
        · rename_i other
          exact absurd rfl other
      simp [read, isLetter]
  | none =>
      dsimp only
      split
      · rename_i coded
        rcases toNat_of_isCoded coded with ⟨small, -⟩
        rcases getu4_hex4 small with ⟨w, x, y, z, written, read⟩
        refine ⟨'\\', 'u' :: hex4 c.toNat, rfl, by decide, ?_⟩
        intro rest
        simp [written, readUnit, read, coded]
      · rename_i plain
        have notQuote : c ≠ '"' := by
          rintro rfl
          cases short
        have notEscape : c ≠ '\\' := by
          rintro rfl
          cases short
        have high : ¬c.toNat < 0x20 := by
          intro low
          simp [isCoded, low] at plain
        refine ⟨c, [], rfl, notQuote, ?_⟩
        intro rest
        simp [readUnit, notEscape, high, plain]

theorem readUnits_escape (text : List Char) {room : ℕ} (enough : text.length < room)
    (rest : List Char) :
    readUnits room (text.flatMap escapeChar ++ '"' :: rest) = some (text.map unitOf, rest) := by
  induction text generalizing room with
  | nil =>
      cases room with
      | zero => cases enough
      | succ room => rfl
  | cons c text ih =>
      cases room with
      | zero => cases enough
      | succ room =>
          rcases readUnit_escapeChar c with ⟨first, tail, written, notQuote, read⟩
          have later := ih (Nat.lt_of_succ_lt_succ enough)
          rw [List.flatMap_cons, written, List.append_assoc, List.cons_append, readUnits,
            if_neg notQuote, read, Option.bind_eq_bind, Option.bind_some]
          dsimp only
          rw [later]
          rfl

theorem joinUnits_code {value : ℕ} (single : isSurrogate value = false) (units : List Unit) :
    joinUnits (.code value :: units) = Char.ofNat value :: joinUnits units := by
  have outside := single
  simp only [isSurrogate, Bool.and_eq_false_iff, decide_eq_false_iff_not] at outside
  cases units with
  | nil => simp [joinUnits, single]
  | cons unit units =>
      cases unit with
      | rune c => simp [joinUnits, single]
      | code low =>
          rw [joinUnits, if_neg (by omega), single]
          rfl

theorem joinUnits_unitOf (text : List Char) : joinUnits (text.map unitOf) = text := by
  induction text with
  | nil => rfl
  | cons c text ih =>
      rw [List.map_cons, unitOf]
      split
      · rename_i coded
        rw [Bool.and_eq_true] at coded
        rw [joinUnits_code (toNat_of_isCoded coded.2).2, ih, Char.ofNat_toNat]
      · rw [joinUnits, ih]

theorem readString_quote (s : String) (rest : List Char) :
    readString (quote s ++ rest) = some (s, rest) := by
  have longer : s.toList.length <
      (s.toList.flatMap escapeChar ++ '"' :: rest).length := by
    have each : s.toList.length ≤ (s.toList.flatMap escapeChar).length := by
      rw [List.length_flatMap]
      apply le_of_eq_of_le (List.length_map _).symm (List.length_le_sum_of_one_le _ _)
      intro n mem
      rcases List.mem_map.mp mem with ⟨c, -, rfl⟩
      rcases readUnit_escapeChar c with ⟨first, tail, written, -⟩
      rw [written]
      exact Nat.succ_pos _
    rw [List.length_append, List.length_cons]
    omega
  rw [quote, List.cons_append, List.append_assoc, readString]
  simp only [List.singleton_append]
  rw [readUnits_escape s.toList longer rest, Option.map_some, joinUnits_unitOf,
    String.ofList_toList]

theorem head_toDigits {n : ℕ} (zero : (Nat.toDigits 10 n).head? = some '0') : n = 0 := by
  induction n using Nat.strong_induction_on with
  | _ n ih =>
      rw [Nat.toDigits_eq_if (by decide)] at zero
      split at zero
      · rename_i small
        interval_cases n <;> first | rfl | cases zero
      · rename_i large
        rw [List.head?_append_of_ne_nil _ Nat.toDigits_ne_nil] at zero
        have none := ih (n / 10) (by omega) zero
        omega

theorem readInt_writeInt {n : ℤ} (positive : 0 ≤ n) (small : n < 2 ^ 63) (rest : List Char) :
    readInt (writeInt n ++ ',' :: rest) = some (n, ',' :: rest) := by
  have digits : ∀ c ∈ Nat.toDigits 10 n.natAbs, c.isDigit = true := fun c mem =>
    Nat.isDigit_of_mem_toDigits (by decide) (by decide) mem
  have unsigned : (writeInt n ++ ',' :: rest) = Nat.toDigits 10 n.natAbs ++ ',' :: rest := by
    rw [writeInt, if_neg (not_lt.mpr positive), List.nil_append]
  have notSign : (Nat.toDigits 10 n.natAbs ++ ',' :: rest).head? ≠ some '-' := by
    rw [List.head?_append_of_ne_nil _ Nat.toDigits_ne_nil]
    intro isSign
    have isDigit := digits _ (List.mem_of_head? isSign)
    cases isDigit
  have taken : (Nat.toDigits 10 n.natAbs ++ ',' :: rest).takeWhile Char.isDigit =
      Nat.toDigits 10 n.natAbs := by
    rw [List.takeWhile_append_of_pos digits]
    simp
  have leading : ¬(Nat.toDigits 10 n.natAbs = [] ∨
      (Nat.toDigits 10 n.natAbs).head? = some '0' ∧ (Nat.toDigits 10 n.natAbs).length ≠ 1) := by
    rintro (none | ⟨zero, long⟩)
    · exact Nat.toDigits_ne_nil none
    · rw [head_toDigits zero] at long
      exact long rfl
  have value : ((n.natAbs : ℕ) : ℤ) = n := Int.natAbs_of_nonneg positive
  rw [unsigned, readInt]
  simp only [if_neg notSign, taken, if_neg leading, List.drop_left, Nat.ofDigitChars_ten_toDigits,
    value]
  simp
  omega

theorem skipSpace_quote (s : String) (rest : List Char) :
    skipSpace (quote s ++ rest) = quote s ++ rest := rfl

/-- A member is read as it was written. -/
theorem readMembers_member {c next : Cursor} {name : String} {value rest : List Char}
    (plain : skipSpace (value ++ rest) = value ++ rest)
    (read : readField c name (value ++ rest) = some (next, rest)) (room : ℕ) :
    readMembers (room + 1) c (member name value ++ rest) =
      match skipSpace rest with
      | ',' :: text => readMembers room next text
      | '}' :: text => some (next, text)
      | _ => none := by
  rw [member, List.append_assoc, readMembers, skipSpace_quote, readString_quote]
  simp only [Option.bind_eq_bind, Option.bind_some, List.cons_append]
  have colon : skipSpace (':' :: (value ++ rest)) = ':' :: (value ++ rest) := rfl
  rw [colon]
  simp only [plain, read, Option.bind_some]

/-- Behind a comma the next member is read. -/
theorem readMembers_next {c next : Cursor} {name : String} {value text : List Char}
    (plain : skipSpace (value ++ ',' :: text) = value ++ ',' :: text)
    (read : readField c name (value ++ ',' :: text) = some (next, ',' :: text)) (room : ℕ) :
    readMembers (room + 1) c (member name value ++ ',' :: text) = readMembers room next text := by
  rw [readMembers_member plain read]
  rfl

/-- The brace closes the record. -/
theorem readMembers_last {c next : Cursor} {name : String} {value : List Char}
    (plain : skipSpace (value ++ ['}']) = value ++ ['}'])
    (read : readField c name (value ++ ['}']) = some (next, ['}'])) (room : ℕ) :
    readMembers (room + 1) c (member name value ++ ['}']) = some (next, []) := by
  rw [readMembers_member plain read]
  rfl

theorem readNull_quote (s : String) (rest : List Char) : readNull (quote s ++ rest) = none := rfl

theorem writeInt_ne_null {n : ℤ} (positive : 0 ≤ n) (rest : List Char) :
    readNull (writeInt n ++ rest) = none ∧ skipSpace (writeInt n ++ rest) = writeInt n ++ rest := by
  rw [writeInt, if_neg (not_lt.mpr positive), List.nil_append]
  cases written : Nat.toDigits 10 n.natAbs with
  | nil => exact absurd written Nat.toDigits_ne_nil
  | cons first tail =>
      have digit : first.isDigit = true := by
        apply @Nat.isDigit_of_mem_toDigits 10 n.natAbs first (by decide) (by decide)
        rw [written]
        exact List.mem_cons_self
      constructor
      · rw [List.cons_append, readNull]
        intro tail same
        rw [(List.cons.inj same).1] at digit
        cases digit
      · rw [List.cons_append, skipSpace, List.dropWhile_cons_of_neg]
        intro space
        simp only [isSpace, Bool.or_eq_true, decide_eq_true_eq] at space
        rcases space with ((rfl | rfl) | rfl) | rfl <;> cases digit

/-- Each field of text takes the text that was written for it. -/
theorem readField_text :
    (∀ c s rest, readField c "snapshot" (quote s ++ rest) = some ({ c with snapshot := s }, rest)) ∧
    (∀ c s rest, readField c "kind" (quote s ++ rest) = some ({ c with kind := s }, rest)) ∧
    (∀ c s rest, readField c "filter" (quote s ++ rest) = some ({ c with filter := s }, rest)) ∧
    ∀ c s rest, readField c "id" (quote s ++ rest) = some ({ c with id := s }, rest) := by
  refine ⟨?_, ?_, ?_, ?_⟩ <;> intro c s rest <;>
    simp [readField, foldName, foldRune, readNull_quote, readString_quote]

theorem readField_weight {c : Cursor} {n : ℤ} {rest : List Char}
    (notNull : readNull (writeInt n ++ ',' :: rest) = none) (positive : 0 ≤ n)
    (small : n < 2 ^ 63) :
    readField c "weight" (writeInt n ++ ',' :: rest) = some ({ c with weight := n }, ',' :: rest) := by
  simp [readField, foldName, foldRune, notNull, readInt_writeInt positive small]

/-- A cursor is read as it was written. -/
theorem unmarshal_marshal {c : Cursor} (positive : 0 ≤ c.weight) (small : c.weight < 2 ^ 63) :
    unmarshal c.marshal = some (c, []) := by
  have written : c.marshal = '{' :: (member "snapshot" (quote c.snapshot) ++
      ',' :: (member "kind" (quote c.kind) ++ ',' :: (member "filter" (quote c.filter) ++
        ',' :: (member "weight" (writeInt c.weight) ++ ',' :: (member "id" (quote c.id) ++
          ['}']))))) := by
    simp [marshal, List.intercalate]
  set text := member "snapshot" (quote c.snapshot) ++
      ',' :: (member "kind" (quote c.kind) ++ ',' :: (member "filter" (quote c.filter) ++
        ',' :: (member "weight" (writeInt c.weight) ++ ',' :: (member "id" (quote c.id) ++
          ['}'])))) with textEq
  have opens : unmarshal ('{' :: text) = readMembers text.length zero text := rfl
  have enough : 5 ≤ text.length := by
    rw [textEq]
    simp only [member, quote, List.length_append, List.length_cons]
    omega
  rcases Nat.exists_eq_add_of_le' enough with ⟨room, isRoom⟩
  rcases writeInt_ne_null positive (',' :: (member "id" (quote c.id) ++ ['}'])) with
    ⟨notNull, plain⟩
  rw [written, opens, isRoom, textEq, readMembers_next (skipSpace_quote _ _) (readField_text.1 _ _ _),
    readMembers_next (skipSpace_quote _ _) (readField_text.2.1 _ _ _),
    readMembers_next (skipSpace_quote _ _) (readField_text.2.2.1 _ _ _),
    readMembers_next plain (readField_weight notNull positive small),
    readMembers_last (skipSpace_quote _ _) (readField_text.2.2.2 _ _ _)]

end RoundTrip

end Cursor

def cursorRoom : ℕ := 1024

def decodeCursor (raw : String) (want : Cursor) : Option Cursor :=
  if cursorRoom < raw.utf8ByteSize then none
  else do
    let data ← Base64.decode raw.toList
    let (c, rest) ← Cursor.unmarshal ((readRunes data).map (·.getD '\uFFFD'))
    if c.snapshot ≠ want.snapshot ∨ c.kind ≠ want.kind ∨ c.filter ≠ want.filter ∨
        c.weight < 0 ∨ c.id = "" then none
    else if Cursor.skipSpace rest ≠ [] then none
    else some c

def encodeCursor (c : Cursor) : String := String.ofList (Base64.encode (encode c.marshal))

section Size

namespace Cursor

/-- Bytes of a character in a quoted text. -/
def escapedSize (c : Char) : ℕ :=
  if (shortEscape c).isSome then 2 else if isCoded c then 6 else c.utf8Size

/-- Bytes of a text between its quotes. -/
def textSize (s : String) : ℕ := (s.toList.map escapedSize).sum

/-- Bytes of the record. -/
def size (c : Cursor) : ℕ :=
  55 + textSize c.snapshot + textSize c.kind + textSize c.filter + (writeInt c.weight).length +
    textSize c.id

theorem length_encode (text : List Char) : (encode text).length = (text.map Char.utf8Size).sum := by
  rw [encode, List.length_flatMap]
  simp only [String.length_utf8EncodeChar]

theorem utf8Size_hex4 (code : ℕ) : ((hex4 code).map Char.utf8Size).sum = 4 := by
  have one {digit : ℕ} (proper : digit < 16) : (Nat.digitChar digit).utf8Size = 1 := by
    interval_cases digit <;> rfl
  simp [hex4, one (Nat.mod_lt _ (by decide : 0 < 16))]

theorem size_escapeChar (c : Char) : ((escapeChar c).map Char.utf8Size).sum = escapedSize c := by
  unfold escapeChar escapedSize
  cases short : shortEscape c with
  | some letter =>
      have one : letter.utf8Size = 1 := by
        unfold shortEscape at short
        split_ifs at short <;> cases short <;> rfl
      simp only [Option.isSome_some, ↓reduceIte, List.map_cons, List.map_nil, List.sum_cons,
        List.sum_nil, one]
      rfl
  | none =>
      simp only [Option.isSome_none, Bool.false_eq_true, ↓reduceIte]
      split
      · rw [List.map_cons, List.map_cons, List.sum_cons, List.sum_cons, utf8Size_hex4]
        rfl
      · simp

theorem size_quote (s : String) : ((quote s).map Char.utf8Size).sum = 2 + textSize s := by
  have escaped : ((s.toList.flatMap escapeChar).map Char.utf8Size).sum = textSize s := by
    rw [textSize]
    induction s.toList with
    | nil => rfl
    | cons c text ih =>
        rw [List.flatMap_cons, List.map_append, List.sum_append, ih, size_escapeChar,
          List.map_cons, List.sum_cons]
  rw [quote, List.map_cons, List.sum_cons, List.map_append, List.sum_append, escaped]
  have quoteSize : ('"').utf8Size = 1 := rfl
  simp only [List.map_cons, List.map_nil, List.sum_cons, List.sum_nil, quoteSize]
  omega

theorem size_writeInt (n : ℤ) :
    ((writeInt n).map Char.utf8Size).sum = (writeInt n).length := by
  have one : ∀ c ∈ writeInt n, c.utf8Size = 1 := by
    intro c mem
    rcases List.mem_append.mp mem with sign | digit
    · split at sign
      · rw [List.mem_singleton.mp sign]
        rfl
      · cases sign
    · have isDigit := Nat.isDigit_of_mem_toDigits (by decide) (by decide) digit
      simp only [Char.isDigit, Bool.and_eq_true, decide_eq_true_eq] at isDigit
      apply Char.utf8Size_eq_one_iff.mpr
      have low := UInt32.le_iff_toNat_le.mp isDigit.2
      exact UInt32.le_iff_toNat_le.mpr (low.trans (by decide))
  rw [List.map_congr_left one]
  simp

theorem length_marshal (c : Cursor) : (encode c.marshal).length = c.size := by
  rw [length_encode]
  simp only [marshal, List.intercalate, List.intersperse, member, List.flatten_cons,
    List.flatten_nil, List.map_cons, List.map_append, List.sum_cons, List.sum_append, size_quote,
    size_writeInt, List.map_nil, List.sum_nil]
  have names : textSize "snapshot" = 8 ∧ textSize "kind" = 4 ∧ textSize "filter" = 6 ∧
      textSize "weight" = 6 ∧ textSize "id" = 2 := by decide +kernel
  have marks : ('{').utf8Size = 1 ∧ ('}').utf8Size = 1 ∧ (',').utf8Size = 1 ∧
      (':').utf8Size = 1 := by decide
  rw [names.1, names.2.1, names.2.2.1, names.2.2.2.1, names.2.2.2.2, marks.1, marks.2.1,
    marks.2.2.1, marks.2.2.2, size]
  omega

end Cursor

theorem utf8ByteSize_ofList (text : List Char) :
    (String.ofList text).utf8ByteSize = (text.map Char.utf8Size).sum := by
  induction text with
  | nil => rfl
  | cons c text ih =>
      rw [String.ofList_cons, String.utf8ByteSize_append, String.utf8ByteSize_singleton,
        List.map_cons, List.sum_cons, ih]

theorem utf8ByteSize_encodeCursor (c : Cursor) :
    (encodeCursor c).utf8ByteSize = (8 * c.size + 5) / 6 := by
  have one : ∀ letter ∈ Base64.encode (encode c.marshal), letter.utf8Size = 1 := by
    intro letter mem
    rw [Base64.encode_eq] at mem
    rcases List.mem_map.mp mem with ⟨value, there, rfl⟩
    have proper := Base64.lt_of_mem_sextets there
    interval_cases value <;> rfl
  rw [encodeCursor, utf8ByteSize_ofList, List.map_congr_left one, ← Cursor.length_marshal,
    ← Base64.length_encode]
  simp

/-- The longest record that fits a cursor. -/
def recordRoom : ℕ := 768

/-- A cursor is accepted by the query it was made for exactly when its record is not too long. -/
theorem decodeCursor_encodeCursor {c want : Cursor} (snapshot : c.snapshot = want.snapshot)
    (kind : c.kind = want.kind) (filter : c.filter = want.filter) (positive : 0 ≤ c.weight)
    (small : c.weight < 2 ^ 63) (named : c.id ≠ "") :
    decodeCursor (encodeCursor c) want = if c.size ≤ recordRoom then some c else none := by
  unfold decodeCursor
  rw [utf8ByteSize_encodeCursor]
  by_cases fits : c.size ≤ recordRoom
  · have runes : (readRunes (encode c.marshal)).map (·.getD '\uFFFD') = c.marshal := by
      rw [readRunes_encode, List.map_map]
      exact List.map_id _
    rw [if_pos fits, if_neg (by unfold cursorRoom; unfold recordRoom at fits; omega),
      encodeCursor, String.toList_ofList, Base64.decode_encode, Option.bind_eq_bind,
      Option.bind_some, runes, Cursor.unmarshal_marshal positive small, Option.bind_eq_bind,
      Option.bind_some]
    simp [snapshot, kind, filter, not_lt.mpr positive, named, Cursor.skipSpace]
  · rw [if_neg fits, if_pos (by unfold cursorRoom; unfold recordRoom at fits; omega)]

end Size

end TelemtPanel.Geography
