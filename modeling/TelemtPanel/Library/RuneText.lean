import Mathlib

/-!
# Texts and their bytes

A text is a sequence of characters, and its bytes are their UTF-8 encodings one after
the other.  Any bytes are read from the left: a character where its encoding stands,
and otherwise one invalid byte.  A byte below the continuation bytes stands for itself
wherever it occurs, so that reading can be split at it.
-/

namespace TelemtPanel.Library

/-- Bytes of a text. -/
def encode (text : List Char) : List UInt8 := text.flatMap String.utf8EncodeChar

/-- Bytes are the encoding of a text. -/
def ValidUTF8 (bytes : List UInt8) : Prop := ∃ text, bytes = encode text

/-- Character whose encoding bytes begin with. -/
def decodeRune? (bytes : List UInt8) : Option Char := bytes.toByteArray.utf8DecodeChar? 0

variable {c : Char} {b : UInt8} {bytes rest front : List UInt8}

@[simp]
theorem encode_nil : encode [] = [] := rfl

@[simp]
theorem encode_cons (c : Char) (text : List Char) :
    encode (c :: text) = String.utf8EncodeChar c ++ encode text := rfl

@[simp]
theorem encode_append (text more : List Char) :
    encode (text ++ more) = encode text ++ encode more := List.flatMap_append

@[simp]
theorem decodeRune?_nil : decodeRune? [] = none := rfl

theorem toByteArray_inj {xs ys : List UInt8} (same : xs.toByteArray = ys.toByteArray) :
    xs = ys := by
  have data := congrArg (fun array => array.data.toList) same
  rwa [List.toList_data_toByteArray, List.toList_data_toByteArray] at data

@[simp]
theorem decodeRune?_encode (c : Char) (rest : List UInt8) :
    decodeRune? (String.utf8EncodeChar c ++ rest) = some c := by
  rw [decodeRune?, List.toByteArray_append]
  exact ByteArray.utf8DecodeChar?_utf8EncodeChar_append

theorem decodeRune?_eq_some_iff :
    decodeRune? bytes = some c ↔ ∃ rest, bytes = String.utf8EncodeChar c ++ rest := by
  constructor
  · intro found
    rcases ByteArray.exists_of_utf8DecodeChar?_eq_some found with ⟨more, same⟩
    refine ⟨more.data.toList, toByteArray_inj ?_⟩
    have whole : more = more.data.toList.toByteArray :=
      ByteArray.ext (Array.toList_inj.mp List.toList_data_toByteArray.symm)
    rw [same, List.toByteArray_append, ← whole]
  · rintro ⟨rest, rfl⟩
    exact decodeRune?_encode c rest

theorem utf8EncodeChar_ne_nil (c : Char) : String.utf8EncodeChar c ≠ [] := by
  have positive := c.utf8Size_pos
  rw [← String.length_utf8EncodeChar] at positive
  exact List.length_pos_iff.mp positive

/-- A character of the lower half is its own byte. -/
theorem utf8EncodeChar_low (low : c.toNat < 0x80) :
    String.utf8EncodeChar c = [c.toUInt8] := by
  have small : c.utf8Size = 1 := by
    rw [Char.utf8Size_eq_one_iff, UInt32.le_iff_toNat_le]
    change c.toNat ≤ 127
    omega
  exact String.utf8EncodeChar_eq_singleton small

theorem toNat_toUInt8 (low : c.toNat < 0x80) : c.toUInt8.toNat = c.toNat := by
  change (UInt8.ofNat c.toNat).toNat = c.toNat
  rw [UInt8.toNat_ofNat']
  omega

/-- Every byte of another character is in the upper half. -/
theorem high_of_mem_utf8EncodeChar (high : 0x80 ≤ c.toNat) (mem : b ∈ String.utf8EncodeChar c) :
    0x80 ≤ b := by
  have lead (b : UInt8) : 0x80 ≤ (b ||| 0x80) ∧ 0x80 ≤ (b ||| 0xc0) ∧ 0x80 ≤ (b ||| 0xe0) ∧
      0x80 ≤ (b ||| 0xf0) := by
    revert b
    decide +kernel
  rcases c.utf8Size_eq with one | two | three | four
  · rw [Char.utf8Size_eq_one_iff, UInt32.le_iff_toNat_le] at one
    change c.toNat ≤ 127 at one
    omega
  · rw [String.utf8EncodeChar_eq_cons_cons two] at mem
    simp only [List.mem_cons, List.not_mem_nil, or_false] at mem
    rcases mem with rfl | rfl
    · exact (lead _).2.1
    · exact (lead _).1
  · rw [String.utf8EncodeChar_eq_cons_cons_cons three] at mem
    simp only [List.mem_cons, List.not_mem_nil, or_false] at mem
    rcases mem with rfl | rfl | rfl
    · exact (lead _).2.2.1
    · exact (lead _).1
    · exact (lead _).1
  · rw [String.utf8EncodeChar_eq_cons_cons_cons_cons four] at mem
    simp only [List.mem_cons, List.not_mem_nil, or_false] at mem
    rcases mem with rfl | rfl | rfl | rfl
    · exact (lead _).2.2.2
    · exact (lead _).1
    · exact (lead _).1
    · exact (lead _).1

/-- A byte behind the first one of an encoding begins no encoding. -/
theorem not_first_of_mem_tail (mem : b ∈ (String.utf8EncodeChar c).tail) :
    ¬b.IsUTF8FirstByte := by
  rcases List.mem_iff_getElem.mp mem with ⟨index, inside, rfl⟩
  rw [List.getElem_tail, UInt8.isUTF8FirstByte_getElem_utf8EncodeChar]
  omega

theorem isFirst_of_low (low : b < 0x80) : b.IsUTF8FirstByte := by
  revert b
  decide +kernel

/-- The character whose only byte is in the lower half. -/
theorem utf8EncodeChar_toChar (low : b < 0x80) :
    String.utf8EncodeChar (Char.ofUInt8 b) = [b] := by
  revert b
  decide +kernel

/-- Induction along the reading of bytes from the left. -/
@[elab_as_elim]
theorem readInduction {P : List UInt8 → Prop} (bytes : List UInt8) (nil : P [])
    (rune : ∀ c rest, P rest → P (String.utf8EncodeChar c ++ rest))
    (invalid : ∀ b rest, decodeRune? (b :: rest) = none → P rest → P (b :: rest)) : P bytes := by
  induction size : bytes.length using Nat.strong_induction_on generalizing bytes with
  | _ size ih =>
      cases bytes with
      | nil => exact nil
      | cons b rest =>
          cases found : decodeRune? (b :: rest) with
          | none => exact invalid b rest found (ih _ (by simp [← size]) rest rfl)
          | some c =>
              rcases decodeRune?_eq_some_iff.mp found with ⟨more, same⟩
              have shorter := congrArg List.length same
              have positive := c.utf8Size_pos
              rw [List.length_append, String.length_utf8EncodeChar] at shorter
              rw [same]
              exact rune c more (ih _ (by omega) more rfl)

/-- Reads bytes from the left: a character where its encoding stands, otherwise nothing for one
invalid byte. -/
def readRunes (bytes : List UInt8) : List (Option Char) :=
  match bytes with
  | [] => []
  | b :: rest =>
      match decodeRune? (b :: rest) with
      | some c => some c :: readRunes (rest.drop (c.utf8Size - 1))
      | none => none :: readRunes rest
termination_by bytes.length
decreasing_by all_goals simp; try omega

@[simp]
theorem readRunes_nil : readRunes [] = [] := by rw [readRunes]

@[simp]
theorem readRunes_rune (c : Char) (rest : List UInt8) :
    readRunes (String.utf8EncodeChar c ++ rest) = some c :: readRunes rest := by
  rcases List.exists_cons_of_ne_nil (utf8EncodeChar_ne_nil c) with ⟨b, more, same⟩
  have found := decodeRune?_encode c rest
  have size := String.length_utf8EncodeChar c
  rw [same, List.length_cons] at size
  rw [same, List.cons_append] at found ⊢
  rw [readRunes, found]
  simp only
  rw [← size, Nat.add_sub_cancel, List.drop_left]

theorem readRunes_invalid (invalid : decodeRune? (b :: rest) = none) :
    readRunes (b :: rest) = none :: readRunes rest := by
  rw [readRunes, invalid]

theorem readRunes_encode (text : List Char) : readRunes (encode text) = text.map some := by
  induction text with
  | nil => simp
  | cons c text ih => rw [encode_cons, readRunes_rune, ih, List.map_cons]

theorem readRunes_low (low : b < 0x80) (rest : List UInt8) :
    readRunes (b :: rest) = some (Char.ofUInt8 b) :: readRunes rest := by
  rw [← List.singleton_append, ← utf8EncodeChar_toChar low, readRunes_rune]

/-- What is invalid remains so in front of a byte of the lower half. -/
theorem invalid_append_low (invalid : decodeRune? (b :: front) = none) {low : UInt8}
    (isLow : low < 0x80) : decodeRune? (b :: front ++ low :: rest) = none := by
  by_contra valid
  rcases Option.ne_none_iff_exists'.mp valid with ⟨c, found⟩
  rcases decodeRune?_eq_some_iff.mp found with ⟨more, same⟩
  have whole : ∀ behind, b :: front ≠ String.utf8EncodeChar c ++ behind := by
    intro behind isRune
    rw [isRune, decodeRune?_encode] at invalid
    cases invalid
  rcases List.append_eq_append_iff.mp same with ⟨inside, isRune, isRest⟩ | ⟨behind, isRune, -⟩
  · cases inside with
    | nil => exact whole [] (by rw [isRune]; simp)
    | cons next inside =>
        rw [List.cons_append, List.cons_eq_cons] at isRest
        have inTail : low ∈ (String.utf8EncodeChar c).tail := by
          rw [isRune, isRest.1]
          simp
        exact not_first_of_mem_tail inTail (isFirst_of_low isLow)
  · exact whole behind isRune

/-- Reading can be split at a byte of the lower half. -/
theorem readRunes_append_low {low : UInt8} (isLow : low < 0x80) (front rest : List UInt8) :
    readRunes (front ++ low :: rest) =
      readRunes front ++ some (Char.ofUInt8 low) :: readRunes rest := by
  induction front using readInduction with
  | nil => rw [List.nil_append, readRunes_low isLow, readRunes_nil, List.nil_append]
  | rune c front ih => rw [List.append_assoc, readRunes_rune, readRunes_rune, ih, List.cons_append]
  | invalid b front invalid ih =>
      rw [List.cons_append, readRunes_invalid (List.cons_append ▸ invalid_append_low invalid isLow),
        ih, readRunes_invalid invalid, List.cons_append]

/-- Puts the replacement character for each maximal run of invalid bytes. -/
def replaceRuns : List (Option Char) → List Char
  | [] => []
  | some c :: rest => c :: replaceRuns rest
  | none :: rest => '\uFFFD' :: replaceRuns (rest.dropWhile Option.isNone)
termination_by runes => runes.length
decreasing_by
  · simp
  · exact Nat.lt_succ_of_le (List.length_dropWhile_le _ _)

/-- A text in the place of any bytes: each maximal run of invalid bytes is replaced. -/
def repair (bytes : List UInt8) : List Char := replaceRuns (readRunes bytes)

theorem replaceRuns_append (front rest : List (Option Char)) (c : Char) :
    replaceRuns (front ++ some c :: rest) = replaceRuns front ++ c :: replaceRuns rest := by
  fun_induction replaceRuns front with
  | case1 => rw [List.nil_append, replaceRuns, List.nil_append]
  | case2 d front ih => rw [List.cons_append, replaceRuns, ih, List.cons_append]
  | case3 front ih =>
      rw [List.cons_append, replaceRuns, List.cons_append, ← ih, List.dropWhile_append]
      split
      · rename_i empty
        rw [List.isEmpty_iff.mp empty, List.nil_append, List.dropWhile_cons_of_neg (by simp)]
      · rfl

theorem repair_append_low {low : UInt8} (isLow : low < 0x80) (front rest : List UInt8) :
    repair (front ++ low :: rest) = repair front ++ Char.ofUInt8 low :: repair rest := by
  rw [repair, readRunes_append_low isLow, replaceRuns_append, repair, repair]

/-- A byte of the lower half in a text is one of its characters. -/
theorem mem_encode_low {low : UInt8} (isLow : low < 0x80) {text : List Char} :
    low ∈ encode text ↔ Char.ofUInt8 low ∈ text := by
  have code : (Char.ofUInt8 low).toNat = low.toNat := by
    revert isLow
    revert low
    decide +kernel
  rw [encode, List.mem_flatMap]
  constructor
  · rintro ⟨c, mem, isByte⟩
    rcases lt_or_ge c.toNat 0x80 with below | above
    · rw [utf8EncodeChar_low below, List.mem_singleton] at isByte
      have same : c = Char.ofUInt8 low := by
        rw [← Char.toNat_inj, code, isByte, toNat_toUInt8 below]
      exact same ▸ mem
    · exact absurd isLow (UInt8.not_lt.mpr (high_of_mem_utf8EncodeChar above isByte))
  · intro mem
    exact ⟨_, mem, by rw [utf8EncodeChar_toChar isLow]; exact List.mem_singleton_self low⟩

theorem mem_replaceRuns {runes : List (Option Char)} (mem : c ∈ replaceRuns runes) :
    c = '\uFFFD' ∨ some c ∈ runes := by
  fun_induction replaceRuns runes with
  | case1 => cases mem
  | case2 d rest ih =>
      rcases List.mem_cons.mp mem with rfl | mem
      · exact .inr List.mem_cons_self
      · exact (ih mem).imp_right (List.mem_cons_of_mem _)
  | case3 rest ih =>
      rcases List.mem_cons.mp mem with rfl | mem
      · exact .inl rfl
      · exact (ih mem).imp_right fun found =>
          List.mem_cons_of_mem _ ((List.dropWhile_suffix _).subset found)

theorem mem_of_mem_readRunes (read : some c ∈ readRunes bytes)
    (isByte : b ∈ String.utf8EncodeChar c) : b ∈ bytes := by
  induction bytes using readInduction with
  | nil => simp at read
  | rune d rest ih =>
      rw [readRunes_rune, List.mem_cons, Option.some_inj] at read
      rcases read with rfl | read
      · exact List.mem_append_left _ isByte
      · exact List.mem_append_right _ (ih read)
  | invalid d rest invalid ih =>
      rw [readRunes_invalid invalid, List.mem_cons] at read
      rcases read with none | read
      · cases none
      · exact List.mem_cons_of_mem _ (ih read)

/-- A repaired text has no character of the lower half that the bytes do not have. -/
theorem mem_of_mem_repair {low : UInt8} (isLow : low < 0x80)
    (mem : Char.ofUInt8 low ∈ repair bytes) : low ∈ bytes := by
  rcases mem_replaceRuns mem with isReplacement | read
  · have other : ∀ low : UInt8, low < 0x80 → Char.ofUInt8 low ≠ '\uFFFD' := by decide +kernel
    exact absurd isReplacement (other low isLow)
  · refine mem_of_mem_readRunes read ?_
    rw [utf8EncodeChar_toChar isLow]
    exact List.mem_singleton_self low

end TelemtPanel.Library
