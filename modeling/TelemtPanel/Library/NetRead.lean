import TelemtPanel.Library.NetText

/-!
# Reading the canonical text of an address back

The canonical text of an address without a zone is read as that address.  A digit of a group never
starts a separator, so that every number is read up to the separator behind it.
-/

namespace TelemtPanel.Library.Addr

section Octets

variable {octets : List UInt8} {rest : List Char}

theorem digitChar_decimal {digit : ℕ} (proper : digit < 10) :
    ('0' ≤ Nat.digitChar digit ∧ Nat.digitChar digit ≤ '9') ∧
      (Nat.digitChar digit).toNat - '0'.toNat = digit := by
  interval_cases digit <;> decide

/-- The digits of an octet are read as its value. -/
theorem parseIPv4Fields_toDigits {number : ℕ} (small : number ≤ 255) (rest : List Char) :
    parseIPv4Fields none octets (Nat.toDigits 10 number ++ rest) =
      parseIPv4Fields (some number) octets rest := by
  induction number using Nat.strong_induction_on generalizing rest with
  | _ number ih =>
      rw [Nat.toDigits_eq_if (by decide)]
      split
      · rename_i oneDigit
        rcases digitChar_decimal oneDigit with ⟨isDigit, value⟩
        rw [List.singleton_append, parseIPv4Fields, if_pos isDigit, value]
      · rcases digitChar_decimal (Nat.mod_lt number (by decide)) with ⟨isDigit, value⟩
        rw [List.append_assoc, ih (number / 10) (by omega) (by omega), List.singleton_append,
          parseIPv4Fields, if_pos isDigit]
        simp only [value]
        rw [if_neg (by omega), Nat.div_add_mod]

theorem not_decimal_dot : ¬('0' ≤ '.' ∧ '.' ≤ '9') := by decide

/-- An octet and the dot behind it. -/
theorem parseIPv4Fields_dot {octet : UInt8} (room : octets.length ≠ 3) :
    parseIPv4Fields none octets (Nat.toDigits 10 octet.toNat ++ '.' :: rest) =
      parseIPv4Fields none (octets ++ [octet]) rest := by
  have small : octet.toNat ≤ 255 := Nat.le_of_lt_succ octet.toNat_lt
  rw [parseIPv4Fields_toDigits small, parseIPv4Fields, if_neg not_decimal_dot, if_pos rfl]
  simp only [UInt8.ofNat_toNat]
  rw [if_neg room]

/-- The last octet. -/
theorem parseIPv4Fields_last {octet : UInt8} (three : octets.length = 3) :
    parseIPv4Fields none octets (Nat.toDigits 10 octet.toNat) = some (octets ++ [octet]) := by
  have small : octet.toNat ≤ 255 := Nat.le_of_lt_succ octet.toNat_lt
  rw [← List.append_nil (Nat.toDigits 10 octet.toNat), parseIPv4Fields_toDigits small,
    parseIPv4Fields]
  simp only [UInt8.ofNat_toNat]
  rw [if_pos three]

theorem parseIPv4_writeOctets (octets : { octets : List UInt8 // octets.length = 4 }) :
    parseIPv4 (writeOctets octets.val) = some (.v4 octets) := by
  rcases octets with ⟨octets, four⟩
  rcases List.length_eq_four.mp four with ⟨a, b, c, d, rfl⟩
  have written : writeOctets [a, b, c, d] = Nat.toDigits 10 a.toNat ++ '.' ::
      (Nat.toDigits 10 b.toNat ++ '.' :: (Nat.toDigits 10 c.toNat ++ '.' ::
        Nat.toDigits 10 d.toNat)) := by
    simp [writeOctets, List.intercalate]
  have read : parseIPv4Fields none [] (writeOctets [a, b, c, d]) = some [a, b, c, d] := by
    rw [written, parseIPv4Fields_dot (by simp), parseIPv4Fields_dot (by simp),
      parseIPv4Fields_dot (by simp), parseIPv4Fields_last (by simp)]
    rfl
  simp [parseIPv4, read]

end Octets

section Groups

variable {read : Groups} {room : ℕ} {rest : List Char}

theorem takeWhile_writeGroup {group : UInt16}
    (stops : ∀ c ∈ rest.head?, hexDigit c = none) :
    (writeGroup group ++ rest).takeWhile (fun c => (hexDigit c).isSome) = writeGroup group := by
  have digits : ∀ c ∈ writeGroup group, (hexDigit c).isSome = true := by
    intro c mem
    rcases exists_digit_of_mem_toDigits (by decide) mem with ⟨digit, lt, rfl⟩
    rw [hexDigit_digitChar lt]
    rfl
  rw [List.takeWhile_append_of_pos digits]
  cases rest with
  | nil => simp
  | cons c rest => simp [stops c rfl]

/-- The digits of a group are read as the group. -/
theorem ofNat_hexValue_writeGroup (group : UInt16) :
    UInt16.ofNat (hexValue (writeGroup group)) = group := by
  have value : hexValue (writeGroup group) = group.toNat := ofDigits_toDigits (by decide) le_rfl
  rw [value, UInt16.ofNat_toNat]

theorem length_writeGroup_le (group : UInt16) : (writeGroup group).length ≤ 4 :=
  Nat.toDigits_length 16 group.toNat 4 (by decide) group.toNat_lt

theorem proper_writeGroup (group : UInt16) :
    ¬(writeGroup group = [] ∨ 4 < (writeGroup group).length) := by
  rintro (none | long)
  · exact writeGroup_ne_nil group none
  · exact absurd (length_writeGroup_le group) (not_le.mpr long)

/-- A group at the end of the text. -/
theorem parseGroups_last (group : UInt16) :
    parseGroups (room + 1) read (writeGroup group) =
      some { read with groups := read.groups ++ [group] } := by
  have digits := @takeWhile_writeGroup [] group (by simp)
  rw [List.append_nil] at digits
  rw [parseGroups]
  simp only [digits, List.drop_length, ofNat_hexValue_writeGroup]
  rw [if_neg (proper_writeGroup group)]

/-- A group and the single colon behind it. -/
theorem parseGroups_colon {group : UInt16} {c : Char} (noColon : c ≠ ':') :
    parseGroups (room + 1) read (writeGroup group ++ ':' :: c :: rest) =
      parseGroups room { read with groups := read.groups ++ [group] } (c :: rest) := by
  have digits := @takeWhile_writeGroup (':' :: c :: rest) group (by simp; rfl)
  rw [parseGroups]
  simp only [digits, List.drop_left, ofNat_hexValue_writeGroup]
  rw [if_neg (proper_writeGroup group), if_neg (by decide), if_neg (by simp), if_neg noColon]

/-- A group and the ellipsis behind it. -/
theorem parseGroups_ellipsis {group : UInt16} (first : read.ellipsis = none) :
    parseGroups (room + 1) read (writeGroup group ++ ':' :: ':' :: rest) =
      if rest = [] then
        some ⟨read.groups ++ [group], some (read.groups ++ [group]).length⟩
      else parseGroups room ⟨read.groups ++ [group], some (read.groups ++ [group]).length⟩ rest := by
  have digits := @takeWhile_writeGroup (':' :: ':' :: rest) group (by simp; rfl)
  rw [parseGroups]
  simp only [digits, List.drop_left, ofNat_hexValue_writeGroup]
  rw [if_neg (proper_writeGroup group), if_neg (by decide), if_neg (by simp), if_pos trivial,
    if_neg (by simp [first])]

theorem writeGroups_singleton (group : UInt16) : writeGroups [group] = writeGroup group := by
  simp [writeGroups, writeGroup, List.intercalate]

theorem writeGroups_cons (group next : UInt16) (groups : List UInt16) :
    writeGroups (group :: next :: groups) =
      writeGroup group ++ ':' :: writeGroups (next :: groups) := by
  simp [writeGroups, writeGroup, List.intercalate]

/-- Groups start with a digit. -/
theorem exists_head_writeGroups (group : UInt16) (groups : List UInt16) :
    ∃ c text, c ≠ ':' ∧ writeGroups (group :: groups) = c :: text := by
  have notColon : ∀ c ∈ writeGroup group, c ≠ ':' := by
    rintro c mem rfl
    exact notMem_toDigits (by decide) (by decide) rfl mem
  cases text : writeGroup group with
  | nil => exact absurd text (writeGroup_ne_nil group)
  | cons c digits =>
      have isDigit := notColon c (by rw [text]; exact List.mem_cons_self)
      cases groups with
      | nil => exact ⟨c, digits, isDigit, (writeGroups_singleton group).trans text⟩
      | cons next groups =>
          exact ⟨c, _, isDigit, by rw [writeGroups_cons, text, List.cons_append]⟩

/-- Groups at the end of the text. -/
theorem parseGroups_writeGroups (group : UInt16) (groups : List UInt16)
    (fits : groups.length < room) :
    parseGroups room read (writeGroups (group :: groups)) =
      some { read with groups := read.groups ++ group :: groups } := by
  induction groups generalizing group room read with
  | nil =>
      rcases Nat.exists_eq_add_of_lt fits with ⟨more, rfl⟩
      rw [writeGroups_singleton]
      exact parseGroups_last group
  | cons next groups ih =>
      rw [List.length_cons] at fits
      rcases Nat.exists_eq_add_of_lt fits with ⟨more, rfl⟩
      rcases exists_head_writeGroups next groups with ⟨c, text, noColon, written⟩
      rw [writeGroups_cons, written, parseGroups_colon noColon, ← written, ih next (by omega)]
      simp

/-- Groups, the ellipsis behind them, and what follows. -/
theorem parseGroups_writeGroups_ellipsis (taken : List UInt16) (group : UInt16)
    (groups : List UInt16) (fits : groups.length < room) :
    parseGroups room ⟨taken, none⟩ (writeGroups (group :: groups) ++ ':' :: ':' :: rest) =
      if rest = [] then
        some ⟨taken ++ group :: groups, some (taken ++ group :: groups).length⟩
      else parseGroups (room - groups.length - 1)
        ⟨taken ++ group :: groups, some (taken ++ group :: groups).length⟩ rest := by
  induction groups generalizing group room taken with
  | nil =>
      rcases Nat.exists_eq_add_of_lt fits with ⟨more, rfl⟩
      rw [writeGroups_singleton]
      exact parseGroups_ellipsis rfl
  | cons next groups ih =>
      rw [List.length_cons] at fits
      rcases Nat.exists_eq_add_of_lt fits with ⟨more, rfl⟩
      rcases exists_head_writeGroups next groups with ⟨c, text, noColon, written⟩
      have less : groups.length + 1 + more + 1 - (groups.length + 1) - 1 =
        groups.length + 1 + more - groups.length - 1 := by omega
      rw [writeGroups_cons, written, List.append_assoc, List.cons_append, List.cons_append,
        parseGroups_colon noColon, ← List.cons_append, ← written,
        ih (taken ++ [group]) next (by omega)]
      simp only [List.append_assoc, List.singleton_append, List.length_cons, less]

theorem writeGroups_nil : writeGroups [] = [] := rfl

theorem writeGroups_eq_nil {groups : List UInt16} : writeGroups groups = [] ↔ groups = [] := by
  constructor
  · intro empty
    cases groups with
    | nil => rfl
    | cons group groups =>
        rcases exists_head_writeGroups group groups with ⟨c, text, -, written⟩
        rw [written] at empty
        cases empty
  · rintro rfl
    rfl

/-- What an address is read as in front of its zone. -/
def readBody (body : List Char) : Option Groups :=
  match body with
  | ':' :: ':' :: [] => some ⟨[], some 0⟩
  | ':' :: ':' :: rest => parseGroups 8 ⟨[], some 0⟩ rest
  | _ => parseGroups 8 ⟨[], none⟩ body

theorem readBody_of_head {c : Char} {text : List Char} (noColon : c ≠ ':') :
    readBody (c :: text) = parseGroups 8 ⟨[], none⟩ (c :: text) := by
  unfold readBody
  split
  · rename_i same
    cases same
    exact absurd rfl noColon
  · rename_i same
    cases same
    exact absurd rfl noColon
  · rfl

/-- The groups in front of the ellipsis and behind it are read one after the other. -/
theorem readBody_ellipsis {before after : List UInt16} (few : before.length + after.length < 8) :
    readBody (writeGroups before ++ [':', ':'] ++ writeGroups after) =
      some ⟨before ++ after, some before.length⟩ := by
  cases before with
  | nil =>
      cases after with
      | nil => rfl
      | cons group groups =>
          rcases exists_head_writeGroups group groups with ⟨c, text, -, written⟩
          rw [List.length_cons, List.length_nil] at few
          have read := @parseGroups_writeGroups ⟨[], some 0⟩ 8 group groups (by omega)
          rw [writeGroups_nil, List.nil_append, List.cons_append, List.cons_append,
            List.nil_append]
          rw [written] at read ⊢
          exact read
  | cons group groups =>
      rcases exists_head_writeGroups group groups with ⟨c, text, noColon, written⟩
      rw [List.length_cons] at few
      have read := @parseGroups_writeGroups_ellipsis 8 (writeGroups after) [] group groups
        (by omega)
      rw [written, List.append_assoc, List.cons_append, readBody_of_head noColon,
        ← List.cons_append, ← written, List.cons_append, List.cons_append, List.nil_append, read]
      cases after with
      | nil => simp [writeGroups_nil]
      | cons next others =>
          rw [List.length_cons] at few
          rw [if_neg (by simp [writeGroups_eq_nil]), parseGroups_writeGroups _ _ (by omega)]
          rfl

theorem parseIPv6_of_readBody {text : List Char} {read : Groups}
    {groups : { groups : List UInt16 // groups.length = 8 }} (noZone : '%' ∉ text)
    (isRead : readBody text = some read)
    (room : read.ellipsis.isSome = true → read.groups.length < 8)
    (expanded : expandEllipsis read = groups.val) : parseIPv6 text = some (.v6 groups []) := by
  have whole : text.takeWhile (· ≠ '%') = text := by
    rw [List.takeWhile_eq_self_iff]
    intro c mem
    exact decide_eq_true fun same => noZone (same ▸ mem)
  have zoneless : text.drop (text.length + 1) = [] := List.drop_of_length_le (Nat.le_succ _)
  have full : (expandEllipsis read).length = 8 := expanded ▸ groups.property
  have fits : ¬(read.ellipsis.isSome = true ∧ 8 ≤ read.groups.length) := by
    rintro ⟨isSome, eight⟩
    exact absurd (room isSome) (not_lt.mpr eight)
  unfold parseIPv6
  simp only [whole, zoneless]
  rw [if_neg (by simp)]
  split
  · rename_i failed
    cases isRead.symm.trans failed
  · rename_i other found
    cases isRead.symm.trans found
    rw [if_neg fits, dif_pos full]
    simp only [expanded]

theorem parseIPv6_string6 (groups : { groups : List UInt16 // groups.length = 8 }) :
    parseIPv6 (string6 groups.val) = some (.v6 groups []) := by
  have noZone : '%' ∉ string6 groups.val := by
    have inText := percent_notMem_text (.v6 groups [])
    rwa [text, String.toList_ofList] at inText
  unfold string6 at noZone ⊢
  simp only at noZone ⊢
  split
  · rename_i noRun
    rw [if_pos noRun] at noZone
    cases known : groups.val with
    | nil =>
        have eight := groups.property
        rw [known] at eight
        cases eight
    | cons group others =>
        have eight := groups.property
        rw [known, List.length_cons] at eight
        rcases exists_head_writeGroups group others with ⟨c, text, noColon, written⟩
        have isRead : readBody (writeGroups (group :: others)) = some ⟨group :: others, none⟩ := by
          rw [written, readBody_of_head noColon, ← written, parseGroups_writeGroups _ _ (by omega)]
          rfl
        refine parseIPv6_of_readBody (known ▸ noZone) isRead ?_ ?_
        · intro isSome
          cases isSome
        · exact known.symm
  · rename_i run
    rw [if_neg run] at noZone
    rcases longestZeroRun_zeros groups.val with ⟨-, inside⟩
    have eight := groups.property
    have before : (groups.val.take (longestZeroRun groups.val).1).length =
        (longestZeroRun groups.val).1 := by
      rw [List.length_take]
      omega
    have after : (groups.val.drop ((longestZeroRun groups.val).1 +
        (longestZeroRun groups.val).2)).length =
          8 - (longestZeroRun groups.val).1 - (longestZeroRun groups.val).2 := by
      rw [List.length_drop]
      omega
    refine parseIPv6_of_readBody noZone (readBody_ellipsis (by omega)) ?_ ?_
    · intro _
      rw [List.length_append]
      omega
    · have whole := eq_of_longestZeroRun groups.val
      simp only [expandEllipsis, List.take_left, List.drop_left, List.length_append]
      simp only [eight, Nat.sub_sub] at whole
      exact whole.symm

end Groups

/-- The first separator of a text in which only one kind of separators stands. -/
theorem find?_separator {text : List Char} {separator : Char} (present : separator ∈ text)
    (isSeparator : separator = '.' ∨ separator = ':' ∨ separator = '%')
    (only : ∀ c ∈ text, (c = '.' ∨ c = ':' ∨ c = '%') → c = separator) :
    (text.find? fun c => c = '.' ∨ c = ':' ∨ c = '%') = some separator := by
  cases found : text.find? fun c => c = '.' ∨ c = ':' ∨ c = '%' with
  | none =>
      have absent := List.find?_eq_none.mp found separator present
      exact absurd (decide_eq_true isSeparator) absent
  | some c =>
      have separates := List.find?_some found
      rw [decide_eq_true_eq] at separates
      rw [only c (List.mem_of_find?_eq_some found) separates]

theorem dot_mem_writeOctets {octets : List UInt8} (four : octets.length = 4) :
    '.' ∈ writeOctets octets := by
  rcases List.length_eq_four.mp four with ⟨a, b, c, d, rfl⟩
  simp [writeOctets, List.intercalate]

/-- The canonical text of an address without a zone is read as the address. -/
theorem parse_text {address : Addr} (noZone : address.zone = []) :
    parse address.text = some address := by
  unfold parse
  cases address with
  | v4 octets =>
      have isText : (text (.v4 octets)).toList = writeOctets octets.val := String.toList_ofList
      have separator : (writeOctets octets.val).find? (fun c => c = '.' ∨ c = ':' ∨ c = '%') =
          some '.' := by
        apply find?_separator (dot_mem_writeOctets octets.property) (.inl rfl)
        rintro c mem (rfl | rfl | rfl)
        · rfl
        · exact absurd mem (notMem_writeOctets rfl (by decide))
        · exact absurd mem (notMem_writeOctets rfl (by decide))
      rw [isText, separator]
      exact parseIPv4_writeOctets octets
  | v6 groups zone =>
      cases noZone
      have isText : (text (.v6 groups [])).toList = string6 groups.val := String.toList_ofList
      have separator : (string6 groups.val).find? (fun c => c = '.' ∨ c = ':' ∨ c = '%') =
          some ':' := by
        apply find?_separator (colon_mem_string6 groups.property) (.inr (.inl rfl))
        rintro c mem (rfl | rfl | rfl)
        · exact absurd mem (notMem_string6 rfl (by decide))
        · rfl
        · exact absurd mem (notMem_string6 rfl (by decide))
      rw [isText, separator]
      exact parseIPv6_string6 groups

end TelemtPanel.Library.Addr
