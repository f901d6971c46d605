import TelemtPanel.Library.NetIP

/-!
# Canonical text of an address

Two addresses with the same canonical text are the same: the groups before and behind the ellipsis
are read back, and the ellipsis stands for the zeros that are missing.
-/

namespace TelemtPanel.Library.Addr

section Digits

variable {base number other : ℕ} {c : Char}

theorem exists_digit_of_mem_toDigits (proper : 1 < base) (mem : c ∈ Nat.toDigits base number) :
    ∃ digit < base, c = Nat.digitChar digit := by
  induction number using Nat.strong_induction_on with
  | _ number ih =>
      rw [Nat.toDigits_eq_if proper] at mem
      split at mem
      · rename_i oneDigit
        exact ⟨number, oneDigit, List.mem_singleton.mp mem⟩
      · rcases List.mem_append.mp mem with higher | last
        · exact ih (number / base) (Nat.div_lt_self (by omega) proper) higher
        · exact ⟨number % base, Nat.mod_lt _ (by omega), List.mem_singleton.mp last⟩

/-- Digits of a number, put together again. -/
def ofDigits (base : ℕ) (digits : List Char) : ℕ :=
  digits.foldl (fun value digit => base * value + (hexDigit digit).getD 0) 0

theorem hexDigit_digitChar {digit : ℕ} (proper : digit < 16) :
    hexDigit (Nat.digitChar digit) = some digit := by
  interval_cases digit <;> rfl

theorem ofDigits_toDigits (proper : 1 < base) (known : base ≤ 16) :
    ofDigits base (Nat.toDigits base number) = number := by
  induction number using Nat.strong_induction_on with
  | _ number ih =>
      rw [Nat.toDigits_eq_if proper]
      split
      · rename_i oneDigit
        simp [ofDigits, hexDigit_digitChar (oneDigit.trans_le known)]
      · have small : number % base < 16 := (Nat.mod_lt _ (by omega)).trans_le known
        have higher := ih (number / base) (Nat.div_lt_self (by omega) proper)
        rw [ofDigits] at higher ⊢
        rw [List.foldl_append, higher, List.foldl_cons, List.foldl_nil, hexDigit_digitChar small,
          Option.getD_some]
        exact Nat.div_add_mod number base

theorem toDigits_injective (proper : 1 < base) (known : base ≤ 16)
    (same : Nat.toDigits base number = Nat.toDigits base other) : number = other := by
  have values := congrArg (ofDigits base) same
  rw [ofDigits_toDigits proper known, ofDigits_toDigits proper known] at values
  exact values

theorem notMem_toDigits (proper : 1 < base) (known : base ≤ 16) (noDigit : hexDigit c = none) :
    c ∉ Nat.toDigits base number := by
  intro mem
  rcases exists_digit_of_mem_toDigits proper mem with ⟨digit, lt, rfl⟩
  rw [hexDigit_digitChar (lt.trans_le known)] at noDigit
  cases noDigit

end Digits

section Octets

variable (octets : List UInt8)

def writeOctets : List Char :=
  ['.'].intercalate (octets.map fun octet => Nat.toDigits 10 octet.toNat)

variable {octets}

theorem splitOn_writeOctets (nonempty : octets ≠ []) : (writeOctets octets).splitOn '.' =
    octets.map fun octet => Nat.toDigits 10 octet.toNat := by
  refine List.splitOn_intercalate '.' ?_ fun none => nonempty (List.map_eq_nil_iff.mp none)
  intro piece isPiece
  rcases List.mem_map.mp isPiece with ⟨octet, -, rfl⟩
  exact notMem_toDigits (by decide) (by decide) rfl

theorem notMem_writeOctets {c : Char} (noDigit : hexDigit c = none) (noDot : c ≠ '.') :
    c ∉ writeOctets octets := by
  intro mem
  rw [writeOctets, List.intercalate, List.mem_flatten] at mem
  rcases mem with ⟨piece, isPiece, mem⟩
  rcases mem_of_mem_intersperse isPiece with rfl | there
  · exact noDot (List.mem_singleton.mp mem)
  · rcases List.mem_map.mp there with ⟨octet, -, rfl⟩
    exact notMem_toDigits (by decide) (by decide) noDigit mem

theorem writeOctets_injective {other : List UInt8} (nonempty : octets ≠ []) (also : other ≠ [])
    (same : writeOctets octets = writeOctets other) : octets = other := by
  have pieces := congrArg (List.splitOn '.') same
  rw [splitOn_writeOctets nonempty, splitOn_writeOctets also] at pieces
  refine List.map_injective_iff.mpr ?_ pieces
  intro left right digits
  exact UInt8.toNat_inj.mp (toDigits_injective (by decide) (by decide) digits)

end Octets

section Groups

variable {groups : List UInt16}

def writeGroup (group : UInt16) : List Char := Nat.toDigits 16 group.toNat

theorem writeGroup_injective : Function.Injective writeGroup := by
  intro left right same
  exact UInt16.toNat_inj.mp (toDigits_injective (by decide) (by decide) same)

theorem writeGroup_ne_nil (group : UInt16) : writeGroup group ≠ [] := Nat.toDigits_ne_nil

/-- The pieces between the colons. -/
theorem splitOn_writeGroups : (writeGroups groups).splitOn ':' =
    if groups = [] then [[]] else groups.map writeGroup := by
  split
  · rename_i none
    rw [none]
    rfl
  · rename_i nonempty
    refine List.splitOn_intercalate ':' ?_ fun none => nonempty (List.map_eq_nil_iff.mp none)
    intro piece isPiece
    rcases List.mem_map.mp isPiece with ⟨group, -, rfl⟩
    exact notMem_toDigits (by decide) (by decide) rfl

theorem notMem_writeGroups {c : Char} (noDigit : hexDigit c = none) (noColon : c ≠ ':') :
    c ∉ writeGroups groups := by
  intro mem
  rw [writeGroups, List.intercalate, List.mem_flatten] at mem
  rcases mem with ⟨piece, isPiece, mem⟩
  rcases mem_of_mem_intersperse isPiece with rfl | there
  · exact noColon (List.mem_singleton.mp mem)
  · rcases List.mem_map.mp there with ⟨group, -, rfl⟩
    exact notMem_toDigits (by decide) (by decide) noDigit mem

/-- The longest run consists of zeros. -/
theorem longestZeroRun_zeros (groups : List UInt16) :
    ((groups.drop (longestZeroRun groups).1).take (longestZeroRun groups).2) =
      List.replicate (longestZeroRun groups).2 0 ∧
      (longestZeroRun groups).1 + (longestZeroRun groups).2 ≤ groups.length := by
  unfold longestZeroRun
  have zeros : ∀ (places : List ℕ) (best : ℕ × ℕ),
      ((groups.drop best.1).take best.2 = List.replicate best.2 0 ∧
        best.1 + best.2 ≤ groups.length) → (∀ place ∈ places, place < groups.length) →
      let found := places.foldl (fun best place =>
        let run := ((groups.drop place).takeWhile (· == 0)).length
        if 2 ≤ run ∧ best.2 < run then (place, run) else best) best
      (groups.drop found.1).take found.2 = List.replicate found.2 0 ∧
        found.1 + found.2 ≤ groups.length := by
    intro places
    induction places with
    | nil => exact fun _ isRun _ => isRun
    | cons place places ih =>
        intro best isRun inside
        refine ih _ ?_ fun other isOther => inside other (List.mem_cons_of_mem _ isOther)
        simp only
        split
        · have prefixed := List.takeWhile_prefix (· == (0 : UInt16)) (l := groups.drop place)
          have short := prefixed.length_le
          rw [List.length_drop] at short
          have placed := inside place List.mem_cons_self
          refine ⟨?_, by simp only; omega⟩
          rw [← List.prefix_iff_eq_take.mp prefixed]
          rw [List.eq_replicate_iff]
          refine ⟨rfl, fun group mem => ?_⟩
          simpa using List.mem_takeWhile_imp mem
        · exact isRun
  refine zeros _ (0, 0) ⟨rfl, by simp⟩ ?_
  intro place mem
  exact List.mem_range.mp mem

/-- The groups before and behind the ellipsis, and the zeros that are missing. -/
theorem eq_of_longestZeroRun (groups : List UInt16) :
    let run := longestZeroRun groups
    groups = groups.take run.1 ++
      List.replicate (groups.length - (groups.take run.1).length -
        (groups.drop (run.1 + run.2)).length) 0 ++ groups.drop (run.1 + run.2) := by
  rcases longestZeroRun_zeros groups with ⟨zeros, inside⟩
  have missing : groups.length - (groups.take (longestZeroRun groups).1).length -
      (groups.drop ((longestZeroRun groups).1 + (longestZeroRun groups).2)).length =
        (longestZeroRun groups).2 := by
    rw [List.length_take, List.length_drop]
    omega
  have behind : groups.drop ((longestZeroRun groups).1 + (longestZeroRun groups).2) =
      (groups.drop (longestZeroRun groups).1).drop (longestZeroRun groups).2 := by
    rw [List.drop_drop]
  simp only [missing]
  rw [← zeros, behind, List.append_assoc, List.take_append_drop, List.take_append_drop]

/-- Pieces of an address that is written with an ellipsis. -/
theorem splitOn_ellipsis (before after : List UInt16) :
    (writeGroups before ++ [':', ':'] ++ writeGroups after).splitOn ':' =
      (writeGroups before).splitOn ':' ++ [] :: (writeGroups after).splitOn ':' := by
  have behind : (':' :: writeGroups after).splitOn ':' = [] :: (writeGroups after).splitOn ':' :=
    List.splitOn_append_cons_self_of_not_mem List.not_mem_nil _
  rw [List.append_assoc, List.cons_append, List.cons_append, List.nil_append,
    List.splitOn_append_cons_self, behind]

theorem takeWhile_pieces (before : List UInt16) (rest : List (List Char)) :
    ((writeGroups before).splitOn ':' ++ [] :: rest).takeWhile (fun piece => piece != []) =
      before.map writeGroup := by
  rw [splitOn_writeGroups]
  split
  · rename_i none
    rw [none]
    rfl
  · rw [List.takeWhile_append_of_pos]
    · simp
    · intro piece mem
      rcases List.mem_map.mp mem with ⟨group, -, rfl⟩
      exact bne_iff_ne.mpr (writeGroup_ne_nil group)

/-- What is read back of the pieces of an address. -/
def readPieces (pieces : List (List Char)) : List (List Char) × List (List Char) :=
  (pieces.takeWhile fun piece => piece != [],
    (pieces.reverse.takeWhile fun piece => piece != []).reverse)

theorem readPieces_ellipsis (before after : List UInt16) :
    readPieces ((writeGroups before ++ [':', ':'] ++ writeGroups after).splitOn ':') =
      (before.map writeGroup, after.map writeGroup) := by
  have reversed : ((writeGroups after).splitOn ':').reverse =
      (writeGroups after.reverse).splitOn ':' := by
    rw [splitOn_writeGroups, splitOn_writeGroups]
    simp only [List.reverse_eq_nil_iff]
    split
    · rfl
    · rw [List.map_reverse]
  unfold readPieces
  rw [splitOn_ellipsis, takeWhile_pieces, List.reverse_append, List.reverse_cons, reversed,
    List.append_assoc, List.singleton_append, takeWhile_pieces, List.map_reverse,
    List.reverse_reverse]

theorem string6_injective {groups other : List UInt16} (eight : groups.length = 8)
    (also : other.length = 8) (same : string6 groups = string6 other) : groups = other := by
  have maps := @List.map_injective_iff _ _ writeGroup |>.mpr writeGroup_injective
  -- An ellipsis leaves an empty piece, and groups leave none.
  have noEmpty : ∀ groups : List UInt16, groups.length = 8 →
      [] ∉ (writeGroups groups).splitOn ':' := by
    intro groups eight mem
    have nonempty : groups ≠ [] := fun none => by
      rw [none] at eight
      cases eight
    rw [splitOn_writeGroups, if_neg nonempty] at mem
    rcases List.mem_map.mp mem with ⟨group, -, empty⟩
    exact writeGroup_ne_nil group empty
  have hasEmpty : ∀ before after : List UInt16,
      [] ∈ (writeGroups before ++ [':', ':'] ++ writeGroups after).splitOn ':' := by
    intro before after
    rw [splitOn_ellipsis]
    exact List.mem_append_right _ List.mem_cons_self
  unfold string6 at same
  simp only at same
  split at same
  · split at same
    · have pieces := congrArg (List.splitOn ':') same
      rw [splitOn_writeGroups, splitOn_writeGroups, if_neg, if_neg] at pieces
      · exact maps pieces
      · rintro rfl
        cases also
      · rintro rfl
        cases eight
    · have empty := hasEmpty (other.take (longestZeroRun other).1)
        (other.drop ((longestZeroRun other).1 + (longestZeroRun other).2))
      rw [← same] at empty
      exact absurd empty (noEmpty groups eight)
  · split at same
    · have empty := hasEmpty (groups.take (longestZeroRun groups).1)
        (groups.drop ((longestZeroRun groups).1 + (longestZeroRun groups).2))
      rw [same] at empty
      exact absurd empty (noEmpty other also)
    · have pieces := congrArg (fun text => readPieces (text.splitOn ':')) same
      simp only [readPieces_ellipsis, Prod.mk.injEq] at pieces
      have before := maps pieces.1
      have after := maps pieces.2
      rw [eq_of_longestZeroRun groups, eq_of_longestZeroRun other, before, after, eight, also]

end Groups

/-- The form in which an address is printed, with its zone. -/
def string (address : Addr) : String :=
  address.text ++ if address.zone = [] then "" else String.ofList ('%' :: address.zone)

theorem colon_mem_string6 {groups : List UInt16} (eight : groups.length = 8) :
    ':' ∈ string6 groups := by
  by_contra absent
  have one : ((string6 groups).splitOn ':').length = 1 := by
    rw [List.splitOn_eq_singleton absent]
    rfl
  unfold string6 at one
  simp only at one
  split at one
  · have nonempty : groups ≠ [] := by
      rintro rfl
      cases eight
    rw [splitOn_writeGroups, if_neg nonempty, List.length_map, eight] at one
    cases one
  · have before := List.length_pos_iff.mpr (List.splitOn_ne_nil ':'
      (writeGroups (groups.take (longestZeroRun groups).1)))
    rw [splitOn_ellipsis, List.length_append, List.length_cons] at one
    omega

theorem notMem_string6 {groups : List UInt16} {c : Char} (noDigit : hexDigit c = none)
    (noColon : c ≠ ':') : c ∉ string6 groups := by
  unfold string6
  simp only
  split
  · exact notMem_writeGroups noDigit noColon
  · intro mem
    simp only [List.mem_append, List.mem_cons, List.not_mem_nil, or_false, or_self] at mem
    rcases mem with (before | isColon) | after
    · exact notMem_writeGroups noDigit noColon before
    · exact noColon isColon
    · exact notMem_writeGroups noDigit noColon after

theorem percent_notMem_text (address : Addr) : '%' ∉ address.text.toList := by
  cases address with
  | v4 octets =>
      rw [text, String.toList_ofList]
      exact notMem_writeOctets rfl (by decide)
  | v6 groups zone =>
      rw [text, String.toList_ofList]
      exact notMem_string6 rfl (by decide)

theorem toList_string (address : Addr) : address.string.toList =
    address.text.toList ++ if address.zone = [] then [] else '%' :: address.zone := by
  rw [string, String.toList_append]
  split
  · rfl
  · rw [String.toList_ofList]

/-- What is in front of the zone, and the zone. -/
theorem string_parts (address : Addr) :
    address.string.toList.takeWhile (· != '%') = address.text.toList ∧
      (address.string.toList.dropWhile (· != '%')).tail = address.zone := by
  have front : ∀ c ∈ address.text.toList, (c != '%') = true := by
    intro c mem
    exact bne_iff_ne.mpr fun same => percent_notMem_text address (same ▸ mem)
  rw [toList_string, List.takeWhile_append_of_pos front, List.dropWhile_append_of_pos front]
  split
  · rename_i none
    simp [none]
  · simp

theorem string_injective {left right : Addr} (same : left.string = right.string) :
    left = right := by
  have texts : left.text.toList = right.text.toList := by
    rw [← (string_parts left).1, same, (string_parts right).1]
  have zones : left.zone = right.zone := by
    rw [← (string_parts left).2, same, (string_parts right).2]
  cases left with
  | v4 octets =>
      rw [text, String.toList_ofList] at texts
      cases right with
      | v4 other =>
          rw [text, String.toList_ofList] at texts
          have nonempty : ∀ octets : { octets : List UInt8 // octets.length = 4 },
              octets.val ≠ [] := by
            intro octets none
            have four := octets.property
            rw [none] at four
            cases four
          exact congrArg v4 (Subtype.ext (writeOctets_injective (nonempty octets)
            (nonempty other) texts))
      | v6 groups zone =>
          rw [text, String.toList_ofList] at texts
          have colon := colon_mem_string6 groups.property
          rw [← texts] at colon
          exact absurd colon (@notMem_writeOctets octets.val ':' rfl (by decide))
  | v6 groups zone =>
      rw [text, String.toList_ofList] at texts
      cases right with
      | v4 other =>
          rw [text, String.toList_ofList] at texts
          have colon := colon_mem_string6 groups.property
          rw [texts] at colon
          exact absurd colon (@notMem_writeOctets other.val ':' rfl (by decide))
      | v6 other otherZone =>
          rw [text, String.toList_ofList] at texts
          have sameGroups := string6_injective groups.property other.property texts
          have sameZone : zone = otherZone := zones
          rw [Subtype.ext sameGroups, sameZone]

end TelemtPanel.Library.Addr
