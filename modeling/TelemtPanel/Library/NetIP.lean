import Mathlib

/-!
# Network addresses

IPv4 and IPv6 addresses with their textual forms, as the standard library of Go
reads and writes them.  Reading accepts every form of an address (upper-case
digits, leading zeros of a group, an embedded IPv4 tail, any place of the
ellipsis, a zone), while writing yields the one canonical form, which contains
no upper-case letter.
-/

namespace TelemtPanel.Library

/-- A network address.  An empty zone is no zone. -/
inductive Addr where
  | v4 (octets : { octets : List UInt8 // octets.length = 4 })
  | v6 (groups : { groups : List UInt16 // groups.length = 8 }) (zone : List Char)
deriving DecidableEq

namespace Addr

section Read

/-- Value of a hexadecimal digit. -/
def hexDigit (digit : Char) : Option ℕ :=
  if '0' ≤ digit ∧ digit ≤ '9' then some (digit.toNat - '0'.toNat)
  else if 'a' ≤ digit ∧ digit ≤ 'f' then some (digit.toNat - 'a'.toNat + 10)
  else if 'A' ≤ digit ∧ digit ≤ 'F' then some (digit.toNat - 'A'.toNat + 10)
  else none

/-- Value of a run of hexadecimal digits. -/
def hexValue (digits : List Char) : ℕ :=
  digits.foldl (fun value digit => 16 * value + (hexDigit digit).getD 0) 0

/-- `parseIPv4Fields`: four octets separated by dots.  `field` is the octet being read, absent
before its first digit; a leading zero ends an octet. -/
def parseIPv4Fields (field : Option ℕ) (octets : List UInt8) : List Char → Option (List UInt8)
  | [] =>
      match field with
      | some value => if octets.length = 3 then some (octets ++ [UInt8.ofNat value]) else none
      | none => none
  | c :: text =>
      if '0' ≤ c ∧ c ≤ '9' then
        let digit := c.toNat - '0'.toNat
        match field with
        | none => parseIPv4Fields (some digit) octets text
        | some value =>
            if value = 0 ∨ 255 < 10 * value + digit then none
            else parseIPv4Fields (some (10 * value + digit)) octets text
      else if c = '.' then
        match field with
        | none => none
        | some value =>
            if octets.length = 3 then none
            else parseIPv4Fields none (octets ++ [UInt8.ofNat value]) text
      else none

def parseIPv4 (text : List Char) : Option Addr := do
  let octets ← parseIPv4Fields none [] text
  if full : octets.length = 4 then some (.v4 ⟨octets, full⟩) else none

/-- The groups read so far and the place of the ellipsis among them. -/
structure Groups where
  groups : List UInt16
  ellipsis : Option ℕ

/-- The last two groups may be written as an IPv4 address. -/
def embedIPv4 (read : Groups) (text : List Char) : Option Groups :=
  if (read.ellipsis = none ∧ read.groups.length ≠ 6) ∨ 6 < read.groups.length then none
  else match parseIPv4Fields none [] text with
    | some [a, b, c, d] =>
        some { read with groups := read.groups ++ [UInt16.ofNat (256 * a.toNat + b.toNat),
                                                   UInt16.ofNat (256 * c.toNat + d.toNat)] }
    | _ => none

/-- The loop of `parseIPv6`: groups of hexadecimal digits followed by a colon, for which there
is still `room`.  Text that is left over when the room is used up is an error. -/
def parseGroups : (room : ℕ) → Groups → List Char → Option Groups
  | 0, read, text => if text = [] then some read else none
  | room + 1, read, text =>
      let digits := text.takeWhile fun c => (hexDigit c).isSome
      if digits = [] ∨ 4 < digits.length then none
      else
        let next : Groups :=
          { read with groups := read.groups ++ [UInt16.ofNat (hexValue digits)] }
        match text.drop digits.length with
        | [] => some next
        | c :: rest =>
            if c = '.' then embedIPv4 read text
            else if c ≠ ':' then none
            else match rest with
              | [] => none
              | c' :: tail =>
                  if c' = ':' then
                    if read.ellipsis.isSome then none
                    else
                      let next := { next with ellipsis := some next.groups.length }
                      if tail = [] then some next else parseGroups room next tail
                  else parseGroups room next rest

/-- Expands the ellipsis to the groups of zeros it stands for. -/
def expandEllipsis (read : Groups) : List UInt16 :=
  match read.ellipsis with
  | some place =>
      read.groups.take place ++ List.replicate (8 - read.groups.length) 0 ++
        read.groups.drop place
  | none => read.groups

def parseIPv6 (text : List Char) : Option Addr :=
  let body := text.takeWhile (· ≠ '%')
  let zone := text.drop (body.length + 1)
  if body.length < text.length ∧ zone = [] then none
  else
    let read : Option Groups :=
      match body with
      | ':' :: ':' :: [] => some ⟨[], some 0⟩
      | ':' :: ':' :: rest => parseGroups 8 ⟨[], some 0⟩ rest
      | _ => parseGroups 8 ⟨[], none⟩ body
    match read with
    | none => none
    | some read =>
        if read.ellipsis.isSome ∧ 8 ≤ read.groups.length then none
        else if full : (expandEllipsis read).length = 8 then some (.v6 ⟨_, full⟩ zone)
        else none

/-- `netip.ParseAddr` -/
def parse (text : String) : Option Addr :=
  match text.toList.find? fun c => c = '.' ∨ c = ':' ∨ c = '%' with
  | some '.' => parseIPv4 text.toList
  | some ':' => parseIPv6 text.toList
  | _ => none

end Read

def zone : Addr → List Char
  | .v4 _ => []
  | .v6 _ zone => zone

def is4 : Addr → Bool
  | .v4 _ => true
  | .v6 _ _ => false

def isUnspecified : Addr → Bool
  | .v4 octets => octets.val.all (· == 0)
  | .v6 groups zone => groups.val.all (· == 0) && zone.isEmpty

def isMulticast : Addr → Bool
  | .v4 octets => (octets.val.take 1).any fun octet => octet &&& 0xf0 == 0xe0
  | .v6 groups _ => (groups.val.take 1).any fun group => group >>> 8 == 0xff

/-- The two octets of a group. -/
def octetsOfGroup (group : UInt16) : List UInt8 := [(group >>> 8).toUInt8, group.toUInt8]

/-- An IPv4 address mapped into IPv6 is replaced by the IPv4 address itself. -/
def unmap : Addr → Addr
  | .v4 octets => .v4 octets
  | .v6 groups zone =>
      let octets := (groups.val.drop 6).flatMap octetsOfGroup
      if mapped : groups.val.take 6 = [0, 0, 0, 0, 0, 0xffff] ∧ octets.length = 4 then
        .v4 ⟨octets, mapped.2⟩
      else .v6 groups zone

section Write

/-- The longest run of at least two groups of zeros, the first one of several. -/
def longestZeroRun (groups : List UInt16) : ℕ × ℕ :=
  (List.range groups.length).foldl (fun best place =>
    let run := ((groups.drop place).takeWhile (· == 0)).length
    if 2 ≤ run ∧ best.2 < run then (place, run) else best) (0, 0)

def writeGroups (groups : List UInt16) : List Char :=
  [':'].intercalate (groups.map fun group => Nat.toDigits 16 group.toNat)

/-- `string6` -/
def string6 (groups : List UInt16) : List Char :=
  let run := longestZeroRun groups
  if run.2 = 0 then writeGroups groups
  else writeGroups (groups.take run.1) ++ [':', ':'] ++ writeGroups (groups.drop (run.1 + run.2))

/-- The text of an address that is not mapped from IPv4, without its zone. -/
def text : Addr → String
  | .v4 octets => String.ofList (['.'].intercalate (octets.val.map fun octet =>
      Nat.toDigits 10 octet.toNat))
  | .v6 groups _ => String.ofList (string6 groups.val)

/-- Neither an upper-case letter nor the NUL character. -/
def plain (c : Char) : Bool := !c.isUpper && c != Char.ofNat 0

theorem plain_digitChar {digit : ℕ} (proper : digit < 16) :
    plain (Nat.digitChar digit) = true := by
  interval_cases digit <;> rfl

theorem plain_of_mem_toDigits {base : ℕ} (proper : 1 < base) (known : base ≤ 16) {number : ℕ}
    {c : Char} (mem : c ∈ Nat.toDigits base number) : plain c = true := by
  induction number using Nat.strong_induction_on with
  | _ number ih =>
      rw [Nat.toDigits_eq_if proper] at mem
      split at mem
      · rename_i oneDigit
        rw [List.mem_singleton.mp mem]
        exact plain_digitChar (oneDigit.trans_le known)
      · rcases List.mem_append.mp mem with higher | last
        · exact ih (number / base) (Nat.div_lt_self (by omega) proper) higher
        · rw [List.mem_singleton.mp last]
          exact plain_digitChar ((Nat.mod_lt _ (by omega)).trans_le known)

theorem mem_of_mem_intersperse {α : Type*} {separator piece : α} {pieces : List α}
    (mem : piece ∈ pieces.intersperse separator) : piece = separator ∨ piece ∈ pieces := by
  induction pieces using List.twoStepInduction with
  | nil => simp at mem
  | singleton first => simpa using Or.inr mem
  | cons_cons first second rest ih ih' =>
      simp only [List.intersperse_cons_cons, List.mem_cons] at mem
      rcases mem with rfl | rfl | later
      · exact .inr List.mem_cons_self
      · exact .inl rfl
      · rcases ih' second later with isSeparator | there
        · exact .inl isSeparator
        · exact .inr (List.mem_cons_of_mem _ there)

theorem plain_of_mem_intercalate {separator c : Char} (plainSeparator : plain separator = true)
    {base : ℕ} (proper : 1 < base) (known : base ≤ 16) {numbers : List ℕ}
    (mem : c ∈ [separator].intercalate (numbers.map (Nat.toDigits base))) :
    plain c = true := by
  rw [List.intercalate, List.mem_flatten] at mem
  rcases mem with ⟨piece, pieceMem, mem⟩
  rcases mem_of_mem_intersperse pieceMem with rfl | there
  · rw [List.mem_singleton.mp mem]
    exact plainSeparator
  · rcases List.mem_map.mp there with ⟨number, -, rfl⟩
    exact plain_of_mem_toDigits proper known mem

theorem plain_of_mem_writeGroups {groups : List UInt16} {c : Char}
    (mem : c ∈ writeGroups groups) : plain c = true := by
  have digits : groups.map (fun group => Nat.toDigits 16 group.toNat) =
      (groups.map UInt16.toNat).map (Nat.toDigits 16) := by
    rw [List.map_map]
    rfl
  rw [writeGroups, digits] at mem
  exact plain_of_mem_intercalate rfl (by decide) (by decide) mem

/-- The canonical form contains neither an upper-case letter nor a NUL character. -/
theorem plain_of_mem_text {address : Addr} {c : Char} (mem : c ∈ address.text.toList) :
    plain c = true := by
  cases address with
  | v4 octets =>
      have digits : octets.val.map (fun octet => Nat.toDigits 10 octet.toNat) =
          (octets.val.map UInt8.toNat).map (Nat.toDigits 10) := by
        rw [List.map_map]
        rfl
      rw [text, String.toList_ofList, digits] at mem
      exact plain_of_mem_intercalate rfl (by decide) (by decide) mem
  | v6 groups zone =>
      simp only [text, String.toList_ofList, string6] at mem
      split at mem
      · exact plain_of_mem_writeGroups mem
      · simp only [List.mem_append, List.mem_cons, List.not_mem_nil, or_false] at mem
        rcases mem with (before | isColon) | behind
        · exact plain_of_mem_writeGroups before
        · rcases isColon with rfl | rfl <;> rfl
        · exact plain_of_mem_writeGroups behind

end Write

example : (parse "2001:DB8::0:1").map text = some "2001:db8::1" := by decide +kernel

example : ((parse "::ffff:10.0.0.7").map unmap).map text = some "10.0.0.7" := by decide +kernel

end Addr

end TelemtPanel.Library
