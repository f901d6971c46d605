import TelemtPanel.Library.NetIP
import TelemtPanel.Update.Semver

/-!
# Precedence of semantic versions

A semantic version has numbers and identifiers of any length, and its text is read back except for
the build metadata.  Where a number does not fit a machine integer, the comparison of the texts
differs from the precedence of the versions.
-/

namespace TelemtPanel.Update

open Library

section Digits

/-- Decimal digits of a number, without leading zeros. -/
def digits (value : ℕ) : Bytes := (Nat.toDigits 10 value).map Char.toUInt8

theorem digits_ne_nil (value : ℕ) : digits value ≠ [] := by
  intro none
  exact Nat.toDigits_ne_nil (List.map_eq_nil_iff.mp none)

theorem toNat_of_isDigit {c : Char} (digit : c.isDigit = true) :
    c.toUInt8.toNat = c.toNat ∧ 48 ≤ c.toNat ∧ c.toNat ≤ 57 := by
  simp only [Char.isDigit, Bool.and_eq_true, decide_eq_true_eq, UInt32.le_iff_toNat_le] at digit
  have low : 48 ≤ c.toNat := digit.1
  have high : c.toNat ≤ 57 := digit.2
  refine ⟨?_, low, high⟩
  simp only [Char.toUInt8, UInt32.toNat_toUInt8]
  exact Nat.mod_eq_of_lt (by have : c.val.toNat = c.toNat := rfl; omega)

theorem isDigit_of_mem_digits {value : ℕ} {c : UInt8} (mem : c ∈ digits value) :
    isDigit c = true := by
  rcases List.mem_map.mp mem with ⟨char, isChar, rfl⟩
  rcases toNat_of_isDigit (Nat.isDigit_of_mem_toDigits (by decide) (by decide) isChar) with
    ⟨same, low, high⟩
  simp only [isDigit, UInt8.le_iff_toNat_le, same]
  exact decide_eq_true ⟨low, high⟩

theorem digitsValue_digits (value : ℕ) : digitsValue (digits value) = value := by
  have read : ∀ (chars : List Char) (start : ℕ), (∀ c ∈ chars, c.isDigit = true) →
      (chars.map Char.toUInt8).foldl (fun value c => 10 * value + (c.toNat - 48)) start =
        Nat.ofDigitChars 10 chars start := by
    intro chars
    induction chars with
    | nil => exact fun _ _ => rfl
    | cons c chars ih =>
        intro start all
        rw [List.map_cons, List.foldl_cons, Nat.ofDigitChars_cons,
          ih _ fun other isOther => all other (List.mem_cons_of_mem _ isOther)]
        rw [(toNat_of_isDigit (all c List.mem_cons_self)).1]
        rfl
  rw [digitsValue, digits, read _ _ fun c mem => Nat.isDigit_of_mem_toDigits (by decide)
    (by decide) mem]
  exact Nat.ofDigitChars_ten_toDigits

/-- A number that fits a machine integer. -/
def Fits (value : ℕ) : Prop := value < 2 ^ 63

instance (value : ℕ) : Decidable (Fits value) := inferInstanceAs (Decidable (value < 2 ^ 63))

/-- A run of digits has no sign. -/
theorem atoi_of_digits {s : Bytes} (nonempty : s ≠ []) (all : s.all isDigit = true) :
    atoi s = if Fits (digitsValue s) then some (digitsValue s : ℤ) else none := by
  have unsigned : ∀ sign : UInt8, isDigit sign = false → (s.head? == some sign) = false := by
    intro sign noDigit
    cases s with
    | nil => exact absurd rfl nonempty
    | cons c rest =>
        rw [List.head?_cons, beq_eq_false_iff_ne]
        intro same
        have digit := List.all_eq_true.mp all c List.mem_cons_self
        rw [Option.some_inj.mp same, noDigit] at digit
        cases digit
  have noMinus := unsigned minus rfl
  have noPlus := unsigned plus rfl
  simp only [atoi, noMinus, noPlus, Bool.or_self, Bool.false_eq_true, if_false]
  rw [if_neg]
  · unfold Fits
    split
    · rename_i outside
      exact (if_neg (by omega)).symm
    · rename_i inside
      exact (if_pos (by omega)).symm
  · rintro (none | other)
    · exact nonempty none
    · rw [all] at other
      cases other

theorem atoi_digits (value : ℕ) :
    atoi (digits value) = if Fits value then some (value : ℤ) else none := by
  have all : (digits value).all isDigit = true :=
    List.all_eq_true.mpr fun _ mem => isDigit_of_mem_digits mem
  rw [atoi_of_digits (digits_ne_nil value) all, digitsValue_digits]

end Digits

/-- A letter, a digit or a hyphen. -/
def identifierByte (c : UInt8) : Bool :=
  isDigit c || decide (65 ≤ c ∧ c ≤ 90) || decide (97 ≤ c ∧ c ≤ 122) || c == minus

/-- A prerelease identifier: a number, or text that is none. -/
inductive Identifier where
  | numeric (value : ℕ)
  | alphanumeric
      (text : { text : Bytes // text.all identifierByte = true ∧ text.all isDigit = false })
deriving DecidableEq

namespace Identifier

def text : Identifier → Bytes
  | numeric value => digits value
  | alphanumeric text => text.val

/-- Numbers come before text. -/
def precedence : Identifier → ℕ ⊕ₗ Bytes
  | numeric value => toLex (.inl value)
  | alphanumeric text => toLex (.inr text.val)

/-- The comparison of two texts is the one of the identifiers. -/
def Ordered : Identifier → Identifier → Prop
  | numeric a, numeric b =>
      Fits a ∨ Fits b ∨ ((numeric a).text < (numeric b).text ↔ a < b)
  | numeric a, alphanumeric b => Fits a ∨ (numeric a).text < b.val
  | alphanumeric a, numeric b => Fits b ∨ (numeric b).text < a.val
  | alphanumeric _, alphanumeric _ => True

instance : (a b : Identifier) → Decidable (Ordered a b)
  | numeric a, numeric b => inferInstanceAs (Decidable (Fits a ∨ Fits b ∨
      ((numeric a).text < (numeric b).text ↔ a < b)))
  | numeric a, alphanumeric b => inferInstanceAs (Decidable (Fits a ∨ (numeric a).text < b.val))
  | alphanumeric a, numeric b => inferInstanceAs (Decidable (Fits b ∨ (numeric b).text < a.val))
  | alphanumeric _, alphanumeric _ => inferInstanceAs (Decidable True)

theorem identifierByte_of_isDigit {c : UInt8} (digit : isDigit c = true) :
    identifierByte c = true := by
  simp [identifierByte, digit]

theorem identifierByte_of_mem_text {identifier : Identifier} {c : UInt8}
    (mem : c ∈ identifier.text) : identifierByte c = true := by
  cases identifier with
  | numeric value => exact identifierByte_of_isDigit (isDigit_of_mem_digits mem)
  | alphanumeric text => exact List.all_eq_true.mp text.property.1 c mem

theorem text_ne_nil (identifier : Identifier) : identifier.text ≠ [] := by
  cases identifier with
  | numeric value => exact digits_ne_nil value
  | alphanumeric text =>
      intro none
      have nonDigit := text.property.2
      simp only [Identifier.text] at none
      rw [none] at nonDigit
      cases nonDigit

theorem numericIdentifier_text (identifier : Identifier) :
    numericIdentifier identifier.text =
      match identifier with
      | numeric value => if Fits value then some (value : ℤ) else none
      | alphanumeric _ => none := by
  cases identifier with
  | numeric value =>
      have all : (digits value).all isDigit = true :=
        List.all_eq_true.mpr fun _ mem => isDigit_of_mem_digits mem
      have isNumber : ¬(digits value = [] ∨ (digits value).all isDigit = false) := by
        rintro (none | other)
        · exact digits_ne_nil value none
        · rw [all] at other
          cases other
      have read : numericIdentifier (digits value) = atoi (digits value) := if_neg isNumber
      exact read.trans (atoi_digits value)
  | alphanumeric text => exact if_pos (Or.inr text.property.2)

theorem identifierRank_text (identifier : Identifier) :
    identifierRank identifier.text =
      match identifier with
      | numeric value =>
          if Fits value then toLex (.inl (value : ℤ)) else toLex (.inr (digits value))
      | alphanumeric text => toLex (.inr text.val) := by
  rw [identifierRank, numericIdentifier_text]
  cases identifier with
  | numeric value =>
      by_cases fits : Fits value
      · simp only [fits, if_true]
      · simp only [fits, if_false]
        rfl
  | alphanumeric text => rfl

theorem precedence_injective {a b : Identifier} (same : a.precedence = b.precedence) : a = b := by
  cases a with
  | numeric a =>
      cases b with
      | numeric b => exact congrArg numeric (Sum.inl.inj (toLex.injective same))
      | alphanumeric b => exact absurd (toLex.injective same) Sum.inl_ne_inr
  | alphanumeric a =>
      cases b with
      | numeric b => exact absurd (toLex.injective same) Sum.inr_ne_inl
      | alphanumeric b =>
          exact congrArg alphanumeric (Subtype.ext (Sum.inr.inj (toLex.injective same)))

theorem digits_injective {a b : ℕ} (same : digits a = digits b) : a = b := by
  rw [← digitsValue_digits a, same, digitsValue_digits]

theorem text_injective {a b : Identifier} (same : a.text = b.text) : a = b := by
  have mixed : ∀ (value : ℕ) (text : Bytes), text.all isDigit = false → digits value ≠ text := by
    intro value text nonDigit same
    have all : (digits value).all isDigit = true :=
      List.all_eq_true.mpr fun _ mem => isDigit_of_mem_digits mem
    rw [same, nonDigit] at all
    cases all
  cases a with
  | numeric a =>
      cases b with
      | numeric b => exact congrArg numeric (digits_injective same)
      | alphanumeric b => exact absurd same (mixed a b.val b.property.2)
  | alphanumeric a =>
      cases b with
      | numeric b => exact absurd same.symm (mixed b a.val a.property.2)
      | alphanumeric b => exact congrArg alphanumeric (Subtype.ext same)

/-- Texts that differ are compared like the identifiers if they are ordered so. -/
theorem compareIdentifier_eq_iff {a b : Identifier} (differ : a ≠ b) :
    compareIdentifier a.text b.text = ranked a.precedence b.precedence ↔ Ordered a b := by
  rw [compareIdentifier_eq_ranked, identifierRank_text, identifierRank_text]
  cases a with
  | numeric a =>
      cases b with
      | numeric b =>
          have values : a ≠ b := fun same => differ (congrArg numeric same)
          have texts : digits a ≠ digits b := fun same => values (digits_injective same)
          by_cases fitsA : Fits a
          · by_cases fitsB : Fits b
            · simp only [fitsA, fitsB, if_true, Ordered, true_or, iff_true, precedence]
              rw [ranked_inl, ranked_inl]
              exact ranked_map Nat.strictMono_cast a b
            · have smaller : a < b := by
                unfold Fits at fitsA fitsB
                omega
              simp only [fitsA, fitsB, if_true, if_false, Ordered, true_or, iff_true, precedence]
              rw [ranked_inl_inr, ranked_inl]
              exact (ranked_lt_iff.mpr smaller).symm
          · by_cases fitsB : Fits b
            · have greater : b < a := by
                unfold Fits at fitsA fitsB
                omega
              simp only [fitsA, fitsB, if_true, if_false, Ordered, false_or, true_or, iff_true,
                precedence]
              rw [ranked_inr_inl, ranked_inl]
              exact (ranked_gt_iff.mpr greater).symm
            · simp only [fitsA, fitsB, if_false, Ordered, false_or, precedence, text]
              rw [ranked_inr, ranked_inl]
              rcases lt_or_gt_of_ne texts with lower | higher
              · rw [ranked_lt_iff.mpr lower, iff_true_left lower, eq_comm, ranked_lt_iff]
              · rw [ranked_gt_iff.mpr higher, iff_false_left higher.asymm, eq_comm, ranked_gt_iff]
                omega
      | alphanumeric b =>
          have texts : digits a ≠ b.val := fun same => by
            have same := @text_injective (numeric a) (alphanumeric b) same
            cases same
          by_cases fitsA : Fits a
          · simp only [fitsA, if_true, Ordered, true_or, iff_true, precedence]
            rw [ranked_inl_inr, ranked_inl_inr]
          · simp only [fitsA, if_false, Ordered, false_or, precedence, text]
            rw [ranked_inr, ranked_inl_inr, ranked_lt_iff]
  | alphanumeric a =>
      cases b with
      | numeric b =>
          by_cases fitsB : Fits b
          · simp only [fitsB, if_true, Ordered, true_or, iff_true, precedence]
            rw [ranked_inr_inl, ranked_inr_inl]
          · simp only [fitsB, if_false, Ordered, false_or, precedence, text]
            rw [ranked_inr, ranked_inr_inl, ranked_gt_iff]
      | alphanumeric b =>
          simp only [Ordered, iff_true, precedence]
          rw [ranked_inr, ranked_inr]

theorem dot_notMem_text (identifier : Identifier) : dot ∉ identifier.text := by
  intro mem
  have byte := identifierByte_of_mem_text mem
  cases byte

theorem plus_notMem_text (identifier : Identifier) : plus ∉ identifier.text := by
  intro mem
  have byte := identifierByte_of_mem_text mem
  cases byte

end Identifier

/-- A semantic version.  Its text may have a leading `v`, as tags have. -/
structure SemanticVersion where
  tagged : Bool
  major : ℕ
  minor : ℕ
  patch : ℕ
  prerelease : List Identifier
  build : List { text : Bytes // text ≠ [] ∧ text.all identifierByte = true }
deriving DecidableEq

namespace SemanticVersion

def joinDots (parts : List Bytes) : Bytes := [dot].intercalate parts

def core (version : SemanticVersion) : Bytes :=
  joinDots [digits version.major, digits version.minor, digits version.patch]

def prereleaseText (version : SemanticVersion) : Bytes :=
  joinDots (version.prerelease.map Identifier.text)

def text (version : SemanticVersion) : Bytes :=
  (if version.tagged then [letterV] else []) ++ version.core ++
    (if version.prerelease = [] then [] else minus :: version.prereleaseText) ++
      if version.build = [] then [] else plus :: joinDots (version.build.map Subtype.val)

def numbers (version : SemanticVersion) : ℕ ×ₗ ℕ ×ₗ ℕ :=
  toLex (version.major, toLex (version.minor, version.patch))

/-- No prerelease comes after any. -/
def prereleasePrecedence (version : SemanticVersion) : WithTop (List (ℕ ⊕ₗ Bytes)) :=
  if version.prerelease = [] then ⊤ else (version.prerelease.map Identifier.precedence : List _)

/-- Precedence: by the three numbers, and then by the prerelease.  Build metadata plays no part. -/
def precedence (version : SemanticVersion) :
    (ℕ ×ₗ ℕ ×ₗ ℕ) ×ₗ WithTop (List (ℕ ⊕ₗ Bytes)) :=
  toLex (version.numbers, version.prereleasePrecedence)

/-- The three numbers fit machine integers. -/
def CoreFits (version : SemanticVersion) : Prop :=
  Fits version.major ∧ Fits version.minor ∧ Fits version.patch

instance (version : SemanticVersion) : Decidable version.CoreFits :=
  inferInstanceAs (Decidable (_ ∧ _ ∧ _))

theorem mem_joinDots {parts : List Bytes} {c : UInt8} (mem : c ∈ joinDots parts) :
    c = dot ∨ ∃ part ∈ parts, c ∈ part := by
  rw [joinDots, List.intercalate, List.mem_flatten] at mem
  rcases mem with ⟨piece, isPiece, mem⟩
  rcases Addr.mem_of_mem_intersperse isPiece with rfl | there
  · exact Or.inl (List.mem_singleton.mp mem)
  · exact Or.inr ⟨piece, there, mem⟩

section Read

variable (version : SemanticVersion)

theorem notMem_core {c : UInt8} (noDot : c ≠ dot) (noDigit : isDigit c = false) :
    c ∉ version.core := by
  intro mem
  rcases mem_joinDots mem with isDot | ⟨part, isPart, mem⟩
  · exact noDot isDot
  · have digit : isDigit c = true := by
      simp only [List.mem_cons, List.not_mem_nil, or_false] at isPart
      rcases isPart with rfl | rfl | rfl
      · exact isDigit_of_mem_digits mem
      · exact isDigit_of_mem_digits mem
      · exact isDigit_of_mem_digits mem
    rw [noDigit] at digit
    cases digit

theorem splitOn_core : version.core.splitOn dot =
    [digits version.major, digits version.minor, digits version.patch] := by
  refine List.splitOn_intercalate dot ?_ (by simp)
  intro part isPart mem
  have digit : isDigit dot = true := by
    simp only [List.mem_cons, List.not_mem_nil, or_false] at isPart
    rcases isPart with rfl | rfl | rfl
    · exact isDigit_of_mem_digits mem
    · exact isDigit_of_mem_digits mem
    · exact isDigit_of_mem_digits mem
  cases digit

/-- The prerelease with its hyphen. -/
def prereleasePart : Bytes :=
  if version.prerelease = [] then [] else minus :: version.prereleaseText

theorem plus_notMem_stem : plus ∉ version.core ++ version.prereleasePart := by
  rw [List.mem_append]
  rintro (mem | mem)
  · exact notMem_core version (by decide) rfl mem
  · unfold prereleasePart at mem
    split at mem
    · cases mem
    · rcases List.mem_cons.mp mem with impossible | mem
      · cases impossible
      · rcases mem_joinDots mem with impossible | ⟨part, isPart, mem⟩
        · cases impossible
        · rcases List.mem_map.mp isPart with ⟨identifier, -, rfl⟩
          exact identifier.plus_notMem_text mem

/-- The first of the three numbers begins the text. -/
theorem core_head : ∃ c rest, version.core = c :: rest ∧ isDigit c = true := by
  cases first : digits version.major with
  | nil => exact absurd first (digits_ne_nil _)
  | cons c rest =>
      have digit : isDigit c = true := by
        refine @isDigit_of_mem_digits version.major c ?_
        rw [first]
        exact List.mem_cons_self
      refine ⟨c, rest ++ [dot] ++ joinDots [digits version.minor, digits version.patch], ?_, digit⟩
      simp [core, joinDots, List.intercalate, first]

/-- A prefix that does not contain a byte, before nothing or that byte. -/
theorem takeWhile_ne {c : UInt8} {before after : Bytes} (absent : c ∉ before)
    (begins : after = [] ∨ ∃ rest, after = c :: rest) :
    (before ++ after).takeWhile (· != c) = before ∧
      (before ++ after).dropWhile (· != c) = after := by
  have all : ∀ other ∈ before, (other != c) = true := by
    intro other mem
    exact bne_iff_ne.mpr fun same => absent (same ▸ mem)
  rw [List.takeWhile_append_of_pos all, List.dropWhile_append_of_pos all]
  rcases begins with rfl | ⟨rest, rfl⟩
  · simp
  · simp

theorem text_eq : version.text =
    (if version.tagged then [letterV] else []) ++ (version.core ++ version.prereleasePart ++
      if version.build = [] then [] else plus :: joinDots (version.build.map Subtype.val)) := by
  simp only [text, prereleasePart, List.append_assoc]

/-- What is read back of a version. -/
def parsed : Version where
  major := version.major
  minor := version.minor
  patch := version.patch
  pre := version.prereleasePart.tail

/-- The text of a version is read back, unless one of its numbers is too large. -/
theorem parseVersion_text : parseVersion version.text =
    if version.CoreFits then some version.parsed else none := by
  have trimmed : (if version.text.head? == some letterV then version.text.tail else version.text) =
      version.core ++ version.prereleasePart ++
        if version.build = [] then [] else plus :: joinDots (version.build.map Subtype.val) := by
    rw [text_eq]
    cases version.tagged with
    | true => simp
    | false =>
        rcases core_head version with ⟨c, rest, isCore, digit⟩
        have noLetter : (some c == some letterV) = false := by
          rw [beq_eq_false_iff_ne]
          intro same
          rw [Option.some_inj.mp same] at digit
          cases digit
        simp only [Bool.false_eq_true, if_false, List.nil_append, isCore, List.cons_append,
          List.head?_cons, noLetter]
  have nonempty : version.text ≠ [] := by
    rw [text_eq]
    rcases core_head version with ⟨c, rest, isCore, -⟩
    simp [isCore]
  have stem := @takeWhile_ne plus (version.core ++ version.prereleasePart)
    (if version.build = [] then [] else plus :: joinDots (version.build.map Subtype.val))
    (plus_notMem_stem version) (by
      split
      · exact Or.inl rfl
      · exact Or.inr ⟨_, rfl⟩)
  have numbers := @takeWhile_ne minus version.core version.prereleasePart
    (notMem_core version (by decide) rfl) (by
      unfold prereleasePart
      split
      · exact Or.inl rfl
      · exact Or.inr ⟨_, rfl⟩)
  simp only [parseVersion, if_neg nonempty, trimmed, stem.1, numbers.1, numbers.2, splitOn_core,
    atoi_digits]
  unfold CoreFits parsed
  by_cases major : Fits version.major
  · by_cases minor : Fits version.minor
    · by_cases patch : Fits version.patch
      · simp [major, minor, patch]
      · simp [major, minor, patch]
    · simp [major, minor]
  · simp [major]

/-- Ranks of the prerelease identifiers, as the comparison of the texts sees them. -/
def identifierRanks : List IdentifierRank :=
  version.prerelease.map fun identifier => identifierRank identifier.text

theorem prereleaseRank_text : prereleaseRank version.prereleasePart.tail =
    if version.prerelease = [] then ⊤ else (version.identifierRanks : WithTop _) := by
  unfold prereleasePart
  by_cases none : version.prerelease = []
  · rw [if_pos none, if_pos none]
    rfl
  · have texts : version.prerelease.map Identifier.text ≠ [] := by
      rw [Ne, List.map_eq_nil_iff]
      exact none
    have split : version.prereleaseText.splitOn dot = version.prerelease.map Identifier.text := by
      refine List.splitOn_intercalate dot ?_ texts
      intro part isPart mem
      rcases List.mem_map.mp isPart with ⟨identifier, -, rfl⟩
      exact identifier.dot_notMem_text mem
    have nonempty : version.prereleaseText ≠ [] := by
      intro empty
      rw [empty] at split
      cases isPrerelease : version.prerelease with
      | nil => exact none isPrerelease
      | cons identifier rest =>
          rw [isPrerelease, List.map_cons] at split
          exact identifier.text_ne_nil (List.cons.inj split).1.symm
    rw [if_neg none, if_neg none, List.tail_cons, prereleaseRank, if_neg nonempty, split,
      List.map_map]
    rfl

end Read

theorem identifierRank_injective {a b : Identifier}
    (same : identifierRank a.text = identifierRank b.text) : a = b := by
  have number : ∀ (value : ℕ) (text : Bytes),
      (toLex (.inl (value : ℤ)) : IdentifierRank) ≠ toLex (.inr text) :=
    fun _ _ same => Sum.inl_ne_inr (toLex.injective same)
  have texts : ∀ a b : Bytes, (toLex (.inr a) : IdentifierRank) = toLex (.inr b) → a = b :=
    fun _ _ same => Sum.inr.inj (toLex.injective same)
  have kinds : ∀ identifier : Identifier,
      (∃ value, identifier = .numeric value ∧
        identifierRank identifier.text = toLex (.inl (value : ℤ))) ∨
      identifierRank identifier.text = toLex (.inr identifier.text) := by
    intro identifier
    rw [identifier.identifierRank_text]
    cases identifier with
    | numeric value =>
        by_cases fits : Fits value
        · exact Or.inl ⟨value, rfl, if_pos fits⟩
        · exact Or.inr (if_neg fits)
    | alphanumeric text => exact Or.inr rfl
  rcases kinds a with ⟨value, rfl, first⟩ | first
  · rcases kinds b with ⟨other, rfl, second⟩ | second
    · rw [first, second] at same
      exact congrArg _ (Int.natCast_inj.mp (Sum.inl.inj (toLex.injective same)))
    · rw [first, second] at same
      exact absurd same (number _ _)
  · rcases kinds b with ⟨other, rfl, second⟩ | second
    · rw [first, second] at same
      exact absurd same.symm (number _ _)
    · rw [first, second] at same
      exact Identifier.text_injective (texts _ _ same)

/-- The first two prerelease identifiers that differ are compared like their texts. -/
def IdentifiersOrdered : List Identifier → List Identifier → Prop
  | a :: as, b :: bs => if a = b then IdentifiersOrdered as bs else a.Ordered b
  | [], _ => True
  | _ :: _, [] => True

theorem ranked_identifiers_iff (as bs : List Identifier) :
    ranked (as.map fun identifier => identifierRank identifier.text)
        (bs.map fun identifier => identifierRank identifier.text) =
      ranked (as.map Identifier.precedence) (bs.map Identifier.precedence) ↔
    IdentifiersOrdered as bs := by
  induction as generalizing bs with
  | nil =>
      cases bs with
      | nil => exact iff_of_true (by rw [List.map_nil, List.map_nil, ranked_self, ranked_self]) trivial
      | cons b bs =>
          refine iff_of_true ?_ trivial
          rw [List.map_nil, List.map_cons, List.map_nil, List.map_cons, ranked_nil_cons,
            ranked_nil_cons]
  | cons a as ih =>
      cases bs with
      | nil =>
          refine iff_of_true ?_ trivial
          rw [List.map_nil, List.map_cons, List.map_nil, List.map_cons, ranked_cons_nil,
            ranked_cons_nil]
      | cons b bs =>
          rw [List.map_cons, List.map_cons, List.map_cons, List.map_cons, ranked_cons, ranked_cons]
          by_cases same : a = b
          · subst same
            rw [ranked_self, ranked_self, IdentifiersOrdered, if_pos rfl]
            exact ih bs
          · rw [IdentifiersOrdered, if_neg same, ← Identifier.compareIdentifier_eq_iff same,
              compareIdentifier_eq_ranked]
            have first : ranked (identifierRank a.text) (identifierRank b.text) ≠ .eq :=
              fun equal => same (identifierRank_injective (ranked_eq_iff.mp equal))
            have second : ranked a.precedence b.precedence ≠ .eq :=
              fun equal => same (Identifier.precedence_injective (ranked_eq_iff.mp equal))
            have decides : ∀ {first : Ordering} (rest : Ordering), first ≠ .eq →
                first.then rest = first := by
              intro first rest differ
              cases first with
              | lt => rfl
              | eq => exact absurd rfl differ
              | gt => rfl
            rw [decides _ first, decides _ second]

section Comparison

variable (version other : SemanticVersion)

/-- The comparison of the two texts is the precedence: if no number is too large for a machine
integer, or if the texts happen to be in the right order. -/
def Comparable : Prop :=
  if version.CoreFits then
    if other.CoreFits then
      version.numbers = other.numbers → IdentifiersOrdered version.prerelease other.prerelease
    else other.numbers < version.numbers
  else if other.CoreFits then version.numbers < other.numbers
  else version.numbers = other.numbers ∧ version.prerelease = other.prerelease

instance : (as bs : List Identifier) → Decidable (IdentifiersOrdered as bs)
  | a :: as, b :: bs =>
      have := instDecidableIdentifiersOrdered as bs
      inferInstanceAs (Decidable (if a = b then IdentifiersOrdered as bs else a.Ordered b))
  | [], _ => isTrue trivial
  | _ :: _, [] => isTrue trivial

instance : Decidable (version.Comparable other) := by
  unfold Comparable
  infer_instance

variable {version other}

theorem ranked_prereleases_iff :
    ranked (prereleaseRank version.prereleasePart.tail) (prereleaseRank other.prereleasePart.tail) =
      ranked version.prereleasePrecedence other.prereleasePrecedence ↔
    IdentifiersOrdered version.prerelease other.prerelease := by
  rw [prereleaseRank_text, prereleaseRank_text, prereleasePrecedence, prereleasePrecedence,
    identifierRanks, identifierRanks]
  by_cases none : version.prerelease = []
  · rw [if_pos none, if_pos none, none]
    refine iff_of_true ?_ trivial
    by_cases also : other.prerelease = []
    · rw [if_pos also, if_pos also, ranked_self, ranked_self]
    · rw [if_neg also, if_neg also, ranked_gt_iff.mpr (WithTop.coe_lt_top _)]
      exact (ranked_gt_iff.mpr (WithTop.coe_lt_top _)).symm
  · rw [if_neg none, if_neg none]
    by_cases also : other.prerelease = []
    · rw [if_pos also, if_pos also, also, ranked_lt_iff.mpr (WithTop.coe_lt_top _)]
      refine iff_of_true (ranked_lt_iff.mpr (WithTop.coe_lt_top _)).symm ?_
      cases version.prerelease with
      | nil => trivial
      | cons a as => trivial
    · rw [if_neg also, if_neg also, ranked_coe_top, ranked_coe_top]
      exact ranked_identifiers_iff _ _

/-- The numbers are compared like machine integers. -/
theorem ranked_parsed : ranked version.parsed.rank other.parsed.rank =
    (ranked version.numbers other.numbers).then
      (ranked (prereleaseRank version.prereleasePart.tail)
        (prereleaseRank other.prereleasePart.tail)) := by
  rw [Version.rank, Version.rank, parsed, parsed, ranked_prod, ranked_prod, ranked_prod,
    ranked_map Nat.strictMono_cast, ranked_map Nat.strictMono_cast,
    ranked_map Nat.strictMono_cast, numbers, numbers, ranked_prod, ranked_prod,
    Ordering.then_assoc, Ordering.then_assoc]

theorem rank_text (version : SemanticVersion) : rank version.text =
    if version.CoreFits then (version.parsed.rank : Rank) else ⊥ := by
  rw [rank, parseVersion_text]
  by_cases fits : version.CoreFits
  · rw [if_pos fits, if_pos fits]
  · rw [if_neg fits, if_neg fits]

theorem coreFits_of_numbers (same : version.numbers = other.numbers) :
    version.CoreFits ↔ other.CoreFits := by
  have all := toLex.injective same
  simp only [Prod.mk.injEq, EmbeddingLike.apply_eq_iff_eq] at all
  unfold CoreFits
  rw [all.1, all.2.1, all.2.2]

theorem prerelease_eq_of_precedence
    (same : version.prereleasePrecedence = other.prereleasePrecedence) :
    version.prerelease = other.prerelease := by
  unfold prereleasePrecedence at same
  by_cases none : version.prerelease = []
  · by_cases also : other.prerelease = []
    · rw [none, also]
    · rw [if_pos none, if_neg also] at same
      exact absurd same.symm (WithTop.coe_ne_top)
  · by_cases also : other.prerelease = []
    · rw [if_neg none, if_pos also] at same
      exact absurd same (WithTop.coe_ne_top)
    · rw [if_neg none, if_neg also, WithTop.coe_inj] at same
      exact List.map_injective_iff.mpr (fun _ _ => Identifier.precedence_injective) same

/-- Exactly when the comparison of the texts is the precedence of the versions. -/
theorem compareVersions_text_iff :
    compareVersions version.text other.text = ranked version.precedence other.precedence ↔
      version.Comparable other := by
  rw [compareVersions_eq_ranked, rank_text, rank_text, precedence, precedence, ranked_prod]
  unfold Comparable
  by_cases fits : version.CoreFits
  · rw [if_pos fits, if_pos fits]
    by_cases alsoFits : other.CoreFits
    · rw [if_pos alsoFits, if_pos alsoFits, ranked_coe_bot, ranked_parsed,
        ← ranked_prereleases_iff]
      cases order : ranked version.numbers other.numbers with
      | lt => exact iff_of_true rfl fun same => absurd same (ranked_lt_iff.mp order).ne
      | eq => exact ⟨fun same _ => same, fun same => same (ranked_eq_iff.mp order)⟩
      | gt => exact iff_of_true rfl fun same => absurd same (ranked_gt_iff.mp order).ne'
    · rw [if_neg alsoFits, if_neg alsoFits, ← ranked_gt_iff]
      have isGreater : ranked (version.parsed.rank : Rank) ⊥ = .gt :=
        ranked_gt_iff.mpr (WithBot.bot_lt_coe _)
      rw [isGreater]
      cases order : ranked version.numbers other.numbers with
      | lt => exact iff_of_false Ordering.noConfusion Ordering.noConfusion
      | eq => exact absurd ((coreFits_of_numbers (ranked_eq_iff.mp order)).mp fits) alsoFits
      | gt => exact iff_of_true rfl rfl
  · rw [if_neg fits, if_neg fits]
    by_cases alsoFits : other.CoreFits
    · rw [if_pos alsoFits, if_pos alsoFits, ← ranked_lt_iff]
      have isLess : ranked ⊥ (other.parsed.rank : Rank) = .lt :=
        ranked_lt_iff.mpr (WithBot.bot_lt_coe _)
      rw [isLess]
      cases order : ranked version.numbers other.numbers with
      | lt => exact iff_of_true rfl rfl
      | eq => exact absurd ((coreFits_of_numbers (ranked_eq_iff.mp order)).mpr alsoFits) fits
      | gt => exact iff_of_false Ordering.noConfusion Ordering.noConfusion
    · rw [if_neg alsoFits, if_neg alsoFits, ranked_self (⊥ : Rank)]
      cases order : ranked version.numbers other.numbers with
      | lt =>
          exact iff_of_false Ordering.noConfusion fun both => (ranked_lt_iff.mp order).ne both.1
      | gt =>
          exact iff_of_false Ordering.noConfusion fun both => (ranked_gt_iff.mp order).ne' both.1
      | eq =>
          constructor
          · intro same
            refine ⟨ranked_eq_iff.mp order, prerelease_eq_of_precedence ?_⟩
            exact ranked_eq_iff.mp same.symm
          · rintro ⟨-, same⟩
            have equal : version.prereleasePrecedence = other.prereleasePrecedence := by
              rw [prereleasePrecedence, prereleasePrecedence, same]
            rw [equal, ranked_self]
            rfl

end Comparison

/-- A version whose prerelease is one number. -/
def numbered (value : ℕ) : SemanticVersion where
  tagged := false
  major := 1
  minor := 0
  patch := 0
  prerelease := [.numeric value]
  build := []

/-- Numbers that fit no machine integer are compared like text. -/
theorem compareVersions_numbered :
    ¬∀ version other : SemanticVersion,
      compareVersions version.text other.text = ranked version.precedence other.precedence := by
  intro all
  have later : compareVersions (numbered 99999999999999999999).text
      (numbered 100000000000000000000).text = .gt := by
    decide +kernel
  have earlier : (numbered 99999999999999999999).precedence <
      (numbered 100000000000000000000).precedence := by
    decide +kernel
  have same := all (numbered 99999999999999999999) (numbered 100000000000000000000)
  rw [later, ranked_lt_iff.mpr earlier] at same
  cases same

end SemanticVersion

/-- The comparison of versions is a total preorder in which text that is no version comes first, and
on semantic versions it is the precedence exactly when they are comparable. -/
theorem compareVersions_preorder (a b c : Bytes) (version other : SemanticVersion) :
    compareVersions a a = .eq ∧
      compareVersions b a = (compareVersions a b).swap ∧
      ((compareVersions a b).isLE = true → (compareVersions b c).isLE = true →
        (compareVersions a c).isLE = true) ∧
      (parseVersion a = none →
        compareVersions a b = if (parseVersion b).isSome then .lt else .eq) ∧
      (compareVersions version.text other.text = ranked version.precedence other.precedence ↔
        version.Comparable other) := by
  refine ⟨?_, ?_, ?_, ?_, SemanticVersion.compareVersions_text_iff⟩
  · rw [compareVersions_eq_ranked, ranked_self]
  · rw [compareVersions_eq_ranked, compareVersions_eq_ranked, ranked_swap]
  · intro first second
    rw [compareVersions_eq_ranked, ranked_isLE_iff] at first second ⊢
    exact first.trans second
  · intro unparseable
    unfold compareVersions
    rw [unparseable]
    cases parseVersion b with
    | none => rfl
    | some version => rfl

end TelemtPanel.Update
