import TelemtPanel.Library.Ranking

/-!
# Version numbers

Release tags are compared by their numbers and then by their prerelease identifiers, both read as
machine integers.  The comparison is the one of a rank, in which text that is no version comes
first.
-/

namespace TelemtPanel.Update

open Library

/-- A string of the source. -/
abbrev Bytes := List UInt8

/-- Bytes of a text. -/
def bytes (text : String) : Bytes := text.toUTF8.data.toList

def letterV : UInt8 := 118
def plus : UInt8 := 43
def minus : UInt8 := 45
def dot : UInt8 := 46

section Parse

def isDigit (c : UInt8) : Bool := decide (48 ≤ c ∧ c ≤ 57)

/-- Value of a run of digits. -/
def digitsValue (digits : Bytes) : ℕ :=
  digits.foldl (fun value c => 10 * value + (c.toNat - 48)) 0

/-- `strconv.Atoi`: an integer of 64 bits, with a sign or without. -/
def atoi (s : Bytes) : Option ℤ :=
  let negative := s.head? == some minus
  let digits := if s.head? == some minus || s.head? == some plus then s.tail else s
  if digits = [] ∨ digits.all isDigit = false then none
  else
    let value : ℤ := if negative then -digitsValue digits else digitsValue digits
    if value < -2 ^ 63 ∨ 2 ^ 63 ≤ value then none else some value

structure Version where
  major : ℤ
  minor : ℤ
  patch : ℤ
  pre : Bytes
deriving DecidableEq

/-- The prerelease is empty when there is none. -/
def parseVersion (s : Bytes) : Option Version :=
  if s = [] then none
  else
    let s := if s.head? == some letterV then s.tail else s
    let s := s.takeWhile (· != plus)
    let pre := (s.dropWhile (· != minus)).tail
    let s := s.takeWhile (· != minus)
    match s.splitOn dot with
    | [major, minor, patch] => do
        let major ← atoi major
        let minor ← atoi minor
        let patch ← atoi patch
        some { major := major, minor := minor, patch := patch, pre := pre }
    | _ => none

end Parse

section Compare

def cmpInt (a b : ℤ) : Ordering := if a < b then .lt else if b < a then .gt else .eq

/-- A run of digits, unless its value is too large. -/
def numericIdentifier (s : Bytes) : Option ℤ :=
  if s = [] ∨ s.all isDigit = false then none else atoi s

/-- Compares one pair of identifiers. -/
def compareIdentifier (a b : Bytes) : Ordering :=
  match numericIdentifier a, numericIdentifier b with
  | some aNum, some bNum => cmpInt aNum bNum
  | some _, none => .lt
  | none, some _ => .gt
  | none, none => if a < b then .lt else if b < a then .gt else .eq

/-- The loop of `comparePrerelease`: the first pair that differs decides, and then the number of
identifiers. -/
def compareIdentifiers : List Bytes → List Bytes → Ordering
  | a :: as, b :: bs =>
      if compareIdentifier a b ≠ .eq then compareIdentifier a b else compareIdentifiers as bs
  | [], bs => cmpInt 0 bs.length
  | a :: as, [] => cmpInt (a :: as).length 0

/-- No prerelease comes after any. -/
def comparePrerelease (a b : Bytes) : Ordering :=
  if a = [] ∧ b = [] then .eq
  else if a = [] then .gt
  else if b = [] then .lt
  else compareIdentifiers (a.splitOn dot) (b.splitOn dot)

/-- The results -1, 0 and 1 are `lt`, `eq` and `gt`. -/
def compareVersions (a b : Bytes) : Ordering :=
  match parseVersion a, parseVersion b with
  | none, none => .eq
  | none, some _ => .lt
  | some _, none => .gt
  | some a, some b =>
      if a.major ≠ b.major then cmpInt a.major b.major
      else if a.minor ≠ b.minor then cmpInt a.minor b.minor
      else if a.patch ≠ b.patch then cmpInt a.patch b.patch
      else comparePrerelease a.pre b.pre

end Compare

section Rank

/-- Identifiers with a value come before the others. -/
abbrev IdentifierRank := ℤ ⊕ₗ Bytes

abbrev Rank := WithBot (ℤ ×ₗ ℤ ×ₗ ℤ ×ₗ WithTop (List IdentifierRank))

def identifierRank (s : Bytes) : IdentifierRank :=
  match numericIdentifier s with
  | some value => toLex (.inl value)
  | none => toLex (.inr s)

def prereleaseRank (pre : Bytes) : WithTop (List IdentifierRank) :=
  if pre = [] then ⊤ else ((pre.splitOn dot).map identifierRank : List IdentifierRank)

def Version.rank (version : Version) : ℤ ×ₗ ℤ ×ₗ ℤ ×ₗ WithTop (List IdentifierRank) :=
  toLex (version.major, toLex (version.minor, toLex (version.patch, prereleaseRank version.pre)))

/-- Rank of a text; one that is no version has the lowest. -/
def rank (s : Bytes) : Rank :=
  match parseVersion s with
  | some version => version.rank
  | none => ⊥

theorem cmpInt_eq_ranked (a b : ℤ) : cmpInt a b = ranked a b := rfl

theorem compareText_eq_ranked (a b : Bytes) :
    (if a < b then .lt else if b < a then .gt else .eq) = ranked a b := by
  cases order : ranked a b with
  | lt => exact if_pos (ranked_lt_iff.mp order)
  | eq =>
      rw [ranked_eq_iff] at order
      subst order
      rw [if_neg (lt_irrefl a), if_neg (lt_irrefl a)]
  | gt =>
      have greater := ranked_gt_iff.mp order
      rw [if_neg greater.asymm]
      exact if_pos greater

theorem compareIdentifier_eq_ranked (a b : Bytes) :
    compareIdentifier a b = ranked (identifierRank a) (identifierRank b) := by
  unfold compareIdentifier identifierRank
  cases numericIdentifier a with
  | some value =>
      cases numericIdentifier b with
      | some other => exact (@ranked_inl ℤ Bytes _ _ value other).symm
      | none => exact (ranked_inl_inr value b).symm
  | none =>
      cases numericIdentifier b with
      | some other => exact (ranked_inr_inl other a).symm
      | none => exact (compareText_eq_ranked a b).trans (@ranked_inr ℤ Bytes _ _ a b).symm

theorem compareIdentifiers_eq_ranked (as bs : List Bytes) :
    compareIdentifiers as bs = ranked (as.map identifierRank) (bs.map identifierRank) := by
  induction as generalizing bs with
  | nil =>
      cases bs with
      | nil => exact (ranked_self ([] : List IdentifierRank)).symm
      | cons b bs =>
          rw [List.map_cons, List.map_nil, ranked_nil_cons, compareIdentifiers, cmpInt_eq_ranked]
          exact ranked_lt_iff.mpr (Int.natCast_pos.mpr (Nat.succ_pos _))
  | cons a as ih =>
      cases bs with
      | nil =>
          rw [List.map_cons, List.map_nil, ranked_cons_nil, compareIdentifiers, cmpInt_eq_ranked]
          exact ranked_gt_iff.mpr (Int.natCast_pos.mpr (Nat.succ_pos _))
      | cons b bs =>
          rw [List.map_cons, List.map_cons, ranked_cons, compareIdentifiers, ih,
            compareIdentifier_eq_ranked]
          cases ranked (identifierRank a) (identifierRank b) with
          | lt => rfl
          | eq => rfl
          | gt => rfl

theorem comparePrerelease_eq_ranked (a b : Bytes) :
    comparePrerelease a b = ranked (prereleaseRank a) (prereleaseRank b) := by
  unfold comparePrerelease prereleaseRank
  by_cases noA : a = []
  · by_cases noB : b = []
    · rw [if_pos ⟨noA, noB⟩, if_pos noA, if_pos noB, ranked_self]
    · rw [if_neg fun both => noB both.2, if_pos noA, if_pos noA, if_neg noB]
      exact (ranked_gt_iff.mpr (WithTop.coe_lt_top _)).symm
  · rw [if_neg fun both => noA both.1, if_neg noA, if_neg noA]
    by_cases noB : b = []
    · rw [if_pos noB, if_pos noB]
      exact (ranked_lt_iff.mpr (WithTop.coe_lt_top _)).symm
    · rw [if_neg noB, if_neg noB, ranked_coe_top, compareIdentifiers_eq_ranked]

/-- A field that differs decides. -/
theorem ite_cmpInt (a b : ℤ) (rest : Ordering) :
    (if a ≠ b then cmpInt a b else rest) = (ranked a b).then rest := by
  rw [cmpInt_eq_ranked]
  cases first : ranked a b with
  | lt => exact if_pos (ranked_lt_iff.mp first).ne
  | eq => exact if_neg (not_not_intro (ranked_eq_iff.mp first))
  | gt => exact if_pos (ranked_gt_iff.mp first).ne'

/-- The comparison of versions is the one of their ranks. -/
theorem compareVersions_eq_ranked (a b : Bytes) : compareVersions a b = ranked (rank a) (rank b) := by
  unfold compareVersions rank
  cases parseVersion a with
  | none =>
      cases parseVersion b with
      | none => exact (ranked_self (⊥ : Rank)).symm
      | some second => exact (ranked_lt_iff.mpr (WithBot.bot_lt_coe _)).symm
  | some first =>
      cases parseVersion b with
      | none => exact (ranked_gt_iff.mpr (WithBot.bot_lt_coe _)).symm
      | some second =>
          simp only [ite_cmpInt, comparePrerelease_eq_ranked]
          rw [ranked_coe_bot, Version.rank, Version.rank, ranked_prod, ranked_prod, ranked_prod]

end Rank

end TelemtPanel.Update
