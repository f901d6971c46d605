import TelemtPanel.Library.Int64
import TelemtPanel.Library.Table
import TelemtPanel.Subpage.Token

/-!
# The token index

The index maps tokens to user names.  Every call of `Refresh` takes a number when it starts,
reads the users and their nonces without a lock, and puts its result in place unless a call
that started later has already done so.  Lookups that miss start a refresh at most once in
an interval, which they claim before they start it.
-/

namespace TelemtPanel.Subpage

open TelemtPanel.Library

/-- Half a minute, in nanoseconds. -/
def defaultRefreshInterval : ℤ := 30000000000

/-- Times are in nanoseconds since the zero time. -/
structure Index where
  tokens : Table String String
  lastRefresh : ℤ
  nextGen : ℕ
  installedGen : ℕ

namespace Index

def new : Index := ⟨∅, 0, 0, 0⟩

def get (index : Index) (token : String) : Option String := index.tokens[token]?

/-- `Time.Sub`, which saturates. -/
def sub (now last : ℤ) : ℤ := max minInt64 (min maxInt64 (now - last))

/-- The clock is read for the check and, a little later, for the mark. -/
def claimRefreshWindow (index : Index) (now stamp : ℤ) : Bool × Index :=
  if sub now index.lastRefresh < defaultRefreshInterval then (false, index)
  else (true, { index with lastRefresh := stamp })

/-- The end of `Refresh`. -/
def install (index : Index) (gen : ℕ) (tokens : Table String String) (now : ℤ) : Index :=
  if gen ≤ index.installedGen then { index with lastRefresh := now }
  else { index with lastRefresh := now, tokens := tokens, installedGen := gen }

end Index

/-- A call of `Refresh`: before it takes its number, before it reads the users, between two
reads of nonces, and after its return. -/
inductive RefreshCall where
  | begin
  | users (gen : ℕ)
  | nonces (gen : ℕ) (todo : List UserInfo) (tokens : Table String String)
  | done

/-- Number of a call that is in flight. -/
def RefreshCall.gen? : RefreshCall → Option ℕ
  | .users gen => some gen
  | .nonces gen _ _ => some gen
  | _ => none

/-- A call of `Refresh` that has put its result in place, or would have. -/
structure Completed where
  gen : ℕ
  tokens : Table String String

section Claim

variable {index : Index} {now stamp : ℤ}

theorem Index.sub_lt_interval_iff {last : ℤ} :
    sub now last < defaultRefreshInterval ↔ now < last + defaultRefreshInterval := by
  simp only [sub, defaultRefreshInterval, minInt64, maxInt64]
  omega

/-- A claim succeeds exactly when an interval has passed since the last refresh or claim, and
then only marks the time. -/
theorem Index.claimRefreshWindow_cases :
    (index.lastRefresh + defaultRefreshInterval ≤ now ∧
        index.claimRefreshWindow now stamp = (true, { index with lastRefresh := stamp })) ∨
      (now < index.lastRefresh + defaultRefreshInterval ∧
        index.claimRefreshWindow now stamp = (false, index)) := by
  by_cases early : now < index.lastRefresh + defaultRefreshInterval
  · exact Or.inr ⟨early, if_pos (sub_lt_interval_iff.mpr early)⟩
  · exact Or.inl ⟨not_lt.mp early, if_neg (mt sub_lt_interval_iff.mp early)⟩

end Claim

end TelemtPanel.Subpage
