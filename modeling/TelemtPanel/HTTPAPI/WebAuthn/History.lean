import TelemtPanel.HTTPAPI.WebAuthn.Runs

/-!
# The past of a ceremony

The steps of a run that matter, and what follows for a moment from the steps before it.
-/

namespace TelemtPanel.HTTPAPI.WebAuthn

open TelemtPanel.Library TelemtPanel.Auth

variable {Handle Key Data Response : Type} [DecidableEq Handle]

namespace System

section Definitions

variable (library : Library Handle Key Data Response) (start : System Handle Key Data Response)
  (events : List (Event Handle Data Response))

/-- A request makes a step after a moment. -/
def Makes (m rid : ℕ) (call : Call Handle Key Data Response) (input : Input Handle Data) : Prop :=
  (start.moment library events m).calls rid = some call ∧ events[m]? = some (.proceed rid input)

/-- The call of `PutWebAuthnChallenge` that stores a challenge. -/
def Issues (m : ℕ) (challenge : WebAuthnChallenge Data) : Prop :=
  (∃ rid input, Makes library start events m rid (.put challenge) input) ∧
    (start.moment library events (m + 1)).store.webauthnChallenges[challenge.flowHash]? =
      some challenge

/-- A finishing request finds a challenge, whatever comes of it. -/
def Finds (m rid : ℕ) (request : Finish Response) (reading : ℤ)
    (challenge : WebAuthnChallenge Data) : Prop :=
  (∃ input, Makes library start events m rid (.consume request reading) input) ∧
    (start.moment library events m).store.webauthnChallenges[request.flowHash]? = some challenge

/-- The library accepts the response of a login. -/
def Verifies (m rid : ℕ) (login : Login Key Data Response) : Prop :=
  ∃ user records input,
    Makes library start events m rid (.verify login.request login.challenge user records) input ∧
      Accepts library user records login

/-- The counter of a login is compared and set. -/
def Compares (m rid : ℕ) (login : Login Key Data Response) : Prop :=
  (∃ input, Makes library start events m rid (.update login) input) ∧
    (∃ previous, (start.moment library events m).store.webauthnCredentials[
        login.credential.id]? = some previous ∧ previous.signCount = login.oldSignCount) ∧
      (start.moment library events (m + 1)).store.webauthnCredentials[login.credential.id]? =
        some login.credential

/-- A login stores its session. -/
def Mints (m rid : ℕ) (login : Login Key Data Response) (idHash : String) : Prop :=
  ∃ input, Makes library start events m rid (.session login) input ∧
    input.outcome ≠ .failed ∧ idHash = input.tokenHash

def Registers (m : ℕ) (id : String) : Prop :=
  ∃ rid credential input, Makes library start events m rid (.add credential) input ∧
    credential.id = id ∧
      (start.moment library events (m + 1)).store.webauthnCredentials[id]? = some credential

/-- The deletion of a credential returns without an error. -/
def Deletes (m : ℕ) (id : String) : Prop :=
  ∃ rid input, Makes library start events m rid (.delete id) input ∧
    (start.moment library events (m + 1)).calls rid = some (.answered (.ok 204))

end Definitions

variable {library : Library Handle Key Data Response} {start : System Handle Key Data Response}
  {events : List (Event Handle Data Response)}

theorem moment_step {m : ℕ} {event : Event Handle Data Response} (made : events[m]? = some event) :
    start.moment library events (m + 1) = (start.moment library events m).step library event :=
  stateAt_step made

theorem Makes.after {m rid : ℕ} {call : Call Handle Key Data Response} {input : Input Handle Data}
    (makes : Makes library start events m rid call input) :
    (start.moment library events (m + 1)).store =
        (advance library (start.moment library events m).store
          (start.moment library events m).now input call).2 ∧
      (start.moment library events (m + 1)).calls rid =
        some (advance library (start.moment library events m).store
          (start.moment library events m).now input call).1 := by
  rw [moment_step makes.2]
  exact step_proceed makes.1

theorem Makes.effect {m rid : ℕ} {call : Call Handle Key Data Response} {input : Input Handle Data}
    (makes : Makes library start events m rid call input) :
    Effect (start.moment library events m).store input call
      (start.moment library events (m + 1)).store := by
  rw [makes.after.1]
  exact advance_effect

theorem Makes.lt {m rid : ℕ} {call : Call Handle Key Data Response} {input : Input Handle Data}
    (makes : Makes library start events m rid call input) : m < events.length :=
  (List.getElem?_eq_some_iff.mp makes.2).1

/-- One request makes one step after a moment. -/
theorem Makes.unique {m rid other : ℕ} {call own : Call Handle Key Data Response}
    {input given : Input Handle Data} (makes : Makes library start events m rid call input)
    (also : Makes library start events m other own given) :
    rid = other ∧ call = own ∧ input = given := by
  have same := makes.2.symm.trans also.2
  cases same
  exact ⟨rfl, Option.some_inj.mp (makes.1.symm.trans also.1), rfl⟩

/-- A step of the store is made by a request, or it changes nothing but the sessions. -/
theorem store_moment {m : ℕ} (lt : m < events.length) :
    (∃ sessions, (start.moment library events (m + 1)).store =
      { (start.moment library events m).store with sessions := sessions }) ∨
    ∃ rid call input, Makes library start events m rid call input := by
  have made := List.getElem?_eq_getElem lt
  rw [moment_step made]
  rcases @store_step _ _ _ _ _ library (start.moment library events m) (events[m])
    with same | ⟨rid, input, call, isProceed, before, -⟩
  · exact Or.inl same
  · rw [isProceed] at made
    exact Or.inr ⟨rid, call, input, before, made⟩

/-- No request is under way, no challenge is held, and the credentials are stored under their
identifiers. -/
structure Fresh (start : System Handle Key Data Response) : Prop where
  calls : start.calls = fun _ => none
  challenges : start.store.webauthnChallenges = ∅
  keyed : start.store.webauthnCredentials.Keyed (·.id)

/-- What a request has come to be it has become in a step of its own. -/
theorem exists_makes (fresh : start.Fresh) {tracked : Call Handle Key Data Response → Prop}
    (arrives : ∀ now call, Arrives now call → ¬tracked call) {rid m : ℕ} (le : m ≤ events.length)
    {call : Call Handle Key Data Response}
    (isCall : (start.moment library events m).calls rid = some call) (holds : tracked call) :
    ∃ c < m, ∃ before input next, Makes library start events c rid before input ∧
      ¬tracked before ∧ (start.moment library events (c + 1)).calls rid = some next ∧
        tracked next ∧ Becomes library (start.moment library events c).store
          (start.moment library events (c + 1)).store before next := by
  induction m generalizing call with
  | zero =>
      rw [moment, stateAt_zero, fresh.calls] at isCall
      cases isCall
  | succ m ih =>
      have made := List.getElem?_eq_getElem (Nat.lt_of_succ_le le)
      have isNext := isCall
      rw [moment_step made] at isNext
      rcases calls_step isNext with before | ⟨-, isArrival⟩ | ⟨input, before, isProceed, isBefore, same⟩
      · rcases ih (Nat.le_of_succ_le le) before holds with ⟨c, lt, rest⟩
        exact ⟨c, Nat.lt_succ_of_lt lt, rest⟩
      · exact absurd holds (arrives _ _ isArrival)
      · by_cases already : tracked before
        · rcases ih (Nat.le_of_succ_le le) isBefore already with ⟨c, lt, rest⟩
          exact ⟨c, Nat.lt_succ_of_lt lt, rest⟩
        · rw [isProceed] at made
          have makes : Makes library start events m rid before input := ⟨isBefore, made⟩
          refine ⟨m, Nat.lt_succ_self m, before, input, call, makes, already, isCall, holds, ?_⟩
          rw [makes.after.1, same]
          exact advance_becomes

/-- A challenge that a request has was found by it, and fits it. -/
theorem exists_finds (fresh : start.Fresh) {rid m : ℕ} (le : m ≤ events.length)
    {call : Call Handle Key Data Response} {request : Finish Response}
    {challenge : WebAuthnChallenge Data}
    (isCall : (start.moment library events m).calls rid = some call)
    (obtains : call.obtained = some (request, challenge)) :
    ∃ c < m, ∃ reading, Finds library start events c rid request reading challenge ∧
      Matches request reading challenge := by
  have arrives : ∀ (now : ℤ) (call : Call Handle Key Data Response), Arrives now call →
      ¬call.obtained = some (request, challenge) := by
    intro now call isArrival holds
    rw [isArrival.not_obtained] at holds
    cases holds
  rcases exists_makes fresh arrives le isCall obtains
    with ⟨c, lt, before, input, next, makes, without, -, holds, becomes⟩
  rcases becomes.obtained holds with already | ⟨reading, isConsume, found, fits⟩
  · exact absurd already without
  · subst isConsume
    exact ⟨c, lt, reading, ⟨⟨input, makes⟩, found⟩, fits⟩

theorem exists_verifies (fresh : start.Fresh) {rid m : ℕ} (le : m ≤ events.length)
    {call : Call Handle Key Data Response} {login : Login Key Data Response}
    (isCall : (start.moment library events m).calls rid = some call)
    (accepts : call.accepted = some login) : ∃ v < m, Verifies library start events v rid login := by
  have arrives : ∀ (now : ℤ) (call : Call Handle Key Data Response), Arrives now call →
      ¬call.accepted = some login := by
    intro now call isArrival holds
    have obtains := Call.obtained_of_accepted holds
    rw [isArrival.not_obtained] at obtains
    cases obtains
  rcases exists_makes fresh arrives le isCall accepts
    with ⟨v, lt, before, input, next, makes, without, -, holds, becomes⟩
  rcases becomes.accepted holds with already | ⟨user, records, isVerify, isAccepted⟩
  · exact absurd already without
  · subst isVerify
    exact ⟨v, lt, user, records, input, makes, isAccepted⟩

theorem exists_compares (fresh : start.Fresh) {rid m : ℕ} (le : m ≤ events.length)
    {login : Login Key Data Response}
    (isCall : (start.moment library events m).calls rid = some (.session login)) :
    ∃ u < m, Compares library start events u rid login := by
  have arrives : ∀ (now : ℤ) (call : Call Handle Key Data Response), Arrives now call →
      ¬call = .session login := by
    intro now call isArrival holds
    have without := isArrival.not_obtained
    rw [holds] at without
    cases without
  rcases exists_makes fresh arrives le isCall rfl
    with ⟨u, lt, before, input, next, makes, -, -, isSession, becomes⟩
  subst isSession
  cases becomes with
  | other without arrived => cases without
  | compare compared stored => exact ⟨u, lt, ⟨input, makes⟩, compared, stored⟩

/-- A stored challenge was issued, and it has been there since. -/
theorem exists_issues (fresh : start.Fresh) {m : ℕ} (le : m ≤ events.length) {hash : String}
    {challenge : WebAuthnChallenge Data}
    (held : (start.moment library events m).store.webauthnChallenges[hash]? = some challenge) :
    ∃ p < m, Issues library start events p challenge ∧ challenge.flowHash = hash ∧
      ∀ k, p < k → k ≤ m →
        (start.moment library events k).store.webauthnChallenges[hash]? = some challenge := by
  induction m with
  | zero =>
      rw [moment, stateAt_zero, fresh.challenges] at held
      simp at held
  | succ m ih =>
      have earlier : (start.moment library events m).store.webauthnChallenges[hash]? =
          some challenge → ∃ p < m + 1, Issues library start events p challenge ∧
          challenge.flowHash = hash ∧ ∀ k, p < k → k ≤ m + 1 →
            (start.moment library events k).store.webauthnChallenges[hash]? = some challenge := by
        intro before
        rcases ih (Nat.le_of_succ_le le) before with ⟨p, lt, issues, isHash, since⟩
        refine ⟨p, Nat.lt_succ_of_lt lt, issues, isHash, ?_⟩
        intro k later bound
        rcases Nat.le_succ_iff.mp bound with bound | rfl
        · exact since k later bound
        · exact held
      rcases @store_moment _ _ _ _ _ library start _ _ (Nat.lt_of_succ_le le)
        with ⟨sessions, same⟩ | ⟨rid, call, input, makes⟩
      · rw [same] at held
        exact earlier held
      · rcases makes.effect.challenge_origin held with before | ⟨isPut, isHash⟩
        · exact earlier before
        · subst isPut isHash
          refine ⟨m, Nat.lt_succ_self m, ⟨⟨rid, input, makes⟩, held⟩, rfl, ?_⟩
          intro k later bound
          have same : k = m + 1 := by omega
          rw [same]
          exact held

/-- A challenge that is found is not there any more. -/
theorem Finds.absent {m rid : ℕ} {request : Finish Response} {reading : ℤ}
    {challenge : WebAuthnChallenge Data}
    (finds : Finds library start events m rid request reading challenge) :
    (start.moment library events (m + 1)).store.webauthnChallenges[request.flowHash]? = none := by
  rcases finds with ⟨⟨input, makes⟩, found⟩
  rw [makes.after.1]
  simp only [advance, Store.consumeWebAuthnChallenge, found]
  split
  · rename_i result
    split at result
    · cases result
      simp
    · cases result
  · rename_i result
    split at result
    · cases result
    · cases result
      simp

end System
end TelemtPanel.HTTPAPI.WebAuthn
