import TelemtPanel.HTTPAPI.WebAuthn.History

/-!
# Signature counters

The counter of a credential only grows as long as the credential is stored: what a login sets
has grown against the counter that was listed, and it is only set in place of that one.
-/

namespace TelemtPanel.HTTPAPI.WebAuthn

open TelemtPanel.Library TelemtPanel.Auth

variable {Handle Key Data Response Challenge : Type} [DecidableEq Handle]

omit [DecidableEq Handle] in
theorem Effect.keyed {store later : Store Handle Key Data} {input : Input Handle Data}
    {call : Call Handle Key Data Response} (effect : Effect store input call later)
    (keyed : store.webauthnCredentials.Keyed (·.id)) :
    later.webauthnCredentials.Keyed (·.id) := by
  cases effect with
  | add credential isAdd absent => exact keyed.insert rfl
  | update login isUpdate compared => exact keyed.insert rfl
  | delete id isDelete => exact keyed.eraseAll [id]
  | _ => exact keyed

/-- The records that a login verifies its response with agree with the credentials the library
is given, and an identifier occurs once. -/
structure Records (user : WebAuthnUser Handle Key) (records : List (WebAuthnCredential Key)) :
    Prop where
  credentials : user.credentials = records.map (·.credentialData)
  consistent : ∀ record ∈ records, record.consistent = true
  distinct : ∀ record ∈ records, ∀ other ∈ records, record.id = other.id → record = other

omit [DecidableEq Handle] in
theorem records_list {store : Store Handle Key Data} (handle : Handle)
    (keyed : store.webauthnCredentials.Keyed (·.id))
    (consistent : ∀ record ∈ store.listWebAuthnCredentials, record.consistent = true) :
    Records ⟨handle, store.listWebAuthnCredentials.map (·.credentialData)⟩
      store.listWebAuthnCredentials := by
  refine ⟨rfl, consistent, ?_⟩
  have stored : ∀ record ∈ store.listWebAuthnCredentials,
      store.webauthnCredentials[record.id]? = some record := by
    intro record mem
    exact keyed.mem_rows.mp (List.mem_mergeSort.mp mem)
  intro record mem other memOther same
  have found := stored record mem
  rw [same, stored other memOther] at found
  exact (Option.some_inj.mp found).symm

/-- The library has been given the credential whose counter was listed. -/
theorem Accepts.grew {library : Library Handle Key Data Response} {challengeOf : Data → Challenge}
    {answered : Response → Challenge} (sound : library.Sound challengeOf answered)
    {user : WebAuthnUser Handle Key} {records : List (WebAuthnCredential Key)}
    {login : Login Key Data Response} (isRecords : Records user records)
    (accepts : Accepts library user records login) :
    Grew login.oldSignCount login.credential.signCount := by
  rcases accepts.verified with ⟨validatedUser, verified⟩
  rcases sound.stored _ _ _ _ _ _ _ verified with ⟨rawID, handle, discovered, known, mem, sameID, grew⟩
  rcases accepts.listed with ⟨previous, listed, -, isOld, isID⟩
  have isUser : validatedUser = user := by
    unfold discover at discovered
    split at discovered
    · cases discovered
    · split at discovered
      · exact (Option.some_inj.mp discovered).symm
      · cases discovered
  rw [isUser, isRecords.credentials, List.mem_map] at mem
  rcases mem with ⟨record, memRecord, isKnown⟩
  have indexed := isRecords.consistent record memRecord
  simp only [WebAuthnCredential.consistent, Bool.decide_and, Bool.and_eq_true,
    decide_eq_true_eq] at indexed
  have same : record = previous := by
    apply isRecords.distinct record memRecord previous listed
    rw [← indexed.1, isKnown, sameID, isID]
  have counted := grew accepts.unwarned
  rw [← isKnown, indexed.2, same, isOld] at counted
  rw [accepts.counted]
  exact counted

namespace System

variable {library : Library Handle Key Data Response} {start : System Handle Key Data Response}
  {events : List (Event Handle Data Response)}

theorem keyed_moment (fresh : start.Fresh) {m : ℕ} (le : m ≤ events.length) :
    (start.moment library events m).store.webauthnCredentials.Keyed (·.id) := by
  induction m with
  | zero =>
      rw [moment, stateAt_zero]
      exact fresh.keyed
  | succ m ih =>
      have keyed := ih (Nat.le_of_succ_le le)
      rcases @store_moment _ _ _ _ _ library start _ _ (Nat.lt_of_succ_le le)
        with ⟨sessions, same⟩ | ⟨rid, call, input, makes⟩
      · rw [same]
        exact keyed
      · exact makes.effect.keyed keyed

theorem records_moment (fresh : start.Fresh) {m rid : ℕ} (le : m ≤ events.length)
    {request : Finish Response} {challenge : WebAuthnChallenge Data}
    {user : WebAuthnUser Handle Key} {records : List (WebAuthnCredential Key)}
    (isCall : (start.moment library events m).calls rid =
      some (.verify request challenge user records)) : Records user records := by
  have arrives : ∀ (now : ℤ) (call : Call Handle Key Data Response), Arrives now call →
      ¬call = .verify request challenge user records := by
    intro now call isArrival holds
    have without := isArrival.not_obtained
    rw [holds] at without
    cases without
  rcases exists_makes fresh arrives le isCall rfl
    with ⟨c, lt, before, input, next, makes, -, -, isVerify, becomes⟩
  subst isVerify
  cases becomes with
  | other without arrived => cases without
  | listed consistent => exact records_list _ (keyed_moment fresh makes.lt.le) consistent

theorem grew_of_accepted {challengeOf : Data → Challenge} {answered : Response → Challenge}
    (sound : library.Sound challengeOf answered) (fresh : start.Fresh) {m rid : ℕ}
    (le : m ≤ events.length) {call : Call Handle Key Data Response}
    {login : Login Key Data Response}
    (isCall : (start.moment library events m).calls rid = some call)
    (accepts : call.accepted = some login) :
    Grew login.oldSignCount login.credential.signCount := by
  rcases exists_verifies fresh le isCall accepts with ⟨v, lt, user, records, input, makes, isAccepted⟩
  exact isAccepted.grew sound (records_moment fresh makes.lt.le makes.1)

theorem le_of_grew {stored reported : ℕ} (grew : Grew stored reported) : stored ≤ reported := by
  unfold Grew at grew
  omega

section Growth

variable {challengeOf : Data → Challenge} {answered : Response → Challenge} {id : String}

/-- A step sets no counter back. -/
theorem signCount_step (sound : library.Sound challengeOf answered) (fresh : start.Fresh) {m : ℕ}
    (lt : m < events.length) {before later : WebAuthnCredential Key}
    (isBefore : (start.moment library events m).store.webauthnCredentials[id]? = some before)
    (isLater : (start.moment library events (m + 1)).store.webauthnCredentials[id]? = some later) :
    before.signCount ≤ later.signCount := by
  rcases @store_moment _ _ _ _ _ library start _ _ lt
    with ⟨sessions, same⟩ | ⟨rid, call, input, makes⟩
  · rw [same] at isLater
    rw [isBefore] at isLater
    cases isLater
    exact le_rfl
  · have move := makes.effect.credentialMove id
    rw [isBefore, isLater] at move
    cases move with
    | kept => exact le_rfl
    | updated isUpdate isID compared =>
        subst isUpdate
        rw [compared]
        exact le_of_grew (grew_of_accepted sound fresh makes.lt.le makes.1 rfl)

/-- As long as a credential is stored its counter only grows. -/
theorem signCount_mono (sound : library.Sound challengeOf answered) (fresh : start.Fresh) {m n : ℕ}
    (le : m ≤ n) (bound : n ≤ events.length)
    (stored : ∀ k, m ≤ k → k ≤ n →
      (start.moment library events k).store.webauthnCredentials[id]? ≠ none)
    {before later : WebAuthnCredential Key}
    (isBefore : (start.moment library events m).store.webauthnCredentials[id]? = some before)
    (isLater : (start.moment library events n).store.webauthnCredentials[id]? = some later) :
    before.signCount ≤ later.signCount := by
  induction n, le using Nat.le_induction generalizing later with
  | base =>
      rw [isBefore] at isLater
      cases isLater
      exact le_rfl
  | succ n le ih =>
      rcases Option.ne_none_iff_exists'.mp (stored n le (Nat.le_succ n)) with ⟨middle, isMiddle⟩
      have grown := ih (Nat.le_of_succ_le bound)
        (fun k above below => stored k above (Nat.le_succ_of_le below)) isMiddle
      exact grown.trans (signCount_step sound fresh (Nat.lt_of_succ_le bound) isMiddle isLater)

/-- Two logins that set a positive counter in place of the same one are separated by a deletion
of the credential. -/
theorem absent_between (sound : library.Sound challengeOf answered) (fresh : start.Fresh)
    {u later rid other : ℕ} {login own : Login Key Data Response} (lt : u < later)
    (compares : Compares library start events u rid login)
    (again : Compares library start events later other own)
    (sameID : login.credential.id = own.credential.id)
    (sameCount : login.oldSignCount = own.oldSignCount) (positive : 0 < login.credential.signCount) :
    ∃ k, u < k ∧ k ≤ later ∧
      (start.moment library events k).store.webauthnCredentials[login.credential.id]? = none := by
  by_contra present
  rcases compares with ⟨⟨input, makes⟩, -, set⟩
  rcases again with ⟨⟨given, alsoMakes⟩, ⟨previous, listed, isOld⟩, -⟩
  rw [← sameID] at listed
  have grew := grew_of_accepted sound fresh makes.lt.le makes.1 rfl
  have stored : ∀ k, u + 1 ≤ k → k ≤ later →
      (start.moment library events k).store.webauthnCredentials[login.credential.id]? ≠ none := by
    intro k above below isNone
    exact present ⟨k, above, below, isNone⟩
  have grown := signCount_mono sound fresh lt alsoMakes.lt.le stored set listed
  unfold Grew at grew
  omega

/-- A credential that is there again has been registered. -/
theorem exists_registers {k n : ℕ} (le : k ≤ n) (bound : n ≤ events.length)
    (absent : (start.moment library events k).store.webauthnCredentials[id]? = none)
    {credential : WebAuthnCredential Key}
    (present : (start.moment library events n).store.webauthnCredentials[id]? = some credential) :
    ∃ a, k ≤ a ∧ a < n ∧ Registers library start events a id := by
  induction n, le using Nat.le_induction generalizing credential with
  | base =>
      rw [absent] at present
      cases present
  | succ n le ih =>
      have lt := Nat.lt_of_succ_le bound
      have earlier : ∀ known, (start.moment library events n).store.webauthnCredentials[id]? =
          some known → ∃ a, k ≤ a ∧ a < n + 1 ∧ Registers library start events a id := by
        intro known before
        rcases ih lt.le before with ⟨a, above, below, registers⟩
        exact ⟨a, above, Nat.lt_succ_of_lt below, registers⟩
      rcases @store_moment _ _ _ _ _ library start _ _ lt
        with ⟨sessions, same⟩ | ⟨rid, call, input, makes⟩
      · rw [same] at present
        exact earlier _ present
      · have move := makes.effect.credentialMove id
        rw [present] at move
        generalize before : (start.moment library events n).store.webauthnCredentials[id]? = known
          at move
        cases move with
        | kept => exact earlier _ before
        | added isAdd isID =>
            subst isAdd
            exact ⟨n, le, Nat.lt_succ_self n, rid, _, input, makes, isID, present⟩
        | updated isUpdate isID compared => exact earlier _ before

end Growth
end System
end TelemtPanel.HTTPAPI.WebAuthn
