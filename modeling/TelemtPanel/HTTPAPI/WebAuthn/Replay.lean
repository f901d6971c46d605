import TelemtPanel.HTTPAPI.WebAuthn.Counters

/-!
# Ceremonies are not replayed

A challenge is found by one finishing request, a session stands at the end of a chain of steps
of one request, and of the logins that were verified against one counter a single one sets it as
long as the credential is not deleted.  A deletion that comes between the counter and the session
does not keep the session from being stored.
-/

namespace TelemtPanel.HTTPAPI.WebAuthn

open TelemtPanel.Library TelemtPanel.Auth

variable {Handle Key Data Response Challenge : Type} [DecidableEq Handle]
  {library : Library Handle Key Data Response}

namespace System

section Steps

variable {system : System Handle Key Data Response} {event : Event Handle Data Response}

/-- A request that has been answered stays so. -/
theorem answered_step {rid : ℕ} {answer : Answer}
    (isAnswered : system.calls rid = some (.answered answer)) :
    (system.step library event).calls rid = some (.answered answer) := by
  have started : ∀ (other : ℕ) (call : Call Handle Key Data Response),
      (system.start other call).calls rid = some (.answered answer) := by
    intro other call
    unfold start
    split
    · rename_i idle
      have differ : rid ≠ other := by
        intro same
        rw [← same, isAnswered] at idle
        cases idle
      simp only [Function.update_of_ne differ]
      exact isAnswered
    · exact isAnswered
  cases event with
  | wait elapsed => exact isAnswered
  | beginRegister other name address => exact started _ _
  | beginLogin other address => exact started _ _
  | finish other request => exact started _ _
  | delete other id => exact started _ _
  | passwordLogin idHash outcome => exact isAnswered
  | dropSession idHash => exact isAnswered
  | proceed other input =>
      by_cases here : other = rid
      · subst here
        rw [(step_proceed isAnswered).2]
        rfl
      · simp only [step, proceed]
        split
        · exact isAnswered
        · simp only [Function.update_of_ne (Ne.symm here)]
          exact isAnswered

omit [DecidableEq Handle] in
/-- Only a login stores a session of the kind `passkey`. -/
theorem session_origin {store later : Store Handle Key Data} {input : Input Handle Data}
    {call : Call Handle Key Data Response} (effect : Effect store input call later)
    {idHash : String} {session : Session} (held : later.sessions[idHash]? = some session) :
    store.sessions[idHash]? = some session ∨
      ∃ login, call = .session login ∧ input.outcome ≠ .failed ∧ idHash = input.tokenHash := by
  cases effect with
  | session login isSession taken now =>
      simp only [Table.lookup_insert] at held
      split at held
      · rename_i here
        exact Or.inr ⟨login, isSession, taken, here.symm⟩
      · exact Or.inl held
  | _ => exact Or.inl held

theorem session_step {idHash : String} {session : Session}
    (held : (system.step library event).store.sessions[idHash]? = some session)
    (isPasskey : session.authMethod = "passkey") :
    system.store.sessions[idHash]? = some session ∨
      ∃ rid login input, event = .proceed rid input ∧ system.calls rid = some (.session login) ∧
        input.outcome ≠ .failed ∧ idHash = input.tokenHash := by
  have started : ∀ (rid : ℕ) (call : Call Handle Key Data Response),
      (system.start rid call).store = system.store := by
    intro rid call
    unfold start
    split
    · rfl
    · rfl
  cases event with
  | wait elapsed => exact Or.inl held
  | beginRegister rid name address =>
      rw [step, started] at held
      exact Or.inl held
  | beginLogin rid address =>
      rw [step, started] at held
      exact Or.inl held
  | finish rid request =>
      rw [step, started] at held
      exact Or.inl held
  | delete rid id =>
      rw [step, started] at held
      exact Or.inl held
  | passwordLogin other outcome =>
      simp only [step, Store.putSession, Store.writeState_snd] at held
      split at held
      · exact Or.inl held
      · rw [Table.lookup_insert] at held
        split at held
        · cases held
          exact absurd (show "password" = "passkey" from isPasskey) (by decide)
        · exact Or.inl held
  | dropSession other =>
      simp only [step, Table.lookup_erase] at held
      split at held
      · cases held
      · exact Or.inl held
  | proceed rid input =>
      cases before : system.calls rid with
      | none =>
          simp only [step, proceed, before] at held
          exact Or.inl held
      | some call =>
          rw [(step_proceed before).1] at held
          rcases session_origin advance_effect held with stays | ⟨login, isSession, taken, isHash⟩
          · exact Or.inl stays
          · subst isSession
            exact Or.inr ⟨rid, login, input, rfl, before, taken, isHash⟩

end Steps

variable {start : System Handle Key Data Response} {events : List (Event Handle Data Response)}

theorem exists_mints {m : ℕ} (le : m ≤ events.length) {idHash : String} {session : Session}
    (held : (start.moment library events m).store.sessions[idHash]? = some session)
    (isPasskey : session.authMethod = "passkey") :
    start.store.sessions[idHash]? = some session ∨
      ∃ s < m, ∃ rid login, Mints library start events s rid login idHash := by
  induction m with
  | zero =>
      rw [moment, stateAt_zero] at held
      exact Or.inl held
  | succ m ih =>
      have made := List.getElem?_eq_getElem (Nat.lt_of_succ_le le)
      rw [moment_step made] at held
      rcases session_step held isPasskey with before | ⟨rid, login, input, isProceed, isCall, rest⟩
      · rcases ih (Nat.le_of_succ_le le) before with initially | ⟨s, lt, minted⟩
        · exact Or.inl initially
        · exact Or.inr ⟨s, Nat.lt_succ_of_lt lt, minted⟩
      · rw [isProceed] at made
        exact Or.inr ⟨m, Nat.lt_succ_self m, rid, login, input, ⟨isCall, made⟩, rest⟩

/-- A request stores one session. -/
theorem Mints.unique {s later rid : ℕ} {login own : Login Key Data Response} {idHash other : String}
    (mints : Mints library start events s rid login idHash)
    (again : Mints library start events later rid own other) : s = later := by
  have apart : ∀ {s later : ℕ} {login own : Login Key Data Response} {idHash other : String},
      Mints library start events s rid login idHash →
      Mints library start events later rid own other → ¬s < later := by
    intro s later login own idHash other mints again lt
    rcases mints with ⟨input, makes, -⟩
    rcases again with ⟨given, alsoMakes, -⟩
    have isAnswered := makes.after.2
    simp only [advance] at isAnswered
    have stays := @stateAt_mono _ _ (fun system => system.step library) start events (s + 1)
      (fun system => system.calls rid = some (.answered _))
      (fun _ _ holds => answered_step holds) later lt isAnswered
    have isSession := alsoMakes.1
    rw [moment, stays] at isSession
    cases isSession
  exact le_antisymm (not_lt.mp (apart again mints)) (not_lt.mp (apart mints again))

/-- The credential is gone when its deletion returns. -/
theorem Deletes.absent {m : ℕ} {id : String} (deletes : Deletes library start events m id) :
    (start.moment library events (m + 1)).store.webauthnCredentials[id]? = none := by
  rcases deletes with ⟨rid, input, makes, isAnswered⟩
  rw [makes.after.2] at isAnswered
  rw [makes.after.1]
  simp only [advance, Option.some.injEq, Call.answered.injEq] at isAnswered ⊢
  cases failed : ((start.moment library events m).store.deleteWebAuthnCredential id
    input.outcome).1 with
  | none => exact Store.deleteWebAuthnCredential_ok failed
  | some error =>
      rw [failed] at isAnswered
      cases error <;> cases isAnswered

/-- A finishing request has read the clock when it arrived. -/
theorem exists_reading (fresh : start.Fresh) {m rid : ℕ} (le : m ≤ events.length)
    {call : Call Handle Key Data Response} {reading : ℤ}
    (isCall : (start.moment library events m).calls rid = some call)
    (isReading : call.reading = some reading) :
    ∃ a < m, (start.moment library events a).now = reading := by
  induction m with
  | zero =>
      rw [moment, stateAt_zero, fresh.calls] at isCall
      cases isCall
  | succ m ih =>
      rw [moment_step (List.getElem?_eq_getElem (Nat.lt_of_succ_le le))] at isCall
      rcases calls_step isCall with before | ⟨-, arrives⟩ | ⟨input, before, -, -, isNext⟩
      · rcases ih (Nat.le_of_succ_le le) before with ⟨a, lt, isNow⟩
        exact ⟨a, Nat.lt_succ_of_lt lt, isNow⟩
      · exact ⟨m, Nat.lt_succ_self m, arrives.reading isReading⟩
      · have becomes := @advance_becomes _ _ _ _ _ library
          (start.moment library events m).store (start.moment library events m).now input before
        rw [← isNext] at becomes
        cases becomes with
        | other without arrived =>
            rw [arrived] at isReading
            cases isReading
        | _ => cases isReading

section Ceremonies

variable {challengeOf : Data → Challenge} {answered : Response → Challenge}

/-- Steps of a request that has stored a session, and of the one that issued its challenge. -/
structure Chain (library : Library Handle Key Data Response)
    (start : System Handle Key Data Response) (events : List (Event Handle Data Response))
    (rid s : ℕ) (login : Login Key Data Response) (issued found verified compared : ℕ) : Prop where
  issues : Issues library start events issued login.challenge
  earlier : issued < found
  finds : ∃ reading, Finds library start events found rid login.request reading login.challenge ∧
    Matches login.request reading login.challenge
  thenVerified : found < verified
  verifies : Verifies library start events verified rid login
  thenCompared : verified < compared
  compares : Compares library start events compared rid login
  thenStored : compared < s

/-- A session stands at the end of a chain of steps of one request. -/
theorem Mints.chain (fresh : start.Fresh) {s rid : ℕ} {login : Login Key Data Response}
    {idHash : String} (mints : Mints library start events s rid login idHash) :
    ∃ issued found verified compared,
      Chain library start events rid s login issued found verified compared := by
  rcases mints with ⟨input, makes, -⟩
  rcases exists_compares fresh makes.lt.le makes.1 with ⟨compared, thenStored, compares⟩
  have updates := compares
  rcases updates with ⟨⟨_, update⟩, -⟩
  rcases exists_verifies fresh update.lt.le update.1 rfl with ⟨verified, thenCompared, verifies⟩
  have accepts := verifies
  rcases accepts with ⟨user, records, _, verify, -⟩
  rcases exists_finds fresh verify.lt.le verify.1 rfl
    with ⟨found, thenVerified, reading, finds, fits⟩
  have consumes := finds
  rcases consumes with ⟨⟨_, consume⟩, held⟩
  rcases exists_issues fresh consume.lt.le held with ⟨issued, earlier, issues, -⟩
  exact ⟨issued, found, verified, compared, issues, earlier, ⟨reading, finds, fits⟩, thenVerified,
    verifies, thenCompared, compares, thenStored⟩

/-- Between two requests that find a challenge of one hash it has been issued anew. -/
theorem Finds.issued_between (fresh : start.Fresh) {m later rid other : ℕ}
    {request own : Finish Response} {reading given : ℤ}
    {challenge held : WebAuthnChallenge Data} (lt : m < later)
    (finds : Finds library start events m rid request reading challenge)
    (again : Finds library start events later other own given held)
    (same : request.flowHash = own.flowHash) :
    ∃ p, m < p ∧ p < later ∧ Issues library start events p held := by
  have consumes := again
  rcases consumes with ⟨⟨_, consume⟩, found⟩
  rcases exists_issues fresh consume.lt.le found with ⟨p, earlier, issues, -, since⟩
  refine ⟨p, ?_, earlier, issues⟩
  by_contra before
  have present := since (m + 1) (by omega) lt
  rw [← same, finds.absent] at present
  cases present

/-- A login only sets its counter after a deletion when the credential has been registered
again. -/
theorem Compares.registered_after (deleted compared : ℕ) {rid : ℕ} {login : Login Key Data Response}
    (compares : Compares library start events compared rid login)
    (deletes : Deletes library start events deleted login.credential.id)
    (lt : deleted < compared) :
    ∃ a, deleted < a ∧ a < compared ∧ Registers library start events a login.credential.id := by
  rcases compares with ⟨⟨input, makes⟩, ⟨previous, listed, -⟩, -⟩
  exact exists_registers lt makes.lt.le deletes.absent listed

theorem challenges_bounded (fresh : start.Fresh) {m : ℕ} (le : m ≤ events.length) :
    (start.moment library events m).store.webauthnChallenges.size ≤ webAuthnChallengeLimit := by
  induction m with
  | zero =>
      rw [moment, stateAt_zero, fresh.challenges]
      simp
  | succ m ih =>
      have bounded := ih (Nat.le_of_succ_le le)
      rcases @store_moment _ _ _ _ _ library start _ _ (Nat.lt_of_succ_le le)
        with ⟨sessions, same⟩ | ⟨rid, call, input, makes⟩
      · rw [same]
        exact bounded
      · exact makes.effect.challenges_bounded bounded

/-- Of two logins that were verified against one positive counter, one sets it after the
credential has been deleted. -/
theorem deleted_between (sound : library.Sound challengeOf answered) (fresh : start.Fresh)
    {s later rid other compared again : ℕ} {login own : Login Key Data Response}
    {idHash otherHash : String} (mints : Mints library start events s rid login idHash)
    (alsoMints : Mints library start events later other own otherHash) (differ : s ≠ later)
    (compares : Compares library start events compared rid login)
    (alsoCompares : Compares library start events again other own)
    (sameID : login.credential.id = own.credential.id)
    (sameCount : login.oldSignCount = own.oldSignCount)
    (positive : 0 < login.credential.signCount) (alsoPositive : 0 < own.credential.signCount) :
    ∃ k, min compared again < k ∧ k ≤ max compared again ∧
      (start.moment library events k).store.webauthnCredentials[login.credential.id]? = none := by
  rcases lt_trichotomy compared again with lt | same | lt
  · rw [min_eq_left lt.le, max_eq_right lt.le]
    exact absent_between sound fresh lt compares alsoCompares sameID sameCount positive
  · rcases compares.1 with ⟨_, makes⟩
    rcases alsoCompares.1 with ⟨_, alsoMakes⟩
    rw [same] at makes
    rw [(makes.unique alsoMakes).1] at mints
    exact absurd (mints.unique alsoMints) differ
  · rw [min_eq_right lt.le, max_eq_left lt.le, sameID]
    exact absent_between sound fresh lt alsoCompares compares sameID.symm sameCount.symm
      alsoPositive

/-- A challenge that is found is gone, whatever becomes of the request that found it, and it is
found again only after it has been issued again.  A request goes on with a challenge of its own
kind that had not expired when the request read the clock.  Every session of a passkey is at the
end of a chain of steps for one origin and one relying party id.  Counters grow as long as the
credential is stored, and two logins do not set one positive counter unless the credential was
deleted in between.  A login whose credential was deleted before its counter was set has found
it registered again under the very counter that was listed. -/
theorem ceremonies_sound (sound : library.Sound challengeOf answered) (fresh : start.Fresh)
    (events : List (Event Handle Data Response)) :
    (∀ m later rid other request own reading given challenge held, m < later →
      Finds library start events m rid request reading challenge →
      Finds library start events later other own given held →
      request.flowHash = own.flowHash →
        ∃ p, m < p ∧ p < later ∧ Issues library start events p held) ∧
    (∀ m ≤ events.length, ∀ rid call request challenge,
      (start.moment library events m).calls rid = some call →
      call.obtained = some (request, challenge) →
        ∃ c < m, ∃ reading, Finds library start events c rid request reading challenge ∧
          challenge.kind = request.kind ∧ reading < challenge.expires ∧
            ∃ a < c, (start.moment library events a).now = reading) ∧
    (∀ m ≤ events.length, ∀ (idHash : String) (session : Session),
      (start.moment library events m).store.sessions[idHash]? = some session →
      session.authMethod = "passkey" → start.store.sessions[idHash]? = some session ∨
        ∃ s < m, ∃ rid login, Mints library start events s rid login idHash) ∧
    (∀ s rid login idHash, Mints library start events s rid login idHash →
      ∃ issued found verified compared,
        Chain library start events rid s login issued found verified compared ∧
          answered login.request.response = challengeOf login.challenge.data ∧
            login.request.address = some (login.challenge.origin, login.challenge.rpID)) ∧
    (∀ (id : String) (m n : ℕ), m ≤ n → n ≤ events.length →
      (∀ k, m ≤ k → k ≤ n →
        (start.moment library events k).store.webauthnCredentials[id]? ≠ none) →
      ∀ before later : WebAuthnCredential Key,
        (start.moment library events m).store.webauthnCredentials[id]? = some before →
        (start.moment library events n).store.webauthnCredentials[id]? = some later →
          before.signCount ≤ later.signCount) ∧
    (∀ s later rid other login own idHash otherHash compared again,
      Mints library start events s rid login idHash →
      Mints library start events later other own otherHash → s ≠ later →
      Compares library start events compared rid login →
      Compares library start events again other own →
      login.credential.id = own.credential.id → login.oldSignCount = own.oldSignCount →
      0 < login.credential.signCount → 0 < own.credential.signCount →
        ∃ k, min compared again < k ∧ k ≤ max compared again ∧
          (start.moment library events k).store.webauthnCredentials[login.credential.id]? =
            none) ∧
    (∀ rid login compared deleted, Compares library start events compared rid login →
      Deletes library start events deleted login.credential.id → deleted < compared →
        ∃ a, deleted < a ∧ a < compared ∧
          Registers library start events a login.credential.id) ∧
    ∀ m ≤ events.length,
      (start.moment library events m).store.webauthnChallenges.size ≤ webAuthnChallengeLimit := by
  refine ⟨?_, ?_, ?_, ?_, ?_, ?_, ?_, ?_⟩
  · intro m later rid other request own reading given challenge held lt finds again same
    exact finds.issued_between fresh lt again same
  · intro m le rid call request challenge isCall obtains
    rcases exists_finds fresh le isCall obtains with ⟨c, lt, reading, finds, fits⟩
    have consumes := finds
    rcases consumes with ⟨⟨_, consume⟩, -⟩
    rcases exists_reading fresh consume.lt.le consume.1 rfl with ⟨a, earlier, isNow⟩
    exact ⟨c, lt, reading, finds, fits.kind, fits.live, a, earlier, isNow⟩
  · intro m le idHash session held isPasskey
    exact exists_mints le held isPasskey
  · intro s rid login idHash mints
    rcases mints.chain fresh with ⟨issued, found, verified, compared, chain⟩
    refine ⟨issued, found, verified, compared, chain, ?_, ?_⟩
    · rcases chain.verifies with ⟨_, _, _, _, accepts⟩
      rcases accepts.verified with ⟨validatedUser, isVerified⟩
      exact sound.answers _ _ _ _ _ _ isVerified
    · rcases chain.finds with ⟨reading, -, fits⟩
      exact fits.address
  · intro id m n le bound stored before later isBefore isLater
    exact signCount_mono sound fresh le bound stored isBefore isLater
  · intro s later rid other login own idHash otherHash compared again mints alsoMints differ compares
      alsoCompares sameID sameCount positive alsoPositive
    exact deleted_between sound fresh mints alsoMints differ compares alsoCompares sameID sameCount
      positive alsoPositive
  · intro rid login compared deleted compares deletes lt
    exact compares.registered_after deleted compared deletes lt
  · intro m le
    exact challenges_bounded fresh le

end Ceremonies

section Sample

/-- Response of an authenticator for a challenge. -/
structure SampleResponse where
  rawID : String
  userHandle : ℕ
  challenge : ℕ
  signCount : ℕ
deriving DecidableEq, Repr

/-- A library whose sessions are their challenges. -/
def sampleLibrary : Library ℕ Unit ℕ SampleResponse where
  finishRegistration _ _ _ data response :=
    if response.challenge = data then some ⟨response.rawID, response.signCount, false, ()⟩ else none
  finishPasskeyLogin _ _ discover data response :=
    if response.challenge = data then
      (discover response.rawID response.userHandle).bind fun user =>
        (user.credentials.find? fun known => decide (known.id = response.rawID)).map fun known =>
          if Grew known.signCount response.signCount then
            (user, { known with signCount := response.signCount })
          else (user, { known with cloneWarning := true })
    else none

theorem sampleLibrary_sound :
    sampleLibrary.Sound (fun data : ℕ => data) SampleResponse.challenge where
  registers := by
    intro origin rpID user data response credential accepted
    simp only [sampleLibrary] at accepted
    split at accepted
    · assumption
    · cases accepted
  answers := by
    intro origin rpID discover data response accepted isAccepted
    simp only [sampleLibrary] at isAccepted
    split at isAccepted
    · assumption
    · cases isAccepted
  stored := by
    intro origin rpID discover data response user credential isAccepted
    simp only [sampleLibrary] at isAccepted
    split at isAccepted
    · rcases Option.bind_eq_some_iff.mp isAccepted with ⟨found, discovered, isKnown⟩
      rcases Option.map_eq_some_iff.mp isKnown with ⟨known, isFound, result⟩
      have mem := List.mem_of_find?_eq_some isFound
      split at result
      · rename_i grew
        cases result
        exact ⟨_, _, discovered, known, mem, rfl, fun _ => grew⟩
      · cases result
        exact ⟨_, _, discovered, known, mem, rfl, fun unwarned => Bool.noConfusion unwarned⟩
    · cases isAccepted

def sampleCredential (signCount : ℕ) (lastUsed : ℤ) : WebAuthnCredential Unit :=
  ⟨"key", "Phone", ⟨"key", signCount, false, ()⟩, signCount, 1, lastUsed⟩

def sampleStart : System ℕ Unit ℕ SampleResponse where
  store :=
    { webauthnUserHandle := some 7
      webauthnCredentials := (∅ : Table String _).insert "key" (sampleCredential 1 0)
      webauthnChallenges := ∅
      sessions := ∅ }
  now := 10
  calls := fun _ => none

def sampleFinish : Finish SampleResponse :=
  ⟨.login, "flow", some ("https://panel", "panel"), ⟨"key", 7, 5, 2⟩⟩

def sampleInput (tokenHash : String) : Input ℕ ℕ := ⟨.ok, 0, some 5, tokenHash⟩

/-- The credential is deleted after the counter has been set and before the session is stored. -/
def sampleEvents : List (Event ℕ ℕ SampleResponse) :=
  [.beginLogin 0 (some ("https://panel", "panel")), .proceed 0 (sampleInput ""),
    .proceed 0 (sampleInput "flow"), .proceed 0 (sampleInput ""), .finish 1 sampleFinish,
    .proceed 1 (sampleInput ""), .proceed 1 (sampleInput ""), .proceed 1 (sampleInput ""),
    .proceed 1 (sampleInput ""), .proceed 1 (sampleInput ""), .delete 2 "key",
    .proceed 2 (sampleInput ""), .proceed 1 (sampleInput "session")]

def sampleLogin : Login Unit ℕ SampleResponse where
  request := sampleFinish
  challenge := ⟨"flow", .login, 5, "", "https://panel", "panel", 10 + webAuthnChallengeTTL⟩
  credential := sampleCredential 2 10
  oldSignCount := 1

theorem sampleStart_fresh : sampleStart.Fresh where
  calls := rfl
  challenges := rfl
  keyed := Table.keyed_empty.insert rfl

theorem sampleEvents_mints : Mints sampleLibrary sampleStart sampleEvents 12 1 sampleLogin "session" := by
  refine ⟨sampleInput "session", ⟨?_, rfl⟩, by decide, rfl⟩
  decide +kernel

theorem sampleEvents_chain : ∃ issued found verified compared,
    Chain sampleLibrary sampleStart sampleEvents 1 12 sampleLogin issued found verified compared := by
  have sound := ceremonies_sound sampleLibrary_sound sampleStart_fresh sampleEvents
  rcases sound.2.2.2.1 12 1 sampleLogin "session" sampleEvents_mints
    with ⟨issued, found, verified, compared, chain, -⟩
  exact ⟨issued, found, verified, compared, chain⟩

/-- The deletion has returned before the session is stored. -/
theorem sampleEvents_mints_after_deletion :
    sampleLibrary.Sound (fun data : ℕ => data) SampleResponse.challenge ∧ sampleStart.Fresh ∧
      Deletes sampleLibrary sampleStart sampleEvents 11 sampleLogin.credential.id ∧
        Mints sampleLibrary sampleStart sampleEvents 12 1 sampleLogin "session" := by
  refine ⟨sampleLibrary_sound, sampleStart_fresh, ?_, sampleEvents_mints⟩
  refine ⟨2, sampleInput "", ⟨?_, rfl⟩, ?_⟩
  · decide +kernel
  · decide +kernel

end Sample
end System
end TelemtPanel.HTTPAPI.WebAuthn
