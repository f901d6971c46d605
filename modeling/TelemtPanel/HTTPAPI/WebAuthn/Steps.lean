import TelemtPanel.HTTPAPI.WebAuthn.Handlers

/-!
# What a step of a ceremony does

Each step is read off once: what it does to the challenges, to a credential and to the sessions,
and in which ways a request that has obtained a challenge goes on.
-/

namespace TelemtPanel.HTTPAPI.WebAuthn

open TelemtPanel.Library TelemtPanel.Auth

variable {Handle Key Data Response : Type}

namespace Store

variable {store : Store Handle Key Data}

/-- A write takes effect or it does not. -/
theorem writeState_snd (next : Store Handle Key Data) (outcome : Outcome) :
    (store.writeState next outcome).2 = if outcome = .failed then store else next := by
  cases outcome <;> rfl

theorem getOrCreateWebAuthnUserHandle_snd (candidate : Handle) (outcome : Outcome) :
    ∃ handle, (store.getOrCreateWebAuthnUserHandle candidate outcome).2 =
      { store with webauthnUserHandle := handle } := by
  unfold getOrCreateWebAuthnUserHandle
  split
  · exact ⟨store.webauthnUserHandle, rfl⟩
  · cases outcome with
    | ok => exact ⟨some candidate, rfl⟩
    | failed => exact ⟨store.webauthnUserHandle, rfl⟩
    | published => exact ⟨some candidate, rfl⟩

theorem addWebAuthnCredential_snd (credential : WebAuthnCredential Key) (outcome : Outcome) :
    (store.addWebAuthnCredential credential outcome).2 = store ∨
      store.webauthnCredentials[credential.id]? = none ∧
        (store.addWebAuthnCredential credential outcome).2 =
          { store with
            webauthnCredentials :=
              store.webauthnCredentials.insert credential.id credential } := by
  unfold addWebAuthnCredential
  split
  · exact Or.inl rfl
  split
  · exact Or.inl rfl
  split
  · exact Or.inl rfl
  · rename_i absent
    rw [writeState_snd]
    split
    · exact Or.inl rfl
    · exact Or.inr ⟨by simpa using absent, rfl⟩

theorem deleteWebAuthnCredential_snd (id : String) (outcome : Outcome) :
    (store.deleteWebAuthnCredential id outcome).2 = store ∨
      (store.deleteWebAuthnCredential id outcome).2 =
        { store with webauthnCredentials := store.webauthnCredentials.erase id } := by
  unfold deleteWebAuthnCredential
  split
  · exact Or.inl rfl
  · rw [writeState_snd]
    split
    · exact Or.inl rfl
    · exact Or.inr rfl

/-- A counter is only set in place of the one it was compared with. -/
theorem updateWebAuthnCredential_snd (credential : WebAuthnCredential Key) (old : ℕ)
    (outcome : Outcome) :
    (store.updateWebAuthnCredential credential old outcome).2 = store ∨
      (∃ previous, store.webauthnCredentials[credential.id]? = some previous ∧
        previous.signCount = old) ∧
        (store.updateWebAuthnCredential credential old outcome).2 =
          { store with
            webauthnCredentials :=
              store.webauthnCredentials.insert credential.id credential } := by
  unfold updateWebAuthnCredential
  split
  · exact Or.inl rfl
  split
  · exact Or.inl rfl
  · rename_i previous listed
    split
    · exact Or.inl rfl
    · rename_i same
      rw [writeState_snd]
      split
      · exact Or.inl rfl
      · exact Or.inr ⟨⟨previous, listed, not_not.mp same⟩, rfl⟩

theorem updateWebAuthnCredential_ok {credential : WebAuthnCredential Key} {old : ℕ}
    {outcome : Outcome}
    (isOk : (store.updateWebAuthnCredential credential old outcome).1 = none) :
    (∃ previous, store.webauthnCredentials[credential.id]? = some previous ∧
      previous.signCount = old) ∧
      (store.updateWebAuthnCredential credential old outcome).2 =
        { store with
          webauthnCredentials := store.webauthnCredentials.insert credential.id credential } := by
  unfold updateWebAuthnCredential at isOk ⊢
  split at isOk
  · cases isOk
  rename_i valid
  rw [if_neg valid]
  split at isOk
  · cases isOk
  · rename_i previous listed
    split at isOk
    · cases isOk
    · rename_i same
      refine ⟨⟨previous, listed, not_not.mp same⟩, ?_⟩
      simp only [if_neg same]
      cases outcome with
      | ok => rfl
      | failed => cases isOk
      | published => cases isOk

theorem deleteWebAuthnCredential_ok {id : String} {outcome : Outcome}
    (isOk : (store.deleteWebAuthnCredential id outcome).1 = none) :
    (store.deleteWebAuthnCredential id outcome).2.webauthnCredentials[id]? = none := by
  unfold deleteWebAuthnCredential at isOk ⊢
  split at isOk
  · cases isOk
  · rename_i present
    rw [if_neg present]
    cases outcome with
    | ok => simp [writeState]
    | failed => cases isOk
    | published => cases isOk

theorem liveChallenges_le (now : ℤ) :
    (store.liveChallenges now).size ≤ store.webauthnChallenges.size :=
  Std.ExtTreeMap.size_filter_le_size

theorem lookup_liveChallenges {now : ℤ} {hash : String} {challenge : WebAuthnChallenge Data}
    (live : (store.liveChallenges now)[hash]? = some challenge) :
    store.webauthnChallenges[hash]? = some challenge := by
  rw [liveChallenges, Table.lookup_filter, Option.filter_eq_some_iff] at live
  exact live.1

theorem putWebAuthnChallenge_snd (challenge : WebAuthnChallenge Data) (now : ℤ) :
    ∃ challenges : Table String (WebAuthnChallenge Data),
      (store.putWebAuthnChallenge challenge now).2 =
        { store with webauthnChallenges := challenges } ∧
      (∀ hash held, challenges[hash]? = some held →
        store.webauthnChallenges[hash]? = some held ∨ hash = challenge.flowHash ∧ held = challenge) ∧
      (store.webauthnChallenges.size ≤ webAuthnChallengeLimit →
        challenges.size ≤ webAuthnChallengeLimit) := by
  unfold putWebAuthnChallenge
  split
  · exact ⟨store.webauthnChallenges, rfl, fun _ _ held => Or.inl held, id⟩
  simp only
  split
  · exact ⟨store.liveChallenges now, rfl, fun _ _ held => Or.inl (lookup_liveChallenges held),
      (liveChallenges_le now).trans⟩
  · rename_i room
    refine ⟨_, rfl, ?_, ?_⟩
    · intro hash held found
      rw [Table.lookup_insert] at found
      split at found
      · rename_i here
        cases found
        exact Or.inr ⟨here.symm, rfl⟩
      · exact Or.inl (lookup_liveChallenges found)
    · intro bounded
      rw [Std.ExtTreeMap.size_insert]
      split
      · exact (liveChallenges_le now).trans bounded
      · rename_i missing
        have absent : (store.liveChallenges now)[challenge.flowHash]?.isNone := by
          simpa using missing
        have free := not_le.mp fun full => room ⟨absent, full⟩
        omega

end Store

/-- The request and the challenge it has obtained. -/
def Call.obtained :
    Call Handle Key Data Response → Option (Finish Response × WebAuthnChallenge Data)
  | .createHandle (.finish request challenge) => some (request, challenge)
  | .list (.finish request challenge) _ => some (request, challenge)
  | .verify request challenge _ _ => some (request, challenge)
  | .update login => some (login.request, login.challenge)
  | .session login => some (login.request, login.challenge)
  | _ => none

/-- The time a request has read that is about to consume its challenge. -/
def Call.reading : Call Handle Key Data Response → Option ℤ
  | .consume _ reading => some reading
  | _ => none

/-- The login whose response has been accepted. -/
def Call.accepted : Call Handle Key Data Response → Option (Login Key Data Response)
  | .update login => some login
  | .session login => some login
  | _ => none

/-- A challenge is of the kind of the request, has not expired when the request read the clock,
and was issued for the origin and the relying party id of the request. -/
structure Matches (request : Finish Response) (reading : ℤ) (challenge : WebAuthnChallenge Data) :
    Prop where
  kind : challenge.kind = request.kind
  live : reading < challenge.expires
  address : request.address = some (challenge.origin, challenge.rpID)

/-- The library accepts the response of a login, and the credential it was given is the one
whose counter was listed. -/
structure Accepts [DecidableEq Handle] (library : Library Handle Key Data Response)
    (user : WebAuthnUser Handle Key) (records : List (WebAuthnCredential Key))
    (login : Login Key Data Response) : Prop where
  isLogin : login.request.kind = .login
  verified : ∃ validatedUser, library.finishPasskeyLogin login.challenge.origin
    login.challenge.rpID (discover user) login.challenge.data login.request.response =
      some (validatedUser, login.credential.credentialData)
  unwarned : login.credential.credentialData.cloneWarning = false
  counted : login.credential.signCount = login.credential.credentialData.signCount
  listed : ∃ previous ∈ records, previous.id = login.credential.id ∧
    previous.signCount = login.oldSignCount ∧ previous.id = login.credential.credentialData.id

/-- What a step of a request does to the store. -/
inductive Effect (store : Store Handle Key Data) (input : Input Handle Data)
    (call : Call Handle Key Data Response) : Store Handle Key Data → Prop
  | quiet : Effect store input call store
  | handle (handle : Option Handle) :
      Effect store input call { store with webauthnUserHandle := handle }
  | put (challenge : WebAuthnChallenge Data) (isPut : call = .put challenge)
      (challenges : Table String (WebAuthnChallenge Data))
      (origin : ∀ hash held, challenges[hash]? = some held →
        store.webauthnChallenges[hash]? = some held ∨ hash = challenge.flowHash ∧ held = challenge)
      (bounded : store.webauthnChallenges.size ≤ webAuthnChallengeLimit →
        challenges.size ≤ webAuthnChallengeLimit) :
      Effect store input call { store with webauthnChallenges := challenges }
  | consume (request : Finish Response) (reading : ℤ) (isConsume : call = .consume request reading) :
      Effect store input call
        { store with webauthnChallenges := store.webauthnChallenges.erase request.flowHash }
  | add (credential : WebAuthnCredential Key) (isAdd : call = .add credential)
      (absent : store.webauthnCredentials[credential.id]? = none) :
      Effect store input call
        { store with
          webauthnCredentials := store.webauthnCredentials.insert credential.id credential }
  | update (login : Login Key Data Response) (isUpdate : call = .update login)
      (compared : ∃ previous, store.webauthnCredentials[login.credential.id]? = some previous ∧
        previous.signCount = login.oldSignCount) :
      Effect store input call
        { store with
          webauthnCredentials :=
            store.webauthnCredentials.insert login.credential.id login.credential }
  | delete (id : String) (isDelete : call = .delete id) :
      Effect store input call
        { store with webauthnCredentials := store.webauthnCredentials.erase id }
  | session (login : Login Key Data Response) (isSession : call = .session login)
      (taken : input.outcome ≠ .failed) (now : ℤ) :
      Effect store input call
        { store with
          sessions := store.sessions.insert input.tokenHash
            { created := now, lastSeen := now, authMethod := "passkey" } }

/-- Ways in which a request goes on, where a request that has no challenge may do anything. -/
inductive Becomes [DecidableEq Handle] (library : Library Handle Key Data Response)
    (store later : Store Handle Key Data) :
    Call Handle Key Data Response → Call Handle Key Data Response → Prop
  | other {call next : Call Handle Key Data Response} (without : next.obtained = none)
      (arrived : next.reading = none) :
      Becomes library store later call next
  | obtain {request : Finish Response} {reading : ℤ} {challenge : WebAuthnChallenge Data}
      (found : store.webauthnChallenges[request.flowHash]? = some challenge)
      (fits : Matches request reading challenge) :
      Becomes library store later (.consume request reading)
        (.createHandle (.finish request challenge))
  | handled {request : Finish Response} {challenge : WebAuthnChallenge Data} {handle : Handle} :
      Becomes library store later (.createHandle (.finish request challenge))
        (.list (.finish request challenge) handle)
  | listed {request : Finish Response} {challenge : WebAuthnChallenge Data} {handle : Handle}
      (consistent : ∀ record ∈ store.listWebAuthnCredentials, record.consistent = true) :
      Becomes library store later (.list (.finish request challenge) handle)
        (.verify request challenge
          ⟨handle, store.listWebAuthnCredentials.map (·.credentialData)⟩
          store.listWebAuthnCredentials)
  | accept {user : WebAuthnUser Handle Key} {records : List (WebAuthnCredential Key)}
      {login : Login Key Data Response} (accepts : Accepts library user records login) :
      Becomes library store later (.verify login.request login.challenge user records)
        (.update login)
  | compare {login : Login Key Data Response}
      (compared : ∃ previous, store.webauthnCredentials[login.credential.id]? = some previous ∧
        previous.signCount = login.oldSignCount)
      (stored : later.webauthnCredentials[login.credential.id]? = some login.credential) :
      Becomes library store later (.update login) (.session login)

section Advance

variable [DecidableEq Handle] {library : Library Handle Key Data Response}
  {store : Store Handle Key Data} {now : ℤ} {input : Input Handle Data}
  {call : Call Handle Key Data Response}

omit [DecidableEq Handle] in
theorem consume_effect (request : Finish Response) (reading : ℤ) :
    Effect store input (Call.consume request reading : Call Handle Key Data Response)
      (store.consumeWebAuthnChallenge request.flowHash request.kind reading).2 := by
  unfold Store.consumeWebAuthnChallenge
  split
  · exact .quiet
  · simp only
    split
    · exact .consume request reading rfl
    · exact .consume request reading rfl

theorem advance_effect : Effect store input call (advance library store now input call).2 := by
  cases call with
  | createHandle task =>
      rcases @Store.getOrCreateWebAuthnUserHandle_snd _ _ _ store input.candidate input.outcome
        with ⟨handle, isNext⟩
      simp only [advance]
      split
      · rename_i result
        rw [result] at isNext
        rw [isNext]
        exact .handle handle
      · rename_i result
        rw [result] at isNext
        rw [isNext]
        exact .handle handle
  | list task handle => exact .quiet
  | beginLogin address => exact .quiet
  | issue kind name origin rpID =>
      simp only [advance]
      split
      · exact .quiet
      · exact .quiet
  | put challenge =>
      rcases @Store.putWebAuthnChallenge_snd _ _ _ store challenge now
        with ⟨challenges, isNext, origin, bounded⟩
      simp only [advance, isNext]
      exact .put challenge rfl challenges origin bounded
  | consume request reading =>
      have effect := @consume_effect _ _ _ _ store input request reading
      simp only [advance]
      split
      · rename_i result
        rw [result] at effect
        exact effect
      · rename_i result
        rw [result] at effect
        exact effect
  | verify request challenge user records =>
      simp only [advance]
      split
      · exact .quiet
      · exact .quiet
  | add credential =>
      simp only [advance]
      rcases @Store.addWebAuthnCredential_snd _ _ _ store credential input.outcome
        with same | ⟨absent, isNext⟩
      · rw [same]
        exact .quiet
      · rw [isNext]
        exact .add credential rfl absent
  | update login =>
      simp only [advance]
      rcases @Store.updateWebAuthnCredential_snd _ _ _ store login.credential login.oldSignCount
        input.outcome with same | ⟨compared, isNext⟩
      · rw [same]
        exact .quiet
      · rw [isNext]
        exact .update login rfl compared
  | session login =>
      simp only [advance, Store.putSession, Store.writeState_snd]
      split
      · exact .quiet
      · rename_i taken
        exact .session login rfl taken now
  | delete id =>
      simp only [advance]
      rcases @Store.deleteWebAuthnCredential_snd _ _ _ store id input.outcome with same | isNext
      · rw [same]
        exact .quiet
      · rw [isNext]
        exact .delete id rfl
  | answered answer => exact .quiet

end Advance

section Inversion

variable [DecidableEq Handle] {library : Library Handle Key Data Response}
  {store later : Store Handle Key Data} {now : ℤ} {input : Input Handle Data}
  {call next : Call Handle Key Data Response}

theorem loginVerified_becomes {request : Finish Response} {challenge : WebAuthnChallenge Data}
    {user : WebAuthnUser Handle Key} {records : List (WebAuthnCredential Key)}
    (isLogin : request.kind = .login) :
    Becomes library store later (.verify request challenge user records)
      (loginVerified library now request challenge user records) := by
  unfold loginVerified
  split
  · exact .other rfl rfl
  rename_i validatedUser credential verified
  split
  · exact .other rfl rfl
  split
  · exact .other rfl rfl
  rename_i unwarned
  split
  · exact .other rfl rfl
  rename_i previous found
  have same : previous.id = credential.id := by simpa using List.find?_some found
  have accepts : Accepts library user records
      { request := request
        challenge := challenge
        credential :=
          { previous with
            credentialData := credential
            signCount := credential.signCount
            lastUsed := now }
        oldSignCount := previous.signCount } :=
    { isLogin := isLogin
      verified := ⟨validatedUser, verified⟩
      unwarned := by simpa using unwarned
      counted := rfl
      listed := ⟨previous, List.mem_of_find?_eq_some found, rfl, rfl, same⟩ }
  exact .accept accepts

theorem consume_becomes {request : Finish Response} {reading : ℤ} :
    Becomes library store later (.consume request reading)
      (advance library store now input (.consume request reading)).1 := by
  simp only [advance, Store.consumeWebAuthnChallenge]
  split
  · exact .other rfl rfl
  rename_i challenge rest result
  split at result
  · cases result
  rename_i found
  split at result
  · cases result
  rename_i accepted
  cases result
  simp only [owned]
  split
  · exact .other rfl rfl
  rename_i origin rpID address
  split
  · exact .other rfl rfl
  rename_i same
  simp only [ne_eq, not_or, not_not, not_le] at accepted same
  refine .obtain found ⟨accepted.1, accepted.2, ?_⟩
  rw [address, same.1, same.2]

theorem advance_becomes :
    Becomes library store (advance library store now input call).2 call
      (advance library store now input call).1 := by
  cases call with
  | createHandle task =>
      simp only [advance]
      split
      · cases task with
        | beginRegister name origin rpID => exact .other rfl rfl
        | finish request challenge => exact .handled
      · exact .other rfl rfl
  | list task handle =>
      simp only [advance, listed]
      split
      · exact .other rfl rfl
      · rename_i consistent
        rw [Bool.not_eq_false, List.all_eq_true] at consistent
        cases task with
        | beginRegister name origin rpID => exact .other rfl rfl
        | finish request challenge => exact .listed consistent
  | beginLogin address =>
      simp only [advance, loginBegin]
      split
      · exact .other rfl rfl
      · split
        · exact .other rfl rfl
        · exact .other rfl rfl
  | issue kind name origin rpID =>
      simp only [advance]
      split
      · exact .other rfl rfl
      · exact .other rfl rfl
  | put challenge => exact .other rfl rfl
  | consume request reading => exact consume_becomes
  | verify request challenge user records =>
      simp only [advance]
      split
      · unfold registerVerified
        split
        · exact .other rfl rfl
        · exact .other rfl rfl
      · rename_i isLogin
        exact loginVerified_becomes isLogin
  | add credential => exact .other rfl rfl
  | update login =>
      simp only [advance, updated]
      split
      · rename_i isOk
        rcases Store.updateWebAuthnCredential_ok isOk with ⟨compared, stored⟩
        refine .compare compared ?_
        rw [stored]
        simp
      · exact .other rfl rfl
      · exact .other rfl rfl
      · exact .other rfl rfl
  | session login => exact .other rfl rfl
  | delete id => exact .other rfl rfl
  | answered answer => exact .other rfl rfl

/-- A challenge is obtained by consuming it. -/
theorem Becomes.obtained {request : Finish Response} {challenge : WebAuthnChallenge Data}
    (becomes : Becomes library store later call next)
    (obtains : next.obtained = some (request, challenge)) :
    call.obtained = some (request, challenge) ∨
      ∃ reading, call = .consume request reading ∧
        store.webauthnChallenges[request.flowHash]? = some challenge ∧
          Matches request reading challenge := by
  cases becomes with
  | other without arrived =>
      rw [without] at obtains
      cases obtains
  | obtain found fits =>
      cases obtains
      exact Or.inr ⟨_, rfl, found, fits⟩
  | handled => exact Or.inl obtains
  | listed consistent => exact Or.inl obtains
  | accept accepts => exact Or.inl obtains
  | compare compared stored => exact Or.inl obtains

omit [DecidableEq Handle] in
theorem Call.obtained_of_accepted {login : Login Key Data Response}
    (accepts : call.accepted = some login) :
    call.obtained = some (login.request, login.challenge) := by
  cases call with
  | update own =>
      cases accepts
      rfl
  | session own =>
      cases accepts
      rfl
  | _ => cases accepts

/-- A login is accepted by the library. -/
theorem Becomes.accepted {login : Login Key Data Response}
    (becomes : Becomes library store later call next) (accepts : next.accepted = some login) :
    call.accepted = some login ∨
      ∃ user records, call = .verify login.request login.challenge user records ∧
        Accepts library user records login := by
  cases becomes with
  | other without arrived =>
      rw [Call.obtained_of_accepted accepts] at without
      cases without
  | obtain found fits => cases accepts
  | handled => cases accepts
  | listed consistent => cases accepts
  | accept isAccepted =>
      cases accepts
      exact Or.inr ⟨_, _, rfl, isAccepted⟩
  | compare compared stored => exact Or.inl accepts

end Inversion
end TelemtPanel.HTTPAPI.WebAuthn
