import TelemtPanel.HTTPAPI.WebAuthn.Steps

/-!
# Moments of the ceremonies

What a request has in hand at a moment of a run it has obtained at an earlier one, and a stored
challenge was put there by the request that issued it.
-/

namespace TelemtPanel.HTTPAPI.WebAuthn

open TelemtPanel.Library TelemtPanel.Auth

variable {Handle Key Data Response : Type}

/-- Ways in which a step changes what is stored under the identifier of a credential. -/
inductive CredentialMove (call : Call Handle Key Data Response) (id : String) :
    Option (WebAuthnCredential Key) → Option (WebAuthnCredential Key) → Prop
  | kept {stored : Option (WebAuthnCredential Key)} : CredentialMove call id stored stored
  | added {credential : WebAuthnCredential Key} (isAdd : call = .add credential)
      (isID : credential.id = id) : CredentialMove call id none (some credential)
  | updated {login : Login Key Data Response} {previous : WebAuthnCredential Key}
      (isUpdate : call = .update login) (isID : login.credential.id = id)
      (compared : previous.signCount = login.oldSignCount) :
      CredentialMove call id (some previous) (some login.credential)
  | deleted {stored : Option (WebAuthnCredential Key)} (isDelete : call = .delete id) :
      CredentialMove call id stored none

theorem Effect.credentialMove {store later : Store Handle Key Data} {input : Input Handle Data}
    {call : Call Handle Key Data Response} (effect : Effect store input call later) (id : String) :
    CredentialMove call id store.webauthnCredentials[id]? later.webauthnCredentials[id]? := by
  cases effect with
  | quiet => exact .kept
  | handle handle => exact .kept
  | put challenge isPut challenges origin bounded => exact .kept
  | consume request reading isConsume => exact .kept
  | add credential isAdd absent =>
      simp only [Table.lookup_insert]
      split
      · rename_i isID
        rw [← isID, absent]
        exact .added isAdd rfl
      · exact .kept
  | update login isUpdate compared =>
      rcases compared with ⟨previous, listed, same⟩
      simp only [Table.lookup_insert]
      split
      · rename_i isID
        rw [← isID, listed]
        exact .updated isUpdate rfl same
      · exact .kept
  | delete other isDelete =>
      simp only [Table.lookup_erase]
      split
      · rename_i isID
        rw [← isID]
        exact .deleted isDelete
      · exact .kept
  | session login isSession taken now => exact .kept

/-- Only `put` stores a challenge. -/
theorem Effect.challenge_origin {store later : Store Handle Key Data} {input : Input Handle Data}
    {call : Call Handle Key Data Response} (effect : Effect store input call later) {hash : String}
    {challenge : WebAuthnChallenge Data}
    (held : later.webauthnChallenges[hash]? = some challenge) :
    store.webauthnChallenges[hash]? = some challenge ∨
      call = .put challenge ∧ challenge.flowHash = hash := by
  cases effect with
  | put own isPut challenges origin bounded =>
      rcases origin hash challenge held with before | ⟨isHash, same⟩
      · exact Or.inl before
      · subst same isHash
        exact Or.inr ⟨isPut, rfl⟩
  | consume request reading isConsume =>
      simp only [Table.lookup_erase] at held
      split at held
      · cases held
      · exact Or.inl held
  | _ => exact Or.inl held

theorem Effect.challenges_bounded {store later : Store Handle Key Data}
    {input : Input Handle Data} {call : Call Handle Key Data Response}
    (effect : Effect store input call later)
    (bounded : store.webauthnChallenges.size ≤ webAuthnChallengeLimit) :
    later.webauthnChallenges.size ≤ webAuthnChallengeLimit := by
  cases effect with
  | put own isPut challenges origin room => exact room bounded
  | consume request reading isConsume => exact Std.ExtTreeMap.size_erase_le.trans bounded
  | _ => exact bounded

variable [DecidableEq Handle] {library : Library Handle Key Data Response}

/-- First step of a request that arrives at a time. -/
inductive Arrives (now : ℤ) : Call Handle Key Data Response → Prop
  | register (name : String) (address : Option (String × String)) :
      Arrives now (System.registerBegin name address)
  | login (address : Option (String × String)) : Arrives now (.beginLogin address)
  | finish (request : Finish Response) : Arrives now (.consume request now)
  | delete (id : String) : Arrives now (.delete id)

omit [DecidableEq Handle] in
theorem Arrives.not_obtained {now : ℤ} {call : Call Handle Key Data Response}
    (arrives : Arrives now call) :
    call.obtained = none := by
  cases arrives with
  | register name address =>
      unfold System.registerBegin
      split
      · rfl
      · split
        · rfl
        · rfl
  | _ => rfl

omit [DecidableEq Handle] in
/-- A finishing request reads the clock when it arrives. -/
theorem Arrives.reading {now reading : ℤ} {call : Call Handle Key Data Response}
    (arrives : Arrives now call) (isReading : call.reading = some reading) : now = reading := by
  cases arrives with
  | register name address =>
      unfold System.registerBegin at isReading
      split at isReading
      · cases isReading
      · split at isReading <;> cases isReading
  | login address => cases isReading
  | finish request => exact Option.some_inj.mp isReading
  | delete id => cases isReading

namespace System

variable {system : System Handle Key Data Response} {event : Event Handle Data Response}

/-- A call is there before, arrives, or comes from a step of its request. -/
theorem calls_step {rid : ℕ} {next : Call Handle Key Data Response}
    (isNext : (system.step library event).calls rid = some next) :
    system.calls rid = some next ∨ system.calls rid = none ∧ Arrives system.now next ∨
      ∃ input call, event = .proceed rid input ∧ system.calls rid = some call ∧
        next = (advance library system.store system.now input call).1 := by
  have started : ∀ (other : ℕ) (call : Call Handle Key Data Response), Arrives system.now call →
      (system.start other call).calls rid = some next →
        system.calls rid = some next ∨ system.calls rid = none ∧ Arrives system.now next := by
    intro other call arrives found
    unfold start at found
    split at found
    · rename_i idle
      simp only [Function.update_apply] at found
      split at found
      · rename_i here
        cases found
        exact Or.inr ⟨by rw [here, idle], arrives⟩
      · exact Or.inl found
    · exact Or.inl found
  cases event with
  | wait elapsed => exact Or.inl isNext
  | beginRegister other name address =>
      exact (started other _ (.register name address) isNext).imp_right Or.inl
  | beginLogin other address => exact (started other _ (.login address) isNext).imp_right Or.inl
  | finish other request =>
      exact (started other _ (.finish request) isNext).imp_right Or.inl
  | delete other id => exact (started other _ (.delete id) isNext).imp_right Or.inl
  | passwordLogin idHash outcome => exact Or.inl isNext
  | dropSession idHash => exact Or.inl isNext
  | proceed other input =>
      simp only [step, proceed] at isNext
      split at isNext
      · exact Or.inl isNext
      · rename_i call before
        simp only [Function.update_apply] at isNext
        split at isNext
        · rename_i here
          subst here
          cases isNext
          exact Or.inr (Or.inr ⟨input, call, rfl, before, rfl⟩)
        · exact Or.inl isNext

theorem step_proceed {rid : ℕ} {input : Input Handle Data} {call : Call Handle Key Data Response}
    (before : system.calls rid = some call) :
    (system.step library (.proceed rid input)).store =
        (advance library system.store system.now input call).2 ∧
      (system.step library (.proceed rid input)).calls rid =
        some (advance library system.store system.now input call).1 := by
  simp only [step, proceed, before, Function.update_self, and_self]

/-- The store changes in a step of a request; its sessions also change otherwise. -/
theorem store_step :
    (∃ sessions, (system.step library event).store = { system.store with sessions := sessions }) ∨
      ∃ rid input call, event = .proceed rid input ∧ system.calls rid = some call ∧
        (system.step library event).store =
          (advance library system.store system.now input call).2 := by
  have started : ∀ (rid : ℕ) (call : Call Handle Key Data Response),
      (system.start rid call).store = system.store := by
    intro rid call
    unfold start
    split
    · rfl
    · rfl
  cases event with
  | wait elapsed => exact Or.inl ⟨system.store.sessions, rfl⟩
  | beginRegister rid name address => exact Or.inl ⟨system.store.sessions, started _ _⟩
  | beginLogin rid address => exact Or.inl ⟨system.store.sessions, started _ _⟩
  | finish rid request => exact Or.inl ⟨system.store.sessions, started _ _⟩
  | delete rid id => exact Or.inl ⟨system.store.sessions, started _ _⟩
  | passwordLogin idHash outcome =>
      refine Or.inl ⟨(system.store.putSession idHash
        ⟨system.now, system.now, "password"⟩ outcome).2.sessions, ?_⟩
      simp only [step, Store.putSession, Store.writeState_snd]
      split
      · rfl
      · rfl
  | dropSession idHash => exact Or.inl ⟨system.store.sessions.erase idHash, rfl⟩
  | proceed rid input =>
      cases before : system.calls rid with
      | none =>
          refine Or.inl ⟨system.store.sessions, ?_⟩
          simp only [step, proceed, before]
      | some call => exact Or.inr ⟨rid, input, call, rfl, before, (step_proceed before).1⟩

end System
end TelemtPanel.HTTPAPI.WebAuthn
