import TelemtPanel.HTTPAPI.WebAuthn.Ceremony

/-!
# The requests of a ceremony

A request advances by one operation of the store, or by one computation of its own, at a time.
What it has in its local variables stands in the call, and any number of requests is under way.
-/

namespace TelemtPanel.HTTPAPI.WebAuthn

open TelemtPanel.Library TelemtPanel.Auth

/-- Request that finishes a ceremony.  The address is what `webAuthnForRequest` makes of it: the
origin and the relying party id, or nothing when the host cannot be used. -/
structure Finish (Response : Type) where
  kind : Kind
  flowHash : String
  address : Option (String × String)
  response : Response
deriving DecidableEq, Repr

inductive Answer where
  | ok (status : ℕ)
  | error (status : ℕ) (code message : String)
deriving DecidableEq, Repr

/-- What `webAuthnAdminUser` is called for. -/
inductive Task (Data Response : Type) where
  | beginRegister (name origin rpID : String)
  | finish (request : Finish Response) (challenge : WebAuthnChallenge Data)
deriving DecidableEq, Repr

/-- A login whose response the library has accepted: the credential to store in place of the one
that was listed with the old counter. -/
structure Login (Key Data Response : Type) where
  request : Finish Response
  challenge : WebAuthnChallenge Data
  credential : WebAuthnCredential Key
  oldSignCount : ℕ
deriving DecidableEq, Repr

/-- What a request does next. -/
inductive Call (Handle Key Data Response : Type) where
  | createHandle (task : Task Data Response)
  | list (task : Task Data Response) (handle : Handle)
  | beginLogin (address : Option (String × String))
  | issue (kind : Kind) (name origin rpID : String)
  | put (challenge : WebAuthnChallenge Data)
  | consume (request : Finish Response) (now : ℤ)
  | verify (request : Finish Response) (challenge : WebAuthnChallenge Data)
      (user : WebAuthnUser Handle Key) (records : List (WebAuthnCredential Key))
  | add (credential : WebAuthnCredential Key)
  | update (login : Login Key Data Response)
  | session (login : Login Key Data Response)
  | delete (id : String)
  | answered (answer : Answer)
deriving DecidableEq, Repr

/-- What a step of a request depends on beside the state: the outcome of a write, the random
candidate for a handle, the session data of the library (`none` when it fails) and the hash of
a new token. -/
structure Input (Handle Data : Type) where
  outcome : Outcome
  candidate : Handle
  data : Option Data
  tokenHash : String
deriving DecidableEq, Repr

/-- Two minutes, in nanoseconds. -/
def webAuthnChallengeTTL : ℤ := 120000000000

def webAuthnNameMaxChars : ℕ := 80

def unauthorized : Answer := .error 401 "invalid_credentials" "passkey login failed"

def spent : Kind → Answer
  | .register => .error 400 "invalid_webauthn_challenge"
      "passkey registration expired or was already used"
  | .login => unauthorized

def invalidOrigin : Answer :=
  .error 400 "invalid_webauthn_origin" "the panel host cannot be used for passkeys"

def notStarted : Kind → Answer
  | .register => .error 500 "internal_error" "could not start passkey registration"
  | .login => .error 500 "internal_error" "could not start passkey login"

/-- A failure to load the user. -/
def userFailed {Data Response : Type} : Task Data Response → Answer
  | .beginRegister _ _ _ => notStarted .register
  | .finish request _ =>
      match request.kind with
      | .register => .error 500 "internal_error" "could not finish passkey registration"
      | .login => .error 500 "internal_error" "could not verify passkey"

variable {Handle Key Data Response : Type} [DecidableEq Handle]

/-- The indexed fields of a record agree with the credential. -/
def WebAuthnCredential.consistent (record : WebAuthnCredential Key) : Bool :=
  record.credentialData.id = record.id ∧ record.credentialData.signCount = record.signCount

/-- The handler that `FinishPasskeyLogin` calls. -/
def discover (user : WebAuthnUser Handle Key) (rawID : String) (userHandle : Handle) :
    Option (WebAuthnUser Handle Key) :=
  if userHandle ≠ user.id then none
  else if user.credentials.any (fun known => decide (known.id = rawID)) then some user
  else none

section Advance

variable (library : Library Handle Key Data Response) (store : Store Handle Key Data) (now : ℤ)

/-- The second half of `webAuthnAdminUser`. -/
def listed (task : Task Data Response) (handle : Handle) : Call Handle Key Data Response :=
  let records := store.listWebAuthnCredentials
  if records.all WebAuthnCredential.consistent = false then .answered (userFailed task)
  else
    match task with
    | .beginRegister name origin rpID => .issue .register name origin rpID
    | .finish request challenge =>
        .verify request challenge ⟨handle, records.map (·.credentialData)⟩ records

/-- `handleWebAuthnLoginBegin` up to `putWebAuthnChallenge` -/
def loginBegin (address : Option (String × String)) : Call Handle Key Data Response :=
  if store.listWebAuthnCredentials.isEmpty then
    .answered (.error 404 "passkey_unavailable" "no passkeys are registered")
  else
    match address with
    | none => .answered invalidOrigin
    | some (origin, rpID) => .issue .login "" origin rpID

/-- `consumeWebAuthnChallenge` after the operation of the store. -/
def owned (request : Finish Response) (challenge : WebAuthnChallenge Data) :
    Call Handle Key Data Response :=
  match request.address with
  | none => .answered (spent request.kind)
  | some (origin, rpID) =>
      if challenge.origin ≠ origin ∨ challenge.rpID ≠ rpID then .answered (spent request.kind)
      else .createHandle (.finish request challenge)

/-- `handleWebAuthnRegisterFinish` after the user has been loaded. -/
def registerVerified (request : Finish Response) (challenge : WebAuthnChallenge Data)
    (user : WebAuthnUser Handle Key) : Call Handle Key Data Response :=
  match library.finishRegistration challenge.origin challenge.rpID user challenge.data
      request.response with
  | none => .answered (.error 400 "invalid_webauthn_response"
      "the authenticator response could not be verified")
  | some credential =>
      .add
        { id := credential.id
          name := challenge.credentialName
          credentialData := credential
          signCount := credential.signCount
          created := now
          lastUsed := 0 }

/-- `handleWebAuthnLoginFinish` after the user has been loaded. -/
def loginVerified (request : Finish Response) (challenge : WebAuthnChallenge Data)
    (user : WebAuthnUser Handle Key) (records : List (WebAuthnCredential Key)) :
    Call Handle Key Data Response :=
  match library.finishPasskeyLogin challenge.origin challenge.rpID (discover user)
      challenge.data request.response with
  | none => .answered unauthorized
  | some (validatedUser, credential) =>
      if validatedUser.id ≠ user.id then .answered unauthorized
      else if credential.cloneWarning = true then
        .answered (.error 401 "invalid_credentials" "passkey signature counter is inconsistent")
      else
        match records.find? fun record => decide (record.id = credential.id) with
        | none => .answered unauthorized
        | some previous =>
            .update
              { request := request
                challenge := challenge
                credential :=
                  { previous with
                    credentialData := credential
                    signCount := credential.signCount
                    lastUsed := now }
                oldSignCount := previous.signCount }

def putAnswer (kind : Kind) : Option StoreError → Answer
  | none => .ok 200
  | some .challengeLimit => .error 429 "rate_limited" "too many active passkey requests"
  | some _ => notStarted kind

def addAnswer : Option StoreError → Answer
  | none => .ok 201
  | some .credentialExists =>
      .error 409 "webauthn_credential_exists" "this passkey is already registered"
  | some _ => .error 500 "internal_error" "could not save passkey"

def deleteAnswer : Option StoreError → Answer
  | none => .ok 204
  | some .credentialNotFound => .error 404 "not_found" "passkey not found"
  | some _ => .error 500 "internal_error" "could not delete passkey"

/-- What a login does after its counter has been compared and set. -/
def updated (login : Login Key Data Response) : Option StoreError → Call Handle Key Data Response
  | none => .session login
  | some .credentialChanged => .answered unauthorized
  | some .credentialNotFound => .answered unauthorized
  | some _ => .answered (.error 500 "internal_error" "could not update passkey")

def sessionAnswer : Option StoreError → Answer
  | none => .ok 204
  | some _ => .error 500 "internal_error" "could not create session"

/-- Next step of a request. -/
def advance (input : Input Handle Data) :
    Call Handle Key Data Response → Call Handle Key Data Response × Store Handle Key Data
  | .createHandle task =>
      match store.getOrCreateWebAuthnUserHandle input.candidate input.outcome with
      | (some handle, next) => (.list task handle, next)
      | (none, next) => (.answered (userFailed task), next)
  | .list task handle => (listed store task handle, store)
  | .beginLogin address => (loginBegin store address, store)
  | .issue kind name origin rpID =>
      match input.data with
      | none => (.answered (notStarted kind), store)
      | some data =>
          (.put
            { flowHash := input.tokenHash
              kind := kind
              data := data
              credentialName := name
              origin := origin
              rpID := rpID
              expires := now + webAuthnChallengeTTL },
            store)
  | .put challenge =>
      let (error, next) := store.putWebAuthnChallenge challenge now
      (.answered (putAnswer challenge.kind error), next)
  | .consume request reading =>
      match store.consumeWebAuthnChallenge request.flowHash request.kind reading with
      | (.error _, next) => (.answered (spent request.kind), next)
      | (.ok challenge, next) => (owned request challenge, next)
  | .verify request challenge user records =>
      match request.kind with
      | .register => (registerVerified library now request challenge user, store)
      | .login => (loginVerified library now request challenge user records, store)
  | .add credential =>
      let (error, next) := store.addWebAuthnCredential credential input.outcome
      (.answered (addAnswer error), next)
  | .update login =>
      let (error, next) :=
        store.updateWebAuthnCredential login.credential login.oldSignCount input.outcome
      (updated login error, next)
  | .session _ =>
      let (error, next) := store.putSession input.tokenHash
        { created := now, lastSeen := now, authMethod := "passkey" } input.outcome
      (.answered (sessionAnswer error), next)
  | .delete id =>
      let (error, next) := store.deleteWebAuthnCredential id input.outcome
      (.answered (deleteAnswer error), next)
  | .answered answer => (.answered answer, store)

end Advance

/-- `now` is the clock. -/
structure System (Handle Key Data Response : Type) where
  store : Store Handle Key Data
  now : ℤ
  calls : ℕ → Option (Call Handle Key Data Response)

/-- Requests are numbered, each under a number of its own.  Sessions are also stored by the
login with a password, and they are deleted. -/
inductive Event (Handle Data Response : Type) where
  | wait (elapsed : ℕ)
  | beginRegister (rid : ℕ) (name : String) (address : Option (String × String))
  | beginLogin (rid : ℕ) (address : Option (String × String))
  | finish (rid : ℕ) (request : Finish Response)
  | delete (rid : ℕ) (id : String)
  | passwordLogin (idHash : String) (outcome : Outcome)
  | dropSession (idHash : String)
  | proceed (rid : ℕ) (input : Input Handle Data)

namespace System

variable (system : System Handle Key Data Response)

/-- A request arrives. -/
def start (rid : ℕ) (call : Call Handle Key Data Response) : System Handle Key Data Response :=
  match system.calls rid with
  | none => { system with calls := Function.update system.calls rid (some call) }
  | some _ => system

/-- `handleWebAuthnRegisterBegin` up to `webAuthnAdminUser`; the name has been trimmed. -/
def registerBegin (name : String) (address : Option (String × String)) :
    Call Handle Key Data Response :=
  if name = "" ∨ webAuthnNameMaxChars < name.length then
    .answered (.error 400 "bad_request" "passkey name must contain 1 to 80 characters")
  else
    match address with
    | none => .answered invalidOrigin
    | some (origin, rpID) => .createHandle (.beginRegister name origin rpID)

variable (library : Library Handle Key Data Response)

/-- Request `rid` makes its next step. -/
def proceed (rid : ℕ) (input : Input Handle Data) : System Handle Key Data Response :=
  match system.calls rid with
  | none => system
  | some call =>
      let (next, store) := advance library system.store system.now input call
      { system with
        store := store
        calls := Function.update system.calls rid (some next) }

def step : Event Handle Data Response → System Handle Key Data Response
  | .wait elapsed => { system with now := system.now + elapsed }
  | .beginRegister rid name address => system.start rid (registerBegin name address)
  | .beginLogin rid address => system.start rid (.beginLogin address)
  | .finish rid request => system.start rid (.consume request system.now)
  | .delete rid id => system.start rid (.delete id)
  | .passwordLogin idHash outcome =>
      { system with
        store := (system.store.putSession idHash
          { created := system.now, lastSeen := system.now, authMethod := "password" } outcome).2 }
  | .dropSession idHash =>
      { system with
        store := { system.store with sessions := system.store.sessions.erase idHash } }
  | .proceed rid input => system.proceed library rid input

/-- State of a run at a moment. -/
def moment (events : List (Event Handle Data Response)) (m : ℕ) : System Handle Key Data Response :=
  stateAt (fun system => system.step library) system events m

end System
end TelemtPanel.HTTPAPI.WebAuthn
