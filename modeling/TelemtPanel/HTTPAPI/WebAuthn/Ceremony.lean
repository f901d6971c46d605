import TelemtPanel.Auth.SessionGuard

/-!
# Passkey ceremonies

A registration or a login spans several requests and several operations of the store, each of
which holds the lock of the store on its own.  Other requests go on between any two of them.
The WebAuthn library is a parameter, and the store is the part of the state file that the
ceremonies use.
-/

namespace TelemtPanel.HTTPAPI.WebAuthn

open TelemtPanel.Library TelemtPanel.Auth

inductive Kind where
  | register
  | login
deriving DecidableEq, Repr

/-- `wa.Credential`; identifiers are in the encoded form in which they are compared. -/
structure Credential (Key : Type) where
  id : String
  signCount : ℕ
  cloneWarning : Bool
  key : Key
deriving DecidableEq, Repr

structure WebAuthnCredential (Key : Type) where
  id : String
  name : String
  credentialData : Credential Key
  signCount : ℕ
  created : ℤ
  lastUsed : ℤ
deriving DecidableEq, Repr

/-- `data` is the session data of the library, and `credentialName` stands beside it in the
stored ceremony. -/
structure WebAuthnChallenge (Data : Type) where
  flowHash : String
  kind : Kind
  data : Data
  credentialName : String
  origin : String
  rpID : String
  expires : ℤ
deriving DecidableEq, Repr

/-- `store.Session` -/
structure Session where
  created : ℤ
  lastSeen : ℤ
  authMethod : String
deriving DecidableEq, Repr

structure WebAuthnUser (Handle Key : Type) where
  id : Handle
  credentials : List (Credential Key)
deriving DecidableEq, Repr

/-- The operations of the WebAuthn library, for an origin and a relying party id. -/
structure Library (Handle Key Data Response : Type) where
  finishRegistration (origin rpID : String) (user : WebAuthnUser Handle Key) (data : Data)
    (response : Response) : Option (Credential Key)
  finishPasskeyLogin (origin rpID : String)
    (discover : String → Handle → Option (WebAuthnUser Handle Key)) (data : Data)
    (response : Response) : Option (WebAuthnUser Handle Key × Credential Key)

/-- An authenticator that does not count reports zero. -/
def Grew (stored reported : ℕ) : Prop := stored < reported ∨ stored = 0 ∧ reported = 0

instance (stored reported : ℕ) : Decidable (Grew stored reported) :=
  inferInstanceAs (Decidable (_ ∨ _))

/-- The library accepts a response only for the challenge of the session and for a stored
credential of the discovered user, and it warns when the counter did not grow. -/
structure Library.Sound {Handle Key Data Response Challenge : Type}
    (library : Library Handle Key Data Response) (challengeOf : Data → Challenge)
    (answered : Response → Challenge) : Prop where
  registers : ∀ origin rpID user data response credential,
    library.finishRegistration origin rpID user data response = some credential →
      answered response = challengeOf data
  answers : ∀ origin rpID discover data response accepted,
    library.finishPasskeyLogin origin rpID discover data response = some accepted →
      answered response = challengeOf data
  stored : ∀ origin rpID discover data response user credential,
    library.finishPasskeyLogin origin rpID discover data response = some (user, credential) →
      ∃ rawID handle, discover rawID handle = some user ∧
        ∃ known ∈ user.credentials, known.id = credential.id ∧
          (credential.cloneWarning = false → Grew known.signCount credential.signCount)

variable {Handle Key Data Response : Type}

section Store

/-- The fields of the state file that the ceremonies use, and the challenges in memory. -/
structure Store (Handle Key Data : Type) where
  webauthnUserHandle : Option Handle
  webauthnCredentials : Table String (WebAuthnCredential Key)
  webauthnChallenges : Table String (WebAuthnChallenge Data)
  sessions : Table String Session

inductive StoreError where
  | credentialExists
  | credentialNotFound
  | credentialChanged
  | challenge
  | challengeLimit
  | other
deriving DecidableEq, Repr

def webAuthnCredentialIDMaxBytes : ℕ := 2048
def webAuthnChallengeLimit : ℕ := 64

namespace Store

variable (store : Store Handle Key Data)

/-- `writeStateLocked`: a write that failed before it was published is undone. -/
def writeState (next : Store Handle Key Data) : Outcome → Option StoreError × Store Handle Key Data
  | .ok => (none, next)
  | .failed => (some .other, store)
  | .published => (some .other, next)

/-- The size of the encoded credential is left to the outcome of the write. -/
def validateWebAuthnCredential (value : WebAuthnCredential Key) : Bool :=
  value.id ≠ "" ∧ value.name ≠ "" ∧ value.id.utf8ByteSize ≤ webAuthnCredentialIDMaxBytes ∧
    value.name.length ≤ 200

def validateWebAuthnChallenge (value : WebAuthnChallenge Data) : Bool :=
  value.flowHash ≠ "" ∧ value.origin ≠ "" ∧ value.rpID ≠ "" ∧
    value.origin.utf8ByteSize ≤ 2048 ∧ value.rpID.utf8ByteSize ≤ 255

def getOrCreateWebAuthnUserHandle (candidate : Handle) (outcome : Outcome) :
    Option Handle × Store Handle Key Data :=
  match store.webauthnUserHandle with
  | some handle => (some handle, store)
  | none =>
      match store.writeState { store with webauthnUserHandle := some candidate } outcome with
      | (none, next) => (some candidate, next)
      | (some _, next) => (none, next)

/-- Newest first. -/
def listWebAuthnCredentials : List (WebAuthnCredential Key) :=
  store.webauthnCredentials.rows.mergeSort fun a b => decide (b.created ≤ a.created)

def addWebAuthnCredential (credential : WebAuthnCredential Key) (outcome : Outcome) :
    Option StoreError × Store Handle Key Data :=
  if validateWebAuthnCredential credential = false then (some .other, store)
  else if store.webauthnUserHandle.isNone then (some .other, store)
  else if store.webauthnCredentials[credential.id]?.isSome then (some .credentialExists, store)
  else
    store.writeState
      { store with
        webauthnCredentials := store.webauthnCredentials.insert credential.id credential }
      outcome

def deleteWebAuthnCredential (id : String) (outcome : Outcome) :
    Option StoreError × Store Handle Key Data :=
  if store.webauthnCredentials[id]?.isNone then (some .credentialNotFound, store)
  else
    store.writeState { store with webauthnCredentials := store.webauthnCredentials.erase id }
      outcome

def updateWebAuthnCredential (credential : WebAuthnCredential Key) (oldSignCount : ℕ)
    (outcome : Outcome) : Option StoreError × Store Handle Key Data :=
  if validateWebAuthnCredential credential = false then (some .other, store)
  else
    match store.webauthnCredentials[credential.id]? with
    | none => (some .credentialNotFound, store)
    | some previous =>
        if previous.signCount ≠ oldSignCount then (some .credentialChanged, store)
        else
          store.writeState
            { store with
              webauthnCredentials := store.webauthnCredentials.insert credential.id credential }
            outcome

/-- Challenges that have not expired. -/
def liveChallenges (now : ℤ) : Table String (WebAuthnChallenge Data) :=
  store.webauthnChallenges.filter fun _ existing => decide (now < existing.expires)

/-- Challenges are not written to the state file. -/
def putWebAuthnChallenge (challenge : WebAuthnChallenge Data) (now : ℤ) :
    Option StoreError × Store Handle Key Data :=
  if validateWebAuthnChallenge challenge = false then (some .other, store)
  else
    let live := store.liveChallenges now
    if live[challenge.flowHash]?.isNone ∧ webAuthnChallengeLimit ≤ live.size then
      (some .challengeLimit, { store with webauthnChallenges := live })
    else
      (none, { store with webauthnChallenges := live.insert challenge.flowHash challenge })

/-- A challenge that is found is deleted, also when it is refused. -/
def consumeWebAuthnChallenge (flowHash : String) (kind : Kind) (now : ℤ) :
    Except StoreError (WebAuthnChallenge Data) × Store Handle Key Data :=
  match store.webauthnChallenges[flowHash]? with
  | none => (.error .challenge, store)
  | some challenge =>
      let rest := { store with webauthnChallenges := store.webauthnChallenges.erase flowHash }
      if challenge.kind ≠ kind ∨ challenge.expires ≤ now then (.error .challenge, rest)
      else (.ok challenge, rest)

def putSession (idHash : String) (session : Session) (outcome : Outcome) :
    Option StoreError × Store Handle Key Data :=
  store.writeState { store with sessions := store.sessions.insert idHash session } outcome

end Store
end Store

end TelemtPanel.HTTPAPI.WebAuthn
