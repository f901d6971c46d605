import TelemtPanel.Library.History
import TelemtPanel.Subpage.Index

/-!
# Subscription pages

A request looks its token up in the index and then checks it against the current secret and
the current nonce of the user it found.  Requests and refreshes run at the same time, and
links are rotated between any two of their steps.
-/

namespace TelemtPanel.Subpage

open TelemtPanel.Library

/-- Where a request goes on after `TriggerRefresh`. -/
inductive Continuation where
  | relookup
  | notFound
deriving DecidableEq, Repr

/-- What a request does next. -/
inductive Phase where
  | lookup
  | trigger (next : Continuation)
  | refresh (call : RefreshCall) (next : Continuation)
  | relookup
  | users (username : String)
  | verify (user : UserInfo) (secret : String)
  | page (user : UserInfo)
  | notFound

/-- A call of `Refresh` after a rotation, or a request for a page. -/
inductive Task where
  | refresh (call : RefreshCall)
  | request (token : String) (phase : Phase)

def Continuation.phase : Continuation → Phase
  | .relookup => .relookup
  | .notFound => .notFound

/-- Call of `Refresh` that a task makes. -/
def Task.call? : Task → Option RefreshCall
  | .refresh call => some call
  | .request _ (.refresh call _) => some call
  | _ => none

/-- The index, the users and nonces at their sources, the clock, and all tasks.  The last two
components record the completed refreshes and the claimed windows; no step reads them. -/
structure System where
  index : Index
  users : List UserInfo
  nonces : String → String
  now : ℤ
  tasks : ℕ → Option Task
  completed : List Completed
  claims : List ℤ

/-- Reads may fail, and time may pass between two readings of the clock. -/
inductive Event where
  | callRefresh (id : ℕ)
  | request (id : ℕ) (token : String)
  | advance (id : ℕ) (ok : Bool) (delay : ℕ)
  | setUsers (users : List UserInfo)
  | setNonce (username nonce : String)
  | wait (elapsed : ℕ)

namespace System

section Steps

variable (query : String → Option String) (deriveToken : String → String → String → String)

/-- Adds the token of a user whose nonce has been read. -/
def addToken (system : System) (tokens : Table String String) (user : UserInfo) (ok : Bool) :
    Table String String :=
  match extractSecret query user.links with
  | none => tokens
  | some secret =>
      if ok then
        tokens.insert (deriveToken user.username secret (system.nonces user.username)) user.username
      else tokens

/-- The next step of a call of `Refresh`. -/
def refresh (system : System) (call : RefreshCall) (ok : Bool) : System × RefreshCall :=
  match call with
  | .begin =>
      let gen := system.index.nextGen + 1
      ({ system with index := { system.index with nextGen := gen } }, .users gen)
  | .users gen => if ok then (system, .nonces gen system.users ∅) else (system, .done)
  | .nonces gen (user :: todo) tokens =>
      (system, .nonces gen todo (system.addToken query deriveToken tokens user ok))
  | .nonces gen [] tokens =>
      ({ system with
        index := system.index.install gen tokens system.now
        completed := ⟨gen, tokens⟩ :: system.completed }, .done)
  | .done => (system, .done)

/-- `TriggerRefresh` up to the call of `Refresh`. -/
def trigger (system : System) (next : Continuation) (delay : ℕ) : System × Phase :=
  let claimed := system.index.claimRefreshWindow system.now (system.now + delay)
  if claimed.1 then
    ({ system with
      index := claimed.2
      now := system.now + delay
      claims := (system.now + delay) :: system.claims }, .refresh .begin next)
  else ({ system with index := claimed.2 }, next.phase)

/-- The next step of `handleSubpage` for a token. -/
def serve (system : System) (token : String) (phase : Phase) (ok : Bool) (delay : ℕ) :
    System × Phase :=
  match phase with
  | .lookup =>
      match system.index.get token with
      | some username => (system, .users username)
      | none => (system, .trigger .relookup)
  | .trigger next => system.trigger next delay
  | .refresh .done next => (system, next.phase)
  | .refresh call next =>
      let (system, call) := system.refresh query deriveToken call ok
      (system, .refresh call next)
  | .relookup =>
      match system.index.get token with
      | some username => (system, .users username)
      | none => (system, .notFound)
  | .users username =>
      if ok then
        match findUser system.users username with
        | none => (system, .notFound)
        | some user =>
            match extractSecret query user.links with
            | none => (system, .trigger .notFound)
            | some secret => (system, .verify user secret)
      else (system, .notFound)
  | .verify user secret =>
      if ok then
        if deriveToken user.username secret (system.nonces user.username) = token then
          (system, .page user)
        else (system, .trigger .notFound)
      else (system, .notFound)
  | .page user => (system, .page user)
  | .notFound => (system, .notFound)

/-- The next step of a task. -/
def advance (system : System) (task : Task) (ok : Bool) (delay : ℕ) : System × Task :=
  match task with
  | .refresh call =>
      let (system, call) := system.refresh query deriveToken call ok
      (system, .refresh call)
  | .request token phase =>
      let (system, phase) := system.serve query deriveToken token phase ok delay
      (system, .request token phase)

def setTask (system : System) (id : ℕ) (task : Task) : System :=
  { system with tasks := Function.update system.tasks id (some task) }

def step (system : System) : Event → System
  | .callRefresh id =>
      match system.tasks id with
      | none => system.setTask id (.refresh .begin)
      | some _ => system
  | .request id token =>
      match system.tasks id with
      | none => system.setTask id (.request token .lookup)
      | some _ => system
  | .advance id ok delay =>
      match system.tasks id with
      | none => system
      | some task =>
          let next := system.advance query deriveToken task ok delay
          next.1.setTask id next.2
  | .setUsers users => { system with users := users }
  | .setNonce username nonce =>
      { system with nonces := Function.update system.nonces username nonce }
  | .wait elapsed => { system with now := system.now + elapsed }

end Steps

/-- A panel that has just started. -/
def initial (users : List UserInfo) (nonces : String → String) (now : ℤ) : System where
  index := .new
  users := users
  nonces := nonces
  now := now
  tasks := fun _ => none
  completed := []
  claims := []

end System

end TelemtPanel.Subpage
