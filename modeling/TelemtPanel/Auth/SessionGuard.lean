import TelemtPanel.Library.History
import TelemtPanel.Library.Table

/-!
# Sessions and their streams

The store knows which sessions exist, the guard registers the streams of each session, and a
stream checks its session before every frame.  A call of the guard holds its lock through
several operations of the store.  Logins, streams and the clock do not take that lock, so
that they go on between the steps of a call.
-/

namespace TelemtPanel.Auth

open TelemtPanel.Library

/-- Result of a store operation: a write may also fail after it has taken effect. -/
inductive Outcome where
  | ok
  | failed
  | published
deriving DecidableEq, Repr

/-- What the writer of a stream does next: nothing, test its context after it has extended the
write deadline, ask the guard before a frame or for the periodic check, or write the frame. -/
inductive Phase where
  | idle
  | extended
  | tested
  | probing
  | checked
  | ended
deriving DecidableEq, Repr

/-- A stream registered by `Track`.  Frames and extensions of the write deadline are counted. -/
structure Stream where
  hash : String
  opened : Bool
  cancelled : Bool
  releasing : Bool
  removed : Bool
  phase : Phase
  frames : ℕ
  extensions : ℕ
deriving DecidableEq, Repr

def Stream.cancel (stream : Stream) : Stream := { stream with cancelled := true }

def Stream.goto (phase : Phase) (stream : Stream) : Stream := { stream with phase := phase }

/-- The writer of a stream goes on after a check that passed. -/
def Stream.passed (stream : Stream) : Stream :=
  if stream.phase = .tested then stream.goto .checked
  else if stream.phase = .probing then stream.goto .idle
  else stream

/-- Caller of `checkLocked`: the middleware, a stream, or `Track` before and after it has
registered the stream. -/
inductive Purpose where
  | request
  | stream (sid : ℕ)
  | track
  | retrack (sid : ℕ)
deriving DecidableEq, Repr

/-- Next store operation of the call that holds the lock. -/
inductive Call where
  | get (hash : String) (purpose : Purpose)
  | expire (hash : String) (purpose : Purpose)
  | revoke (hash : String)
  | revoked (hash : String)
  | others (keep : String)
  | scan (keep : String) (todo : List String)
deriving DecidableEq, Repr

/-- `sessions` are the times at which the stored sessions were last seen, and `registry` is the
field `streams` of the guard. -/
structure System where
  sessions : Table String ℤ
  closed : Bool
  registry : Table String (Finset ℕ)
  nextID : ℕ
  streams : ℕ → Option Stream
  call : Option Call
  now : ℤ
  ttl : ℤ

inductive Event where
  | login (hash : String) (outcome : Outcome)
  | touch (hash : String)
  | wait (elapsed : ℕ)
  | setTTL (ttl : ℤ)
  | check (hash : String)
  | track (hash : String) (alive : Bool)
  | revoke (hash : String)
  | revokeOthers (keep : String)
  | close
  | proceed (readOk : Bool) (outcome : Outcome) (order : List String)
  | disconnect (sid : ℕ)
  | header (sid : ℕ)
  | extend (sid : ℕ)
  | test (sid : ℕ)
  | probe (sid : ℕ)
  | checkStream (sid : ℕ)
  | frame (sid : ℕ)
  | release (sid : ℕ)
  | remove (sid : ℕ)

namespace System

/-- Streams registered under a hash. -/
def entries (system : System) (hash : String) : Finset ℕ := system.registry[hash]?.getD ∅

def modify (system : System) (sid : ℕ) (change : Stream → Stream) : System :=
  { system with streams := Function.update system.streams sid ((system.streams sid).map change) }

/-- Cancels the contexts of the given streams. -/
def cancelAll (system : System) (sids : Finset ℕ) : System :=
  { system with
    streams := fun sid =>
      if sid ∈ sids then (system.streams sid).map Stream.cancel else system.streams sid }

def cancelLocked (system : System) (hash : String) : System :=
  { system.cancelAll (system.entries hash) with registry := system.registry.erase hash }

/-- Registry without a stream, and without its hash when no stream is left. -/
def unregister (system : System) (hash : String) (sid : ℕ) : Table String (Finset ℕ) :=
  let rest := (system.entries hash).erase sid
  if rest = ∅ then system.registry.erase hash else system.registry.insert hash rest

def unlock (system : System) : System := { system with call := none }

def deleteSession (system : System) (hash : String) (outcome : Outcome) : System :=
  if outcome = .failed then system else { system with sessions := system.sessions.erase hash }

def deleteOtherSessions (system : System) (keep : String) (outcome : Outcome) : System :=
  if outcome = .failed then system
  else { system with sessions := system.sessions.filter fun hash _ => decide (hash = keep) }

/-- The registration in `Track`. -/
def register (system : System) (hash : String) : System :=
  { system with
    registry := system.registry.insert hash (insert system.nextID (system.entries hash))
    nextID := system.nextID + 1
    streams := Function.update system.streams system.nextID
      (some ⟨hash, false, false, false, false, .idle, 0, 0⟩)
    call := some (.get hash (.retrack system.nextID)) }

/-- What the caller of `checkLocked` does when it returns no error. -/
def pass (system : System) (hash : String) : Purpose → System
  | .request => system.unlock
  | .stream sid => (system.modify sid Stream.passed).unlock
  | .track => system.register hash
  | .retrack sid => (system.modify sid fun stream => { stream with opened := true }).unlock

/-- What the caller of `checkLocked` does when it returns an error. -/
def refuse (system : System) (hash : String) : Purpose → System
  | .request => system.unlock
  | .stream sid => (system.modify sid (Stream.goto .ended)).unlock
  | .track => system.unlock
  | .retrack sid => ((system.cancelAll {sid}).cancelLocked hash).unlock

/-- The next step of the call that holds the lock.  `order` is the order in which the map of
streams is enumerated. -/
def proceed (system : System) (readOk : Bool) (outcome : Outcome) (order : List String) :
    Call → System
  | .get hash purpose =>
      if system.closed = true ∨ readOk = false then system.refuse hash purpose
      else match system.sessions[hash]? with
        | none => (system.cancelLocked hash).refuse hash purpose
        | some lastSeen =>
            if system.now - lastSeen > system.ttl then
              { system with call := some (.expire hash purpose) }
            else system.pass hash purpose
  | .expire hash purpose =>
      ((system.deleteSession hash outcome).cancelLocked hash).refuse hash purpose
  | .revoke hash =>
      { system.deleteSession hash outcome with
        call := if outcome = .ok then some (.revoked hash) else none }
  | .revoked hash => (system.cancelLocked hash).unlock
  | .others keep =>
      { system.deleteOtherSessions keep outcome with
        call :=
          if outcome = .ok then
            some (.scan keep (if order.Perm system.registry.keys then order
              else system.registry.keys))
          else none }
  | .scan _ [] => system.unlock
  | .scan keep (hash :: todo) =>
      if hash = keep then { system with call := some (.scan keep todo) }
      else if readOk = false then system.unlock
      else match system.sessions[hash]? with
        | none => { system.cancelLocked hash with call := some (.scan keep todo) }
        | some _ => { system with call := some (.scan keep todo) }

/-- A call takes the lock when it is free. -/
def lock (system : System) (call : Call) : System :=
  match system.call with
  | none => { system with call := some call }
  | some _ => system

/-- A stream in a given phase moves on. -/
def advance (system : System) (sid : ℕ) (phase : Phase) (change : Stream → Stream) : System :=
  match system.streams sid with
  | none => system
  | some stream => if stream.phase = phase then system.modify sid change else system

def step (system : System) : Event → System
  | .login hash outcome =>
      if outcome = .failed then system
      else { system with sessions := system.sessions.insert hash system.now }
  | .touch hash =>
      match system.sessions[hash]? with
      | none => system
      | some _ => { system with sessions := system.sessions.insert hash system.now }
  | .wait elapsed => { system with now := system.now + elapsed }
  | .setTTL ttl => { system with ttl := ttl }
  | .check hash => system.lock (.get hash .request)
  | .track hash alive => if alive then system.lock (.get hash .track) else system
  | .revoke hash => system.lock (.revoke hash)
  | .revokeOthers keep => system.lock (.others keep)
  | .close =>
      match system.call with
      | none =>
          { system.cancelAll (system.registry.keys.toFinset.biUnion system.entries) with
            closed := true
            registry := ∅ }
      | some _ => system
  | .proceed readOk outcome order =>
      match system.call with
      | none => system
      | some call => system.proceed readOk outcome order call
  | .disconnect sid => system.modify sid Stream.cancel
  | .header sid =>
      system.advance sid .idle fun stream => { stream with extensions := stream.extensions + 1 }
  | .extend sid =>
      system.advance sid .idle fun stream =>
        { stream with phase := .extended, extensions := stream.extensions + 1 }
  | .test sid =>
      system.advance sid .extended fun stream =>
        stream.goto (if stream.cancelled then .ended else .tested)
  | .probe sid =>
      system.advance sid .idle fun stream =>
        stream.goto (if stream.cancelled then .ended else .probing)
  | .checkStream sid =>
      match system.streams sid with
      | none => system
      | some stream =>
          if stream.phase = .tested ∨ stream.phase = .probing then
            system.lock (.get stream.hash (.stream sid))
          else system
  | .frame sid =>
      system.advance sid .checked fun stream =>
        { stream with phase := .idle, frames := stream.frames + 1 }
  | .release sid =>
      match system.streams sid with
      | none => system
      | some stream =>
          if stream.opened then
            system.modify sid fun stream =>
              { stream with cancelled := true, releasing := true, phase := .ended }
          else system
  | .remove sid =>
      match system.call, system.streams sid with
      | none, some stream =>
          if stream.releasing then
            { system.modify sid (fun stream => { stream with removed := true }) with
              registry := system.unregister stream.hash sid }
          else system
      | _, _ => system

/-- A guard without streams. -/
def initial (sessions : Table String ℤ) (now ttl : ℤ) : System where
  sessions := sessions
  closed := false
  registry := ∅
  nextID := 0
  streams := fun _ => none
  call := none
  now := now
  ttl := ttl

end System

end TelemtPanel.Auth
