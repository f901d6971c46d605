import TelemtPanel.Library.History
import TelemtPanel.Polling.Topics

/-!
# Pollers and callers

A topic is fetched by its poller, by `Snapshot` and by `Poke`, all of them through
`pollWithProfile`.  Each of these goroutines advances by one section under a lock, one operation
on a channel or one fetch at a time, and any number of them is under way.  A poller reads the stop
channel of its topic only when it begins to run.
-/

namespace TelemtPanel.Polling

open Library Events

inductive Profile where
  | full
  | history
deriving DecidableEq, Repr

/-- `pollGateRecheck` -/
inductive Recheck where
  | none
  | snapshot
  | hydration
deriving DecidableEq, Repr

/-- How a poll has ended: with a fetch, without one because there was no need for it any more
(and whether the topic had a poller then), with a failure, or because its context was done. -/
inductive Result where
  | fetched
  | skipped (active : Bool)
  | failed
  | cancelled
deriving DecidableEq, Repr

/-- Where a goroutine is in `pollWithProfile`: from `owned` on it has taken the token of the gate,
and `record` comes after a full fetch whose context was not done; no data stands for a failure. -/
inductive PollPhase where
  | gate (profile : Profile) (recheck : Recheck) (previousVersion : ℕ)
  | owned (profile : Profile) (recheck : Recheck) (previousVersion : ℕ)
  | fetching (profile : Profile) (number : ℕ)
  | record (number : ℕ) (data : Option Bytes)
  | release (result : Result)
deriving DecidableEq, Repr

/-- Payloads by topic, as `Snapshot` returns them. -/
abbrev Payloads := List (String × Option Bytes)

/-- For whom a goroutine polls.  A call of `Snapshot` has the topics left to it, the payloads it
has so far, and the version of the topic it read before. -/
inductive Caller where
  | poller (stop : ℕ)
  | poke
  | snapshot (version : ℕ) (todo : List String) (out : Payloads)
deriving DecidableEq, Repr

inductive Thread where
  | starting (name : String)
  | waiting (name : String) (stop : ℕ)
  | ticked (name : String) (stop : ℕ)
  | woken (name : String) (stop : ℕ)
  | poll (caller : Caller) (name : String) (phase : PollPhase)
  | look (todo : List String) (out : Payloads)
  | read (name : String) (version : ℕ) (result : Option Result) (todo : List String)
      (out : Payloads)
  | wakeUp (name : String)
  | finished (out : Payloads)
deriving DecidableEq, Repr

/-- The poller that is the `start`-th one of its topic, or a call of `Snapshot` or `Poke`. -/
inductive ThreadID where
  | poller (name : String) (start : ℕ)
  | caller (number : ℕ)
deriving DecidableEq, Repr

/-- What a fetch returns. -/
inductive Fetched where
  | payload (data : Bytes)
  | unencodable
  | error
deriving DecidableEq, Repr

/-- Which of the ready cases a `select` takes, what a fetch returns, and the clock. -/
inductive Choice where
  | stop
  | tick
  | wake
  | acquire
  | done
  | go (fetched : Fetched) (ts : ℤ)
deriving DecidableEq, Repr

structure Config where
  events : Events.Config
  pokeFloor : ℤ

section Advance

variable (config : Config) (topics : Topics) (now : ℤ) (contextDone : Bool)

/-- The client of the hub is there. -/
def periodicPollProfile (name : String) : Profile :=
  if topics.historyFetch name ∧ topics.subCount name = 0 ∧ topics.fullPending name = false then
    .history
  else .full

/-- What a goroutine does after `pollWithProfile`. -/
def returned (name : String) (result : Result) : Caller → Thread
  | .poller stop => .waiting name stop
  | .poke => .finished []
  | .snapshot version todo out => .read name version (some result) todo out

/-- The section of `runPoller` that a wake leads to. -/
def wakeSection (name : String) (stop : ℕ) : Topics × Thread :=
  let poll := topics.polls name
  let hydration := topics.fullPending name
  if !hydration && !poll.pokePending then (topics, .waiting name stop)
  else if !hydration && now - poll.lastForcedPollAt < config.pokeFloor then
    (topics.modify name fun poll => { poll with pokePending := false }, .waiting name stop)
  else
    (topics.modify name fun poll =>
        { poll with
          pokePending := false
          lastForcedPollAt := if hydration then poll.lastForcedPollAt else now },
      .poll (.poller stop) name
        (.gate .full (if hydration && !poll.pokePending then .hydration else .none)
          poll.fullVersion))

/-- A history-only poll becomes a full one when there is a subscriber or one is expected. -/
def chosenProfile (name : String) (profile : Profile) : Profile :=
  if profile = .history ∧ (0 < topics.subCount name ∨ topics.fullPending name = true) then .full
  else profile

/-- A history-only poll makes the cached payload stale before it begins. -/
def staled (name : String) (profile : Profile) : Topics :=
  if profile = .history then topics.modify name fun poll => { poll with fullFresh := false }
  else topics

/-- The section of `pollWithProfile` that owns the gate and comes before the fetch. -/
def ownedSection (caller : Caller) (name : String) (profile : Profile) (recheck : Recheck)
    (previousVersion : ℕ) : Topics × Thread :=
  let chosen := chosenProfile topics name profile
  let topics := staled topics name chosen
  let poll := topics.polls name
  if recheck = .hydration ∧ topics.fullPending name = false then
    (topics, .poll caller name (.release (.skipped poll.running)))
  else if recheck = .snapshot ∧ poll.fullFresh = true ∧ topics.hasData name = true ∧
      topics.fullPending name = false ∧
      (poll.running = true ∨ poll.fullVersion ≠ previousVersion) then
    (topics, .poll caller name (.release (.skipped poll.running)))
  else
    (topics.modify name fun poll => { poll with begun := poll.begun + 1 },
      .poll caller name (.fetching chosen (poll.begun + 1)))

/-- What comes of a fetch; the context of the caller is looked at when it has returned. -/
def fetchReturned (caller : Caller) (name : String) (profile : Profile) (number : ℕ)
    (fetched : Fetched) : Thread :=
  if contextDone then .poll caller name (.release .cancelled)
  else
    match profile, fetched with
    | .history, .error => .poll caller name (.release .failed)
    | .history, _ => .poll caller name (.release .fetched)
    | .full, .payload data => .poll caller name (.record number (some data))
    | .full, _ => .poll caller name (.record number none)

/-- `Snapshot` looks at the next topic. -/
def lookSection (name : String) (todo : List String) (out : Payloads) : Thread :=
  let poll := topics.polls name
  if poll.fetch = false ∨ (poll.running = true ∧ topics.hasData name = true ∧
      poll.fullFresh = true ∧ topics.fullPending name = false) then
    .read name poll.fullVersion none todo out
  else
    .poll (.snapshot poll.fullVersion todo out) name (.gate .full .snapshot poll.fullVersion)

/-- `Snapshot` reads the payload of a topic. -/
def readSection (name : String) (todo : List String) (out : Payloads) : Thread :=
  .look todo
    (out ++ [(name, if topics.hasData name then some (topics.lastData name) else none)])

/-- Next step of a goroutine.  A case that is not ready cannot be taken. -/
def advance (choice : Choice) : Thread → Topics × Thread
  | .starting name => (topics, .waiting name (topics.polls name).stop)
  | .waiting name stop =>
      match choice with
      | .tick => (topics, .ticked name stop)
      | .wake =>
          if (topics.polls name).wake then
            (topics.modify name fun poll => { poll with wake := false }, .woken name stop)
          else (topics, .waiting name stop)
      | .stop =>
          if stop ∈ (topics.polls name).closed then (topics, .finished [])
          else (topics, .waiting name stop)
      | _ => (topics, .waiting name stop)
  | .ticked name stop =>
      (topics,
        .poll (.poller stop) name (.gate (periodicPollProfile topics name) .none 0))
  | .woken name stop => wakeSection config topics now name stop
  | .poll caller name (.gate profile recheck previousVersion) =>
      match choice with
      | .acquire =>
          if (topics.polls name).gate then
            (topics.modify name fun poll => { poll with gate := false },
              .poll caller name (.owned profile recheck previousVersion))
          else (topics, .poll caller name (.gate profile recheck previousVersion))
      | .done =>
          if contextDone then (topics, returned name .cancelled caller)
          else (topics, .poll caller name (.gate profile recheck previousVersion))
      | _ => (topics, .poll caller name (.gate profile recheck previousVersion))
  | .poll caller name (.owned profile recheck previousVersion) =>
      ownedSection topics caller name profile recheck previousVersion
  | .poll caller name (.fetching profile number) =>
      match choice with
      | .go fetched _ => (topics, fetchReturned contextDone caller name profile number fetched)
      | _ => (topics, .poll caller name (.fetching profile number))
  | .poll caller name (.record number data) =>
      match choice with
      | .go _ ts =>
          match data with
          | some data =>
              (topics.recordFetchSuccess config.events name (some number) data ts,
                .poll caller name (.release .fetched))
          | none =>
              (topics.recordFetchError config.events name ts,
                .poll caller name (.release .failed))
      | _ => (topics, .poll caller name (.record number data))
  | .poll caller name (.release result) =>
      (topics.modify name fun poll => { poll with gate := true }, returned name result caller)
  | .look todo out =>
      match todo with
      | [] => (topics, .finished out)
      | name :: todo => (topics, lookSection topics name todo out)
  | .read name _ _ todo out => (topics, readSection topics name todo out)
  | .wakeUp name => (topics.modify name fun poll => { poll with wake := true }, .finished [])
  | .finished out => (topics, .finished out)

end Advance

/-- `done` tells which callers have cancelled their contexts, and `cancelled` whether `Close` has
cancelled the one of the hub. -/
structure Machine where
  topics : Topics
  threads : ThreadID → Option Thread
  nextCaller : ℕ
  done : ℕ → Bool
  cancelled : Bool
  now : ℤ

inductive Action where
  | subscribe (names : List String)
  | unsubscribe (id : ℕ)
  | receive (id : ℕ)
  | launch (name : String) (timer : ℕ)
  | stopIfIdle (name : String) (timer : ℕ)
  | poke (name : String)
  | snapshot (names : List String)
  | cancelCaller (number : ℕ)
  | publishUpdate (data : Bytes) (ts : ℤ)
  | cancel
  | close
  | wait (elapsed : ℕ)
  | proceed (tid : ThreadID) (choice : Choice)

namespace Machine

variable (machine : Machine)

def setThread (tid : ThreadID) (thread : Thread) : Machine :=
  { machine with threads := Function.update machine.threads tid (some thread) }

/-- A call that is made by a goroutine of its own. -/
def call (thread : Thread) : Machine :=
  { machine.setThread (.caller machine.nextCaller) thread with
    nextCaller := machine.nextCaller + 1 }

/-- The context of a goroutine is done. -/
def contextDone : ThreadID → Thread → Bool
  | .caller number, .poll (.snapshot _ _ _) _ _ => machine.done number
  | _, _ => machine.cancelled

/-- `Subscribe` starts the pollers that are not running. -/
def subscribe (names : List String) : Machine :=
  match machine.topics.subscribe names with
  | none => machine
  | some (topics, joined) =>
      { machine with
        topics := topics
        threads := fun tid =>
          match tid with
          | .poller name start =>
              if name ∈ joined ∧ (machine.topics.polls name).starts = true ∧
                  start = (machine.topics.polls name).stop + 1 then
                some (.starting name)
              else machine.threads (.poller name start)
          | .caller number => machine.threads (.caller number) }

def updateTopic : String := "update"

/-- A call of `Poke` up to its send or its poll. -/
def poke (name : String) : Machine :=
  match machine.topics.hub.topics name with
  | none => machine
  | some _ =>
      if (machine.topics.polls name).fetch = false then machine
      else if (machine.topics.polls name).running = false then
        machine.call (.poll .poke name (.gate .full .none 0))
      else
        { machine with
          topics := machine.topics.modify name fun poll => { poll with pokePending := true } }.call
          (.wakeUp name)

def snapshot (names : List String) : Machine :=
  if names.any (fun name => (machine.topics.hub.topics name).isNone) then machine
  else machine.call (.look names [])

def proceed (config : Config) (tid : ThreadID) (choice : Choice) : Machine :=
  match machine.threads tid with
  | none => machine
  | some thread =>
      let (topics, next) := advance config machine.topics machine.now
        (machine.contextDone tid thread) choice thread
      { machine with topics := topics }.setThread tid next

def step (config : Config) : Action → Machine
  | .subscribe names => machine.subscribe names
  | .unsubscribe id => { machine with topics := machine.topics.unsubscribe id }
  | .receive id => { machine with topics := machine.topics.receive id }
  | .launch name timer =>
      if (machine.topics.polls name).timers timer = some .armed then
        { machine with
          topics := machine.topics.modify name fun poll =>
            { poll with timers := Function.update poll.timers timer (some .launched) } }
      else machine
  | .stopIfIdle name timer =>
      if (machine.topics.polls name).timers timer = some .launched then
        { machine with
          topics := machine.topics.modify name fun poll =>
            { (poll.stopIfIdle (machine.topics.subCount name)) with
              timers := Function.update poll.timers timer none } }
      else machine
  | .poke name => machine.poke name
  | .snapshot names => machine.snapshot names
  | .cancelCaller number => { machine with done := Function.update machine.done number true }
  | .publishUpdate data ts =>
      { machine with
        topics := machine.topics.recordFetchSuccess config.events updateTopic none data ts }
  | .cancel => { machine with cancelled := true }
  | .close =>
      if machine.cancelled then { machine with topics := machine.topics.close } else machine
  | .wait elapsed => { machine with now := machine.now + elapsed }
  | .proceed tid choice => machine.proceed config tid choice

/-- State of a run at a moment. -/
def moment (config : Config) (actions : List Action) (m : ℕ) : Machine :=
  stateAt (fun machine => machine.step config) machine actions m

end Machine

end TelemtPanel.Polling
