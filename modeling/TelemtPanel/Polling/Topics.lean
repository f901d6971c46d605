import TelemtPanel.Events.Snapshots

/-!
# Topics and their pollers

What the hub keeps for polling a topic beside its cache: the lifecycle of the poller, the gate
that every fetch of the topic passes, and the flags that record for which reason a full fetch is
wanted.  Each operation here runs under the lock of the hub.
-/

namespace TelemtPanel.Polling

open Library Events

/-- State of a grace timer: its function may have been launched before the timer was stopped. -/
inductive Timer where
  | armed
  | launched
deriving DecidableEq, Repr

/-- `fetch` is false for a push-only topic, `stop` numbers the channel that the running poller
listens to, and `gate` tells whether the token is in the channel.  Fetches are numbered in the
order in which they begin, and `cached` is the number of the one whose payload is cached. -/
structure Poll where
  fetch : Bool
  persistent : Bool
  running : Bool
  stop : ℕ
  closed : Finset ℕ
  graceTimer : Option ℕ
  timers : ℕ → Option Timer
  nextTimer : ℕ
  fullFresh : Bool
  fullVersion : ℕ
  pokePending : Bool
  wake : Bool
  gate : Bool
  lastForcedPollAt : ℤ
  begun : ℕ
  cached : ℕ

namespace Poll

variable (poll : Poll)

/-- `graceTimer.Stop()` -/
def stopTimer : Poll :=
  match poll.graceTimer with
  | none => poll
  | some timer =>
      { poll with
        graceTimer := none
        timers := if poll.timers timer = some .armed then Function.update poll.timers timer none
          else poll.timers }

/-- A topic gains a subscriber. -/
def join (first historyFetch : Bool) : Poll :=
  let poll := poll.stopTimer
  let wasRunning := poll.running
  let poll := if !wasRunning && poll.fetch then { poll with running := true, stop := poll.stop + 1 }
    else poll
  if first && historyFetch then
    { poll with fullFresh := false, wake := poll.wake || wasRunning }
  else poll

/-- A subscription starts the poller. -/
def starts : Bool := !poll.running && poll.fetch

/-- The last subscriber of a topic leaves. -/
def leave (historyFetch : Bool) : Poll :=
  let poll := { poll with fullFresh := poll.fullFresh && !historyFetch }
  if poll.persistent || poll.graceTimer.isSome then poll
  else
    { poll with
      graceTimer := some poll.nextTimer
      timers := Function.update poll.timers poll.nextTimer (some .armed)
      nextTimer := poll.nextTimer + 1 }

/-- `stopIfIdle`, which the function of a timer calls. -/
def stopIfIdle (subCount : ℤ) : Poll :=
  if subCount ≠ 0 ∨ poll.persistent = true ∨ poll.running = false then poll
  else { poll with closed := insert poll.stop poll.closed, running := false, graceTimer := none }

/-- `Close`, for one topic. -/
def shut : Poll :=
  let poll := poll.stopTimer
  if poll.running then { poll with closed := insert poll.stop poll.closed, running := false }
  else poll

end Poll

/-- An event that has been published, with the number of the fetch it comes from. -/
structure Publication where
  event : Event
  fetch : Option ℕ

structure Topics where
  hub : Hub
  polls : String → Poll
  published : List Publication

namespace Topics

variable (topics : Topics)

def modify (name : String) (change : Poll → Poll) : Topics :=
  { topics with polls := Function.update topics.polls name (change (topics.polls name)) }

def subCount (name : String) : ℤ := ((topics.hub.topics name).map TopicState.subCount).getD 0
def hasData (name : String) : Bool := ((topics.hub.topics name).map TopicState.hasData).getD false
def fullPending (name : String) : Bool :=
  ((topics.hub.topics name).map TopicState.fullPending).getD false
def historyFetch (name : String) : Bool :=
  ((topics.hub.topics name).map TopicState.historyFetch).getD false
def lastData (name : String) : Bytes := ((topics.hub.topics name).map TopicState.lastData).getD []

/-- Topics after the hub has changed and every topic whose last subscriber was closed on the way
has been left. -/
def settle (polls : String → Poll) (hub : Hub) (published : List Publication) : Topics :=
  let later : Topics := { hub := hub, polls := polls, published := published }
  { later with
    polls := fun name =>
      if topics.subCount name ≠ 0 ∧ later.subCount name = 0 then
        (polls name).leave (topics.historyFetch name)
      else polls name }

/-- A subscription; the topics that it joins are listed by the hub. -/
def subscribe (names : List String) : Option (Topics × List String) :=
  (Events.subscribe topics.hub names).map fun (hub, _, joined, _) =>
    ({ topics with
        hub := hub
        polls := fun name =>
          if name ∈ joined then
            (topics.polls name).join (topics.subCount name == 0) (topics.historyFetch name)
          else topics.polls name },
      joined)

def unsubscribe (id : ℕ) : Topics :=
  topics.settle topics.polls (Events.unsubscribe topics.hub id) topics.published

/-- A subscriber takes an event out of its channel. -/
def receive (id : ℕ) : Topics :=
  { topics with
    hub :=
      { topics.hub with
        channels := Function.update topics.hub.channels id
          { topics.hub.channels id with buffer := (topics.hub.channels id).buffer.tail } } }

def recordFetchSuccess (config : Events.Config) (name : String) (fetch : Option ℕ) (data : Bytes)
    (ts : ℤ) : Topics :=
  let result := Events.recordFetchSuccess config topics.hub name data ts
  let recorded := (topics.modify name fun poll =>
    { poll with
      fullFresh := true
      fullVersion := poll.fullVersion + 1
      cached := fetch.getD poll.cached }).polls
  topics.settle recorded result.1 (topics.published ++ result.2.map fun event => ⟨event, fetch⟩)

def recordFetchError (config : Events.Config) (name : String) (ts : ℤ) : Topics :=
  let result := Events.recordFetchError config topics.hub name ts
  let recorded := (topics.modify name fun poll => { poll with fullFresh := false }).polls
  topics.settle recorded result.1 (topics.published ++ result.2.map fun event => ⟨event, none⟩)

/-- `Close` without its cancellation of the context. -/
def close : Topics :=
  { topics with
    hub :=
      { topics.hub with
        topics := fun name =>
          (topics.hub.topics name).map fun state => { state with subCount := 0 }
        subscribers := []
        channels := fun id =>
          if id ∈ topics.hub.subscribers.map Subscriber.id then
            { topics.hub.channels id with closed := true }
          else topics.hub.channels id }
    polls := fun name => (topics.polls name).shut }

end Topics

end TelemtPanel.Polling
