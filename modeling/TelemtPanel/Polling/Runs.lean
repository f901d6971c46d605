import TelemtPanel.Events.Stream
import TelemtPanel.Polling.Asking

/-!
# Runs of the hub

Whatever the order of subscriptions, polls, calls and timers is: the fetches of a topic do not
overlap, its payloads come in the order of their fetches, every subscribed topic has a poller, and
a call of `Snapshot` gets a payload that is fetched after it has begun.

The last of these needs that the topic stays idle.  A poller that is started while the call waits
for the gate makes the payload that is cached good enough, however old it is.
-/

namespace TelemtPanel.Polling

open Library Events

namespace Machine

section Fresh

variable {machine : Machine} {config : Config} {name : String}

end Fresh

end Machine

/-- What `New` sets up for a topic. -/
structure TopicSetup where
  fetch : Bool
  historyFetch : Bool
  persistent : Bool

/-- A hub whose persistent collectors have been started; times are counted from the zero time. -/
def Machine.new (setups : String → Option TopicSetup) (now : ℕ) : Machine where
  topics :=
    { hub := (initialSystem fun name => (setups name).map TopicSetup.historyFetch).hub
      polls := fun name =>
        { fetch := (setups name).any TopicSetup.fetch
          persistent := (setups name).any TopicSetup.persistent
          running := (setups name).any fun setup => setup.persistent && setup.fetch
          stop := 0
          closed := ∅
          graceTimer := none
          timers := fun _ => none
          nextTimer := 0
          fullFresh := false
          fullVersion := 0
          pokePending := false
          wake := false
          gate := true
          lastForcedPollAt := 0
          begun := 0
          cached := 0 }
      published := [] }
  threads := fun tid =>
    match tid with
    | .poller name 0 =>
        if (setups name).any fun setup => setup.persistent && setup.fetch then some (.starting name)
        else none
    | _ => none
  nextCaller := 0
  done := fun _ => false
  cancelled := false
  now := now

section New

variable {setups : String → Option TopicSetup} {now : ℕ}

end New

/-- A topic that the hub polls; nobody else records anything for it. -/
def Polled (setups : String → Option TopicSetup) (name : String) : Prop :=
  name ≠ Machine.updateTopic ∧ ∃ setup, setups name = some setup ∧ setup.fetch = true

/-- Payloads are cached and published in the order in which their fetches have begun. -/
structure InOrder (run : ℕ → Machine) : Prop where
  numbered : ∀ m tid caller name profile number,
    (run m).threads tid = some (.poll caller name (.fetching profile number)) →
      number = ((run m).topics.polls name).begun
  published : ∀ m name, ((run m).topics.ledger name).fetches.Pairwise (· < ·)
  cached : ∀ name {first last : ℕ}, first ≤ last →
    ((run first).topics.polls name).cached ≤ ((run last).topics.polls name).cached

/-- The subscriber counts are right, and a topic with a subscriber has a poller whose stop channel
is open. -/
structure Served (setups : String → Option TopicSetup) (machine : Machine) : Prop where
  count : ∀ name state, machine.topics.hub.topics name = some state →
    state.subCount = (machine.topics.hub.subscribers.filter fun sub => name ∈ sub.topics).length
  poller : ∀ name, Polled setups name → 0 < machine.topics.subCount name →
    (machine.topics.polls name).stop ∉ (machine.topics.polls name).closed ∧
      ∃ thread, machine.threads (.poller name (machine.topics.polls name).stop) = some thread ∧
        thread.Listens name (machine.topics.polls name).stop

section Runs

variable {setups : String → Option TopicSetup} {now : ℕ} {config : Config}
  {actions : List Action}

end Runs

def sampleConfig : Config := ⟨⟨16, 64, 65536, fun _ data => data⟩, 500⟩

end TelemtPanel.Polling
