import TelemtPanel.Library.NumberedLog

/-!
# The event hub

The hub numbers its events, keeps the newest ones in a ring for replay, caches the
last snapshot of every topic and fans events out to buffered subscriber channels.

Polling only decides when a fetch succeeds or fails; both may happen at any time.
The comparison key of a topic's data is a parameter.
-/

namespace TelemtPanel.Events

open Library

abbrev Bytes : Type := List UInt8

/-- One published event; one with an error carries no data. -/
structure Event where
  seq : ℕ
  topic : String
  data : Bytes
  err : String
  ts : ℤ
  deriving DecidableEq

def sourceErrorCode : String := "telemt_unreachable"

structure Config where
  subscriberBuffer : ℕ
  replayRingSize : ℕ
  replayMaxBytes : ℕ
  diffKey : String → Bytes → Bytes

structure TopicState where
  historyFetch : Bool
  subCount : ℤ
  hasData : Bool
  fullPending : Bool
  lastData : Bytes
  lastKey : Bytes
  lastEvent : Event

structure Subscriber where
  id : ℕ
  topics : List String
  deriving DecidableEq

/-- A subscriber's channel; a closed one can still be drained. -/
structure Channel where
  buffer : List Event
  closed : Bool

structure Hub where
  seq : ℕ
  ring : List Event
  ringBytes : ℕ
  topics : String → Option TopicState
  nextSubID : ℕ
  subscribers : List Subscriber
  channels : ℕ → Channel

section Publish

variable (config : Config)

/-- Drops the oldest events while there are too many or too large ones. -/
def evict : List Event → ℕ → List Event × ℕ
  | [], bytes => ([], bytes)
  | ev :: rest, bytes =>
      if config.replayRingSize < rest.length + 1 ∨ config.replayMaxBytes < bytes then
        evict rest (bytes - ev.data.length)
      else (ev :: rest, bytes)

def appendRing (hub : Hub) (ev : Event) : Hub :=
  let kept := evict config (hub.ring ++ [ev]) (hub.ringBytes + ev.data.length)
  { hub with ring := kept.1, ringBytes := kept.2 }

/-- A topic that loses a subscriber. -/
def TopicState.leave (state : TopicState) : TopicState :=
  { state with
    subCount := state.subCount - 1
    fullPending := state.fullPending && !(state.subCount - 1 == 0 && state.historyFetch) }

def closeSubscriber (hub : Hub) (sub : Subscriber) : Hub :=
  { hub with
    channels := Function.update hub.channels sub.id { hub.channels sub.id with closed := true }
    subscribers := hub.subscribers.filter fun other => other.id ≠ sub.id
    topics := fun name =>
      if name ∈ sub.topics then (hub.topics name).map TopicState.leave else hub.topics name }

/-- Sends an event to one subscriber, who is closed if its buffer is full. -/
def deliver (ev : Event) (hub : Hub) (sub : Subscriber) : Hub :=
  if ev.topic ∈ sub.topics then
    if (hub.channels sub.id).buffer.length < config.subscriberBuffer then
      { hub with
        channels := Function.update hub.channels sub.id
          { hub.channels sub.id with buffer := (hub.channels sub.id).buffer ++ [ev] } }
    else closeSubscriber hub sub
  else hub

def broadcast (hub : Hub) (ev : Event) : Hub :=
  hub.subscribers.foldl (deliver config ev) hub

def setTopic (hub : Hub) (name : String) (state : TopicState) : Hub :=
  { hub with topics := Function.update hub.topics name (some state) }

/-- Numbers an event, keeps it in the ring and sends it out. -/
def emit (hub : Hub) (ev : Event) : Hub :=
  broadcast config (appendRing config { hub with seq := hub.seq + 1 } ev) ev

/-- A fetch succeeded.  Unchanged data only replaces the cached copy, unless a first
subscriber waits for a full projection.  The result lists the published events. -/
def recordFetchSuccess (hub : Hub) (name : String) (data : Bytes) (ts : ℤ) : Hub × List Event :=
  match hub.topics name with
  | none => (hub, [])
  | some state =>
      let key := config.diffKey name data
      let ev : Event :=
        { seq := hub.seq + 1, topic := name, data := data, err := "", ts := ts }
      if state.hasData && state.lastKey == key then
        if state.fullPending then
          (emit config
            (setTopic hub name
              { state with fullPending := false, lastData := data, lastEvent := ev }) ev, [ev])
        else
          (setTopic hub name
            { state with
              fullPending := false
              lastData := data
              lastEvent := { state.lastEvent with data := data, ts := ts } }, [])
      else
        (emit config
          (setTopic hub name
            { state with
              fullPending := false
              hasData := true
              lastData := data
              lastKey := key
              lastEvent := ev }) ev, [ev])

/-- A fetch failed: an error event, which no cache keeps. -/
def recordFetchError (hub : Hub) (name : String) (ts : ℤ) : Hub × List Event :=
  match hub.topics name with
  | none => (hub, [])
  | some _ =>
      let ev : Event :=
        { seq := hub.seq + 1, topic := name, data := [], err := sourceErrorCode, ts := ts }
      (emit config hub ev, [ev])

end Publish

section Subscribe

/-- A topic that gains a subscriber; the first one demands a full projection. -/
def TopicState.join (state : TopicState) : TopicState :=
  { state with
    subCount := state.subCount + 1
    fullPending := state.fullPending || (state.subCount == 0 && state.historyFetch) }

/-- One requested topic: joined once, with its cached event if it has data. -/
def joinTopic (progress : Hub × List String × List Event) (name : String) :
    Hub × List String × List Event :=
  if name ∈ progress.2.1 then progress
  else
    match progress.1.topics name with
    | none => progress
    | some state =>
        (setTopic progress.1 name state.join, progress.2.1 ++ [name],
          if state.hasData then progress.2.2 ++ [state.lastEvent] else progress.2.2)

/-- Registers a subscriber; the channel starts empty. -/
def subscribe (hub : Hub) (topics : List String) : Option (Hub × ℕ × List String × List Event) :=
  if topics = [] ∨ topics.any (fun name => (hub.topics name).isNone) then none
  else
    let joined := topics.foldl joinTopic (hub, [], [])
    some ({ joined.1 with
      nextSubID := hub.nextSubID + 1
      subscribers := hub.subscribers ++ [{ id := hub.nextSubID, topics := joined.2.1 }]
      channels := Function.update hub.channels hub.nextSubID { buffer := [], closed := false } },
      hub.nextSubID, joined.2.1, joined.2.2)

def unsubscribe (hub : Hub) (id : ℕ) : Hub :=
  match hub.subscribers.find? fun sub => sub.id == id with
  | none => hub
  | some sub => closeSubscriber hub sub

/-- The events of some topics with a larger number. -/
def eventsSince (events : List Event) (since : ℕ) (topics : List String) : List Event :=
  entriesSince Event.seq events since fun ev => decide (ev.topic ∈ topics)

/-- The retained events after a number, unless some have been dropped. -/
def replaySince (hub : Hub) (since : ℕ) (topics : List String) : Option (List Event) :=
  if hub.seq < since then none
  else
    match hub.ring with
    | [] => if since < hub.seq then none else some []
    | first :: rest =>
        if since + 1 < first.seq then none else some (eventsSince (first :: rest) since topics)

end Subscribe

section Frame

variable {config : Config} {hub : Hub} {ev : Event}

/-- What a topic has cached. -/
structure TopicCache where
  hasData : Bool
  lastData : Bytes
  lastKey : Bytes
  lastEvent : Event

def TopicState.cache (state : TopicState) : TopicCache where
  hasData := state.hasData
  lastData := state.lastData
  lastKey := state.lastKey
  lastEvent := state.lastEvent

def Hub.cache (hub : Hub) (name : String) : Option TopicCache :=
  (hub.topics name).map TopicState.cache

/-- The second hub differs only in its subscribers and their channels. -/
structure SameStore (hub other : Hub) : Prop where
  seq : other.seq = hub.seq
  ring : other.ring = hub.ring
  nextSubID : other.nextSubID = hub.nextSubID
  cache : ∀ name, other.cache name = hub.cache name

theorem SameStore.refl (hub : Hub) : SameStore hub hub := ⟨rfl, rfl, rfl, fun _ => rfl⟩

theorem SameStore.trans {first second third : Hub} (one : SameStore first second)
    (two : SameStore second third) : SameStore first third where
  seq := two.seq.trans one.seq
  ring := two.ring.trans one.ring
  nextSubID := two.nextSubID.trans one.nextSubID
  cache name := (two.cache name).trans (one.cache name)

theorem closeSubscriber_sameStore (hub : Hub) (sub : Subscriber) :
    SameStore hub (closeSubscriber hub sub) := by
  refine ⟨rfl, rfl, rfl, ?_⟩
  intro name
  simp only [Hub.cache, closeSubscriber]
  split
  · rw [Option.map_map]
    rfl
  · rfl

theorem deliver_sameStore (hub : Hub) (sub : Subscriber) :
    SameStore hub (deliver config ev hub sub) := by
  unfold deliver
  split
  · split
    · exact ⟨rfl, rfl, rfl, fun _ => rfl⟩
    · exact closeSubscriber_sameStore hub sub
  · exact .refl hub

theorem broadcast_sameStore : SameStore hub (broadcast config hub ev) := by
  have all : ∀ (subs : List Subscriber) (hub : Hub),
      SameStore hub (subs.foldl (deliver config ev) hub) := by
    intro subs
    induction subs with
    | nil => exact SameStore.refl
    | cons sub subs ih =>
        intro hub
        exact (deliver_sameStore hub sub).trans (ih _)
  exact all hub.subscribers hub

theorem unsubscribe_sameStore (id : ℕ) : SameStore hub (unsubscribe hub id) := by
  unfold unsubscribe
  split
  · exact .refl hub
  · exact closeSubscriber_sameStore hub _

theorem deliver_subscribers (hub : Hub) (sub : Subscriber) :
    (deliver config ev hub sub).subscribers.Sublist hub.subscribers := by
  unfold deliver
  split
  · split
    · exact List.Sublist.refl _
    · exact List.filter_sublist
  · exact List.Sublist.refl _

theorem broadcast_subscribers :
    (broadcast config hub ev).subscribers.Sublist hub.subscribers := by
  have all : ∀ (subs : List Subscriber) (hub : Hub),
      (subs.foldl (deliver config ev) hub).subscribers.Sublist hub.subscribers := by
    intro subs
    induction subs with
    | nil => exact fun hub => List.Sublist.refl _
    | cons sub subs ih =>
        intro hub
        exact (ih _).trans (deliver_subscribers hub sub)
  exact all hub.subscribers hub

theorem unsubscribe_subscribers (id : ℕ) :
    (unsubscribe hub id).subscribers.Sublist hub.subscribers := by
  unfold unsubscribe
  split
  · exact List.Sublist.refl _
  · exact List.filter_sublist

theorem evict_suffix (events : List Event) (bytes : ℕ) :
    (evict config events bytes).1 <:+ events := by
  induction events generalizing bytes with
  | nil => exact List.suffix_rfl
  | cons ev rest ih =>
      unfold evict
      split
      · exact (ih _).trans (List.suffix_cons ev rest)
      · exact List.suffix_rfl

@[simp]
theorem emit_seq : (emit config hub ev).seq = hub.seq + 1 :=
  broadcast_sameStore.seq

@[simp]
theorem emit_nextSubID : (emit config hub ev).nextSubID = hub.nextSubID :=
  broadcast_sameStore.nextSubID

@[simp]
theorem emit_cache (name : String) : (emit config hub ev).cache name = hub.cache name :=
  broadcast_sameStore.cache name

theorem emit_ring : (emit config hub ev).ring <:+ hub.ring ++ [ev] := by
  rw [emit, broadcast_sameStore.ring]
  exact evict_suffix _ _

theorem emit_subscribers : (emit config hub ev).subscribers.Sublist hub.subscribers :=
  broadcast_subscribers

end Frame

section Replay

variable {hub : Hub} {log : List Event}

/-- How many events the ring has dropped. -/
def Hub.evicted (hub : Hub) : ℕ := hub.seq - hub.ring.length

/-- The hub has published the events of the log, and its ring holds the last ones. -/
structure Published (log : List Event) (hub : Hub) : Prop where
  numbered : Numbered Event.seq log
  seq : hub.seq = log.length
  ring : hub.ring <:+ log

theorem Published.ring_eq (published : Published log hub) :
    hub.ring = log.drop hub.evicted := by
  rw [Hub.evicted, published.seq]
  exact List.suffix_iff_eq_drop.mp published.ring

theorem Published.evicted_le (published : Published log hub) : hub.evicted ≤ log.length := by
  rw [Hub.evicted, published.seq]
  exact Nat.sub_le _ _

/-- A replay is served exactly when nothing after the number has left the ring, and it is
everything after the number. -/
theorem Published.replaySince_eq (published : Published log hub) (since : ℕ)
    (topics : List String) :
    replaySince hub since topics =
      if hub.evicted ≤ since ∧ since ≤ hub.seq then some (eventsSince log since topics)
      else none := by
  have kept := published.ring_eq
  unfold replaySince
  by_cases stale : hub.seq < since
  · rw [if_pos stale, if_neg (by omega)]
  rw [if_neg stale]
  cases ring : hub.ring with
  | nil =>
      have all : hub.evicted = hub.seq := by simp [Hub.evicted, ring]
      by_cases behind : since < hub.seq
      · simp only [behind, if_true]
        rw [if_neg (by omega)]
      · have nothing : eventsSince log since topics = [] := by
          rw [eventsSince, published.numbered.entriesSince_eq, List.drop_of_length_le]
          · rfl
          · rw [← published.seq]
            omega
        simp only [behind, if_false, nothing]
        rw [if_pos (by omega)]
  | cons first rest =>
      rw [ring] at kept
      have oldest : first.seq = hub.evicted + 1 :=
        published.numbered.number_head_drop kept.symm
      by_cases lost : since + 1 < first.seq
      · simp only [lost, if_true]
        rw [if_neg (by omega)]
      · have covered : hub.evicted ≤ since := by omega
        simp only [lost, if_false]
        rw [if_pos ⟨covered, by omega⟩, kept, eventsSince,
          published.numbered.entriesSince_drop covered, eventsSince]

/-- A refused replay would have missed an event, or asks about the future. -/
theorem Published.replaySince_eq_none (published : Published log hub) (since : ℕ)
    (topics : List String) :
    replaySince hub since topics = none ↔
      hub.seq < since ∨ ∃ ev ∈ log, since < ev.seq ∧ ev ∉ hub.ring := by
  rw [published.replaySince_eq]
  constructor
  · intro refused
    by_cases stale : hub.seq < since
    · exact .inl stale
    right
    have lost : since < hub.evicted := by
      by_contra kept
      rw [if_pos ⟨by omega, by omega⟩] at refused
      cases refused
    have known : hub.evicted - 1 < log.length := by
      have bound := published.evicted_le
      omega
    have place : log.drop (hub.evicted - 1) = log[hub.evicted - 1] ::
        log.drop (hub.evicted - 1 + 1) := List.drop_eq_getElem_cons known
    have number := published.numbered.number_head_drop place
    refine ⟨log[hub.evicted - 1], List.getElem_mem known, by omega, ?_⟩
    intro member
    rw [published.ring_eq] at member
    have large := published.numbered.lt_of_mem_drop member
    omega
  · rintro (stale | ⟨ev, member, after, missing⟩)
    · rw [if_neg (by omega)]
    · have early : ev.seq ≤ hub.evicted := by
        by_contra late
        apply missing
        rw [published.ring_eq]
        exact published.numbered.mem_drop member (by omega)
      rw [if_neg (by omega)]

theorem Published.emit (published : Published log hub) {config : Config} {ev : Event}
    (next : ev.seq = hub.seq + 1) : Published (log ++ [ev]) (emit config hub ev) where
  numbered := published.numbered.append (by rw [next, published.seq])
  seq := by simp [published.seq]
  ring := by
    refine emit_ring.trans ?_
    rcases published.ring with ⟨dropped, same⟩
    exact ⟨dropped, by rw [← same, List.append_assoc]⟩

theorem Published.sameStore (published : Published log hub) {other : Hub}
    (same : SameStore hub other) : Published log other where
  numbered := published.numbered
  seq := same.seq.trans published.seq
  ring := by
    rw [same.ring]
    exact published.ring

end Replay

section Attached

/-- Every event of `sent` has gone into the channel; `taken` has been received from it.
Once the subscriber has been closed, later events are missing. -/
structure Attached (hub : Hub) (id : ℕ) (topics : List String) (taken sent : List Event) :
    Prop where
  topics : ∀ sub ∈ hub.subscribers, sub.id = id → sub.topics = topics
  complete : (∃ sub ∈ hub.subscribers, sub.id = id) → taken ++ (hub.channels id).buffer = sent
  start : taken ++ (hub.channels id).buffer <+: sent

variable {hub : Hub} {id : ℕ} {topics : List String} {taken sent : List Event}

theorem Attached.of_same {other : Hub} (attached : Attached hub id topics taken sent)
    (subscribers : ∀ sub : Subscriber, sub.id = id →
      (sub ∈ other.subscribers ↔ sub ∈ hub.subscribers))
    (channel : other.channels id = hub.channels id) : Attached other id topics taken sent where
  topics sub member same := attached.topics sub ((subscribers sub same).mp member) same
  complete registered := by
    rcases registered with ⟨sub, member, same⟩
    rw [channel]
    exact attached.complete ⟨sub, (subscribers sub same).mp member, same⟩
  start := by
    rw [channel]
    exact attached.start

/-- A subscriber who has been closed no longer cares about what is sent. -/
theorem Attached.of_closed (attached : Attached hub id topics taken sent) {other : Hub}
    (gone : ∀ sub ∈ other.subscribers, sub.id ≠ id)
    (channel : (other.channels id).buffer = (hub.channels id).buffer) (later : List Event) :
    Attached other id topics taken (sent ++ later) where
  topics sub member same := absurd same (gone sub member)
  complete registered := by
    rcases registered with ⟨sub, member, same⟩
    exact absurd same (gone sub member)
  start := by
    rw [channel]
    exact attached.start.trans (List.prefix_append _ _)

theorem closeSubscriber_attached (attached : Attached hub id topics taken sent)
    (sub : Subscriber) : Attached (closeSubscriber hub sub) id topics taken sent := by
  by_cases same : sub.id = id
  · rw [← List.append_nil sent]
    apply attached.of_closed
    · intro other member
      have different := (List.mem_filter.mp member).2
      rw [same] at different
      simpa using different
    · simp [closeSubscriber, same]
  · apply attached.of_same
    · intro other otherID
      simp only [closeSubscriber, List.mem_filter]
      have different : other.id ≠ sub.id := fun clash => same (clash.symm.trans otherID)
      simp [different]
    · simp [closeSubscriber, Function.update_of_ne (Ne.symm same)]

variable (config : Config) (ev : Event)

theorem deliver_other (sub : Subscriber) (different : sub.id ≠ id)
    (attached : Attached hub id topics taken sent) :
    Attached (deliver config ev hub sub) id topics taken sent := by
  unfold deliver
  split
  · split
    · apply attached.of_same
      · exact fun _ _ => Iff.rfl
      · simp [Function.update_of_ne (Ne.symm different)]
    · exact closeSubscriber_attached attached sub
  · exact attached

theorem deliver_other_mem (sub other : Subscriber) (different : sub.id ≠ other.id) :
    other ∈ (deliver config ev hub sub).subscribers ↔ other ∈ hub.subscribers := by
  unfold deliver
  split
  · split
    · exact Iff.rfl
    · simp [closeSubscriber, List.mem_filter, Ne.symm different]
  · exact Iff.rfl

theorem deliver_self (sub : Subscriber) (member : sub ∈ hub.subscribers) (same : sub.id = id)
    (attached : Attached hub id topics taken sent) :
    Attached (deliver config ev hub sub) id topics taken
      (sent ++ if ev.topic ∈ topics then [ev] else []) := by
  have wanted := attached.topics sub member same
  have all := attached.complete ⟨sub, member, same⟩
  unfold deliver
  rw [wanted]
  by_cases relevant : ev.topic ∈ topics
  · rw [if_pos relevant, if_pos relevant]
    split
    · refine ⟨attached.topics, ?_, ?_⟩
      · intro _
        simp [same, ← all]
      · simp [same, ← all]
    · apply attached.of_closed
      · intro other otherMember
        have different := (List.mem_filter.mp otherMember).2
        rw [same] at different
        simpa using different
      · simp [closeSubscriber, same]
  · rw [if_neg relevant, if_neg relevant, List.append_nil]
    exact attached

theorem foldl_deliver_other (subs : List Subscriber) (different : ∀ sub ∈ subs, sub.id ≠ id)
    (attached : Attached hub id topics taken sent) :
    Attached (subs.foldl (deliver config ev) hub) id topics taken sent ∧
      ∀ other : Subscriber, other.id = id →
        (other ∈ (subs.foldl (deliver config ev) hub).subscribers ↔
          other ∈ hub.subscribers) := by
  induction subs generalizing hub with
  | nil => exact ⟨attached, fun _ _ => Iff.rfl⟩
  | cons sub subs ih =>
      rcases List.forall_mem_cons.mp different with ⟨first, rest⟩
      rcases ih rest (deliver_other config ev sub first attached) with ⟨stays, members⟩
      refine ⟨stays, ?_⟩
      intro other same
      refine (members other same).trans (deliver_other_mem config ev sub other ?_)
      rwa [same]

/-- A broadcast reaches every registered subscriber of its topic once. -/
theorem broadcast_attached (unique : (hub.subscribers.map Subscriber.id).Nodup)
    (attached : Attached hub id topics taken sent) :
    Attached (broadcast config hub ev) id topics taken
      (sent ++ if ev.topic ∈ topics then [ev] else []) := by
  unfold broadcast
  by_cases registered : ∃ sub ∈ hub.subscribers, sub.id = id
  · rcases registered with ⟨sub, member, same⟩
    rcases List.append_of_mem member with ⟨before, after, split⟩
    rw [split, List.map_append, List.map_cons] at unique
    have others := List.nodup_append.mp unique
    have early : ∀ other ∈ before, other.id ≠ id := by
      intro other otherMember clash
      refine others.2.2 other.id (List.mem_map_of_mem otherMember) sub.id ?_ (clash.trans same.symm)
      exact List.mem_cons_self
    have late : ∀ other ∈ after, other.id ≠ id := by
      intro other otherMember clash
      apply (List.nodup_cons.mp others.2.1).1
      rw [same, ← clash]
      exact List.mem_map_of_mem otherMember
    rcases foldl_deliver_other config ev before early attached with ⟨reached, members⟩
    have delivered := deliver_self config ev sub ((members sub same).mpr member) same reached
    rw [split, List.foldl_append, List.foldl_cons]
    exact (foldl_deliver_other config ev after late delivered).1
  · have different : ∀ sub ∈ hub.subscribers, sub.id ≠ id := by
      intro sub member same
      exact registered ⟨sub, member, same⟩
    rcases foldl_deliver_other config ev hub.subscribers different attached with ⟨stays, members⟩
    apply stays.of_closed
    · intro sub member same
      exact registered ⟨sub, (members sub same).mp member, same⟩
    · rfl

theorem emit_attached (unique : (hub.subscribers.map Subscriber.id).Nodup)
    (attached : Attached hub id topics taken sent) :
    Attached (emit config hub ev) id topics taken
      (sent ++ if ev.topic ∈ topics then [ev] else []) := by
  have numbered : Attached (appendRing config { hub with seq := hub.seq + 1 } ev) id topics
      taken sent := attached.of_same (fun _ _ => Iff.rfl) rfl
  exact broadcast_attached config ev unique numbered

theorem unsubscribe_attached (other : ℕ) (attached : Attached hub id topics taken sent) :
    Attached (unsubscribe hub other) id topics taken sent := by
  unfold unsubscribe
  split
  · exact attached
  · exact closeSubscriber_attached attached _

end Attached

end TelemtPanel.Events
