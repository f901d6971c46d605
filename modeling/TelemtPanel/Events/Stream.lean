import TelemtPanel.Events.Snapshots
import TelemtPanel.Library.Run

/-!
# Event streams

A connection subscribes, asks for a replay of what it missed, writes the replay or the
cached snapshots, and then drains its channel.  Pollers and connections take their
steps in any order.

A stream and the system carry ghosts that no step reads: the log of all events, the
hub's numbers at a stream's two calls, the frames it begins with and the events it
has drained.
-/

namespace TelemtPanel.Events

open Library

inductive Phase where
  | subscribed
  | writing
  | live
  | ended
  deriving DecidableEq

/-- A connection; the fields after `frames` are ghosts. -/
structure Stream where
  topics : List String
  lastEventID : Option ℕ
  snapshots : List Event
  replayed : Bool
  lastReplayedSeq : ℕ
  pending : List Event
  phase : Phase
  frames : List Event
  answered : Bool
  seqAtSubscribe : ℕ
  seqAtReplay : ℕ
  evictedAtReplay : ℕ
  initial : List Event
  taken : List Event

/-- The hub with its connections; `log` is a ghost. -/
structure System where
  hub : Hub
  streams : ℕ → Option Stream
  log : List Event

inductive Action where
  | fetchSuccess (topic : String) (data : Bytes) (ts : ℤ)
  | fetchError (topic : String) (ts : ℤ)
  | connect (topics : List String) (lastEventID : Option ℕ)
  | replay (id : ℕ)
  | write (id : ℕ)
  | receive (id : ℕ)
  | finish (id : ℕ)

def openStream (topics : List String) (lastEventID : Option ℕ) (snapshots : List Event)
    (seq : ℕ) : Stream where
  topics := topics
  lastEventID := lastEventID
  snapshots := snapshots
  replayed := false
  lastReplayedSeq := 0
  pending := []
  phase := .subscribed
  frames := []
  answered := false
  seqAtSubscribe := seq
  seqAtReplay := seq
  evictedAtReplay := 0
  initial := []
  taken := []

/-- Starts to write the initial frames. -/
def Stream.start (stream : Stream) (hub : Hub) (replayed : Bool) (initial : List Event) : Stream :=
  { stream with
    replayed := replayed
    pending := initial
    phase := .writing
    answered := true
    seqAtReplay := hub.seq
    evictedAtReplay := hub.evicted
    initial := initial }

/-- The choice between the replay and the snapshots. -/
def Stream.choose (stream : Stream) (hub : Hub) : Stream :=
  match stream.lastEventID.bind fun since => replaySince hub since stream.topics with
  | some events => stream.start hub true events
  | none => stream.start hub false stream.snapshots

/-- Writes the next initial frame; after the last one the live loop starts. -/
def Stream.writeNext (stream : Stream) : Stream :=
  match stream.pending with
  | [] => { stream with phase := .live }
  | ev :: rest =>
      { stream with
        pending := rest
        frames := stream.frames ++ [ev]
        lastReplayedSeq :=
          if stream.replayed then max stream.lastReplayedSeq ev.seq else stream.lastReplayedSeq }

/-- An event from the channel that has not been replayed. -/
def Stream.isNew (stream : Stream) (ev : Event) : Bool :=
  !(stream.replayed && decide (ev.seq ≤ stream.lastReplayedSeq))

def Stream.take (stream : Stream) (ev : Event) : Stream :=
  { stream with
    taken := stream.taken ++ [ev]
    frames := if stream.isNew ev then stream.frames ++ [ev] else stream.frames }

def System.setStream (system : System) (id : ℕ) (stream : Stream) : System :=
  { system with streams := Function.update system.streams id (some stream) }

/-- The end of a connection: the handler returns and cancels its subscription. -/
def System.endStream (system : System) (id : ℕ) (stream : Stream) : System :=
  { (system.setStream id { stream with phase := .ended }) with
    hub := unsubscribe system.hub id }

def System.receive (system : System) (id : ℕ) (stream : Stream) : System :=
  match (system.hub.channels id).buffer with
  | ev :: rest =>
      ({ system with
        hub := { system.hub with
          channels := Function.update system.hub.channels id
            { system.hub.channels id with buffer := rest } } } : System).setStream id
        (stream.take ev)
  | [] => if (system.hub.channels id).closed then system.endStream id stream else system

/-- A step of a connection that is in some phase. -/
def System.stepStream (system : System) (id : ℕ) (phase : Phase) (next : Stream → System) :
    System :=
  match system.streams id with
  | none => system
  | some stream => if stream.phase = phase then next stream else system

def System.publish (system : System) (result : Hub × List Event) : System :=
  { system with hub := result.1, log := system.log ++ result.2 }

def step (config : Config) (system : System) : Action → System
  | .fetchSuccess topic data ts =>
      system.publish (recordFetchSuccess config system.hub topic data ts)
  | .fetchError topic ts => system.publish (recordFetchError config system.hub topic ts)
  | .connect topics lastEventID =>
      match subscribe system.hub topics with
      | none => system
      | some (hub, id, wanted, snapshots) =>
          ({ system with hub := hub } : System).setStream id
            (openStream wanted lastEventID snapshots system.hub.seq)
  | .replay id => system.stepStream id .subscribed fun stream =>
      system.setStream id (stream.choose system.hub)
  | .write id => system.stepStream id .writing fun stream => system.setStream id stream.writeNext
  | .receive id => system.stepStream id .live fun stream => system.receive id stream
  | .finish id =>
      match system.streams id with
      | none => system
      | some stream => system.endStream id stream

/-- A hub that has just been started, with some topics. -/
def initialSystem (topics : String → Option Bool) : System where
  hub :=
    { seq := 0, ring := [], ringBytes := 0
      topics := fun name => (topics name).map fun historyFetch =>
        { historyFetch := historyFetch, subCount := 0, hasData := false, fullPending := false
          lastData := [], lastKey := []
          lastEvent := { seq := 0, topic := name, data := [], err := "", ts := 0 } }
      nextSubID := 0, subscribers := []
      channels := fun _ => { buffer := [], closed := true } }
  streams := fun _ => none
  log := []

section Progress

/-- The largest number among some events. -/
def maxSeq (events : List Event) : ℕ := events.foldl (fun top ev => max top ev.seq) 0

theorem maxSeq_append (events : List Event) (ev : Event) :
    maxSeq (events ++ [ev]) = max (maxSeq events) ev.seq := by
  simp [maxSeq, List.foldl_append]

theorem le_maxSeq {events : List Event} {ev : Event} (member : ev ∈ events) :
    ev.seq ≤ maxSeq events := by
  induction events using List.reverseRecOn with
  | nil => cases member
  | append_singleton events last ih =>
      rw [maxSeq_append]
      rcases List.mem_append.mp member with early | final
      · have bound := ih early
        omega
      · rw [List.mem_singleton.mp final]
        omega

theorem maxSeq_le {events : List Event} {bound : ℕ} (small : ∀ ev ∈ events, ev.seq ≤ bound) :
    maxSeq events ≤ bound := by
  induction events using List.reverseRecOn with
  | nil => exact Nat.zero_le bound
  | append_singleton events last ih =>
      have final := small last (by simp)
      have early := ih fun ev member => small ev (List.mem_append_left _ member)
      rw [maxSeq_append]
      omega

/-- The initial frames were chosen by whether the ring covered the client's last event. -/
def Stream.Chosen (log : List Event) (stream : Stream) : Prop :=
  if stream.replayed then
    ∃ since, stream.lastEventID = some since ∧ stream.evictedAtReplay ≤ since ∧
      since ≤ stream.seqAtReplay ∧ stream.seqAtSubscribe ≤ stream.seqAtReplay ∧
      stream.seqAtReplay ≤ log.length ∧
      stream.initial = eventsSince (log.take stream.seqAtReplay) since stream.topics
  else
    stream.initial = stream.snapshots ∧
      ∀ since, stream.lastEventID = some since →
        ¬(stream.evictedAtReplay ≤ since ∧ since ≤ stream.seqAtReplay)

/-- How far a connection has come. -/
structure Stream.Progress (log : List Event) (stream : Stream) : Prop where
  frames : ∃ written, stream.initial = written ++ stream.pending ∧
    stream.frames = written ++ stream.taken.filter stream.isNew ∧
    (stream.replayed = true → stream.lastReplayedSeq = maxSeq written)
  order : stream.taken = [] ∨ stream.pending = []
  early : stream.phase = .subscribed ∨ stream.phase = .writing → stream.taken = []
  live : stream.phase = .live → stream.pending = []
  waiting : stream.phase = .subscribed → stream.answered = false
  serving : stream.phase = .writing ∨ stream.phase = .live → stream.answered = true
  unserved : stream.answered = false →
    stream.initial = [] ∧ stream.taken = [] ∧ stream.lastReplayedSeq = 0
  chosen : stream.answered = true → stream.Chosen log

variable {log : List Event} {stream : Stream}

theorem Stream.Progress.append (progress : stream.Progress log) (later : List Event) :
    stream.Progress (log ++ later) where
  frames := progress.frames
  order := progress.order
  early := progress.early
  live := progress.live
  waiting := progress.waiting
  serving := progress.serving
  unserved := progress.unserved
  chosen answered := by
    have chosen := progress.chosen answered
    unfold Stream.Chosen at chosen ⊢
    split
    · rename_i replayed
      rw [if_pos replayed] at chosen
      rcases chosen with ⟨since, asked, kept, known, order, bound, initial⟩
      refine ⟨since, asked, kept, known, order, ?_, ?_⟩
      · rw [List.length_append]
        omega
      · rwa [List.take_append_of_le_length bound]
    · rename_i fresh
      rwa [if_neg fresh] at chosen

theorem openStream_progress (log : List Event) (topics : List String)
    (lastEventID : Option ℕ) (snapshots : List Event) (seq : ℕ) :
    (openStream topics lastEventID snapshots seq).Progress log where
  frames := ⟨[], rfl, rfl, fun _ => rfl⟩
  order := .inl rfl
  early _ := rfl
  live impossible := by cases impossible
  waiting _ := rfl
  serving impossible := by rcases impossible with impossible | impossible <;> cases impossible
  unserved _ := ⟨rfl, rfl, rfl⟩
  chosen impossible := by cases impossible

theorem Stream.Progress.frames_of_unserved (progress : stream.Progress log)
    (unanswered : stream.answered = false) : stream.frames = [] := by
  rcases progress.unserved unanswered with ⟨initial, taken, -⟩
  rcases progress.frames with ⟨written, parts, frames, -⟩
  rw [initial] at parts
  rw [frames, (List.append_eq_nil_iff.mp parts.symm).1, taken]
  rfl

theorem Stream.Progress.start (progress : stream.Progress log) {hub : Hub} {replayed : Bool}
    {initial : List Event} (phase : stream.phase = .subscribed)
    (chosen : (stream.start hub replayed initial).Chosen log) :
    (stream.start hub replayed initial).Progress log := by
  have unanswered := progress.waiting phase
  rcases progress.unserved unanswered with ⟨-, fresh, watermark⟩
  exact {
    frames := ⟨[], rfl, by simp [Stream.start, progress.frames_of_unserved unanswered, fresh],
      fun _ => watermark⟩
    order := .inl fresh
    early := fun _ => fresh
    live := fun impossible => by cases impossible
    waiting := fun impossible => by cases impossible
    serving := fun _ => rfl
    unserved := fun impossible => by cases impossible
    chosen := fun _ => chosen }

theorem Stream.Progress.choose {hub : Hub} (progress : stream.Progress log)
    (published : Published log hub) (phase : stream.phase = .subscribed)
    (past : stream.seqAtSubscribe ≤ log.length) : (stream.choose hub).Progress log := by
  unfold Stream.choose
  cases asked : stream.lastEventID with
  | none =>
      apply progress.start phase
      refine ⟨rfl, ?_⟩
      intro since same
      cases asked.symm.trans same
  | some since =>
      have answer := published.replaySince_eq since stream.topics
      simp only [Option.bind_some, answer]
      by_cases covered : hub.evicted ≤ since ∧ since ≤ hub.seq
      · rw [if_pos covered]
        apply progress.start phase
        refine ⟨since, asked, covered.1, covered.2, ?_, published.seq.le, ?_⟩
        · exact past.trans published.seq.ge
        · simp [Stream.start, published.seq]
      · rw [if_neg covered]
        apply progress.start phase
        refine ⟨rfl, ?_⟩
        intro other same
        cases asked.symm.trans same
        exact covered

theorem Stream.Progress.writeNext (progress : stream.Progress log)
    (phase : stream.phase = .writing) : stream.writeNext.Progress log := by
  have fresh := progress.early (.inr phase)
  have answered := progress.serving (.inl phase)
  rcases progress.frames with ⟨written, parts, frames, watermark⟩
  unfold Stream.writeNext
  split
  · rename_i pending
    exact {
      frames := ⟨written, parts, frames, watermark⟩
      order := .inl fresh
      early := fun _ => fresh
      live := fun _ => pending
      waiting := fun impossible => by cases impossible
      serving := fun _ => answered
      unserved := fun impossible => by cases answered.symm.trans impossible
      chosen := progress.chosen }
  · rename_i ev rest pending
    refine ⟨⟨written ++ [ev], ?_, ?_, ?_⟩, .inl fresh, fun _ => fresh, ?_, ?_, ?_, ?_,
      progress.chosen⟩
    · simpa [pending] using parts
    · simp [frames, fresh]
    · intro replayed
      have known : stream.replayed = true := replayed
      rw [maxSeq_append, ← watermark known]
      simp [known]
    · intro impossible
      cases phase.symm.trans impossible
    · intro impossible
      cases phase.symm.trans impossible
    · exact fun _ => answered
    · intro impossible
      cases answered.symm.trans impossible

theorem Stream.Progress.take (progress : stream.Progress log) (phase : stream.phase = .live)
    (ev : Event) : (stream.take ev).Progress log := by
  have answered := progress.serving (.inr phase)
  rcases progress.frames with ⟨written, parts, frames, watermark⟩
  refine ⟨⟨written, parts, ?_, watermark⟩, .inr (progress.live phase), ?_, progress.live, ?_,
    fun _ => answered, ?_, progress.chosen⟩
  · have sameTest : (stream.take ev).isNew = stream.isNew := rfl
    rw [sameTest]
    simp only [Stream.take, List.filter_append, frames]
    by_cases new : stream.isNew ev
    · simp [new]
    · simp [new]
  · rintro (impossible | impossible)
    · cases phase.symm.trans impossible
    · cases phase.symm.trans impossible
  · intro impossible
    cases phase.symm.trans impossible
  · intro impossible
    cases answered.symm.trans impossible

theorem Stream.Progress.finish (progress : stream.Progress log) :
    ({ stream with phase := .ended } : Stream).Progress log where
  frames := progress.frames
  order := progress.order
  early impossible := by rcases impossible with impossible | impossible <;> cases impossible
  live impossible := by cases impossible
  waiting impossible := by cases impossible
  serving impossible := by rcases impossible with impossible | impossible <;> cases impossible
  unserved := progress.unserved
  chosen := progress.chosen

end Progress

end TelemtPanel.Events
