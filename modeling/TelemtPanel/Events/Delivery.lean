import TelemtPanel.Events.Stream

/-!
# No gap and no duplicate

The frames of a connection are a prefix of one list.  If the ring still covers the last
event that the client has seen, the list holds all later events of the topics.
Otherwise it holds the latest data of each topic at the subscription and the events
after it.
-/

namespace TelemtPanel.Events

open Library

variable {config : Config}

/-- A connection's channel, snapshots and frames agree with the log. -/
structure StreamSound (config : Config) (log : List Event) (hub : Hub) (id : ℕ)
    (stream : Stream) : Prop where
  attached : Attached hub id stream.topics stream.taken
    (eventsSince log stream.seqAtSubscribe stream.topics)
  past : stream.seqAtSubscribe ≤ log.length
  snapshots : SnapshotsOf config (log.take stream.seqAtSubscribe) stream.topics stream.snapshots
  progress : stream.Progress log

/-- What holds of the hub, its channels and the connections in every state. -/
structure Wired (config : Config) (system : System) : Prop where
  published : Published system.log system.hub
  unique : (system.hub.subscribers.map Subscriber.id).Nodup
  subscribers : ∀ sub ∈ system.hub.subscribers, sub.id < system.hub.nextSubID
  unused : ∀ id, system.hub.nextSubID ≤ id → system.streams id = none
  streams : ∀ id stream, system.streams id = some stream →
    StreamSound config system.log system.hub id stream

structure Sound (config : Config) (system : System) : Prop extends Wired config system where
  cached : AllCached config system.log system.hub

theorem sound_initialSystem (config : Config) (topics : String → Option Bool) :
    Sound config (initialSystem topics) where
  published := ⟨numbered_nil, rfl, List.suffix_rfl⟩
  cached := by
    intro name cache stored
    simp only [initialSystem, Hub.cache, Option.map_map, Option.map_eq_some_iff] at stored
    rcases stored with ⟨historyFetch, -, rfl⟩
    exact ⟨fun _ => rfl, Bool.noConfusion⟩
  unique := List.nodup_nil
  subscribers := fun _ member => by cases member
  unused := fun _ _ => rfl
  streams := fun _ _ impossible => by cases impossible

section Publish

variable {log : List Event} {hub : Hub} {ev : Event}

theorem eventsSince_append_one (next : ev.seq = log.length + 1) {since : ℕ} (past : since ≤ log.length)
    (topics : List String) :
    eventsSince (log ++ [ev]) since topics =
      eventsSince log since topics ++ if ev.topic ∈ topics then [ev] else [] := by
  have later : since < ev.seq := by omega
  rw [eventsSince, entriesSince_append]
  congr 1
  by_cases wanted : ev.topic ∈ topics
  · simp [entriesSince, later, wanted]
  · simp [entriesSince, wanted]

theorem StreamSound.emit {id : ℕ} {stream : Stream}
    (sound : StreamSound config log hub id stream) (published : Published log hub)
    (unique : (hub.subscribers.map Subscriber.id).Nodup) (next : ev.seq = hub.seq + 1) :
    StreamSound config (log ++ [ev]) (emit config hub ev) id stream where
  attached := by
    rw [published.seq] at next
    rw [eventsSince_append_one next sound.past]
    exact emit_attached config ev unique sound.attached
  past := by
    rw [List.length_append]
    exact Nat.le_add_right_of_le sound.past
  snapshots := by
    rw [List.take_append_of_le_length sound.past]
    exact sound.snapshots
  progress := sound.progress.append [ev]

/-- The hub's topics play no part in what its channels carry. -/
theorem StreamSound.setTopic {id : ℕ} {stream : Stream}
    (sound : StreamSound config log hub id stream) (name : String) (state : TopicState) :
    StreamSound config log (setTopic hub name state) id stream where
  attached := sound.attached.of_same (fun _ _ => Iff.rfl) rfl
  past := sound.past
  snapshots := sound.snapshots
  progress := sound.progress

theorem Wired.emit {system : System} (wired : Wired config system)
    (next : ev.seq = system.hub.seq + 1) :
    Wired config (system.publish (Events.emit config system.hub ev, [ev])) where
  published := wired.published.emit next
  unique := wired.unique.sublist (emit_subscribers.map _)
  subscribers sub member := by
    have before := wired.subscribers sub (emit_subscribers.subset member)
    exact before.trans_eq emit_nextSubID.symm
  unused id large := by
    apply wired.unused id
    exact emit_nextSubID.symm.le.trans large
  streams id stream found :=
    (wired.streams id stream found).emit wired.published wired.unique next

theorem Wired.setTopic {system : System} (wired : Wired config system) (name : String)
    (state : TopicState) :
    Wired config { system with hub := Events.setTopic system.hub name state } where
  published := ⟨wired.published.numbered, wired.published.seq, wired.published.ring⟩
  unique := wired.unique
  subscribers := wired.subscribers
  unused := wired.unused
  streams id stream found := (wired.streams id stream found).setTopic name state

theorem Sound.fetchSuccess {system : System} (sound : Sound config system) (name : String)
    (data : Bytes) (ts : ℤ) :
    Sound config (system.publish (recordFetchSuccess config system.hub name data ts)) := by
  rcases recordFetchSuccess_cases config system.hub name data ts with
    nothing | ⟨ev, state, next, -, noError, cache, result⟩ |
      ⟨old, new, known, hasData, sameKey, cache, result⟩
  · rw [nothing, System.publish, List.append_nil]
    exact sound
  · rw [result]
    have sent := (sound.toWired.setTopic ev.topic state).emit next
    refine ⟨sent, ?_⟩
    exact (sound.cached.append_data noError cache).of_same fun name => emit_cache name
  · rw [result, System.publish, List.append_nil]
    exact ⟨sound.toWired.setTopic name new, sound.cached.renew known hasData sameKey cache⟩

theorem Sound.fetchError {system : System} (sound : Sound config system) (name : String)
    (ts : ℤ) : Sound config (system.publish (recordFetchError config system.hub name ts)) := by
  rcases recordFetchError_cases config system.hub name ts with
    nothing | ⟨ev, next, -, failed, result⟩
  · rw [nothing, System.publish, List.append_nil]
    exact sound
  · rw [result]
    refine ⟨sound.toWired.emit next, ?_⟩
    exact (sound.cached.append_error failed).of_same fun name => emit_cache name

end Publish

section Connection

variable {system : System}

/-- A step of one connection that leaves the hub alone. -/
theorem Sound.setStream (sound : Sound config system) {id : ℕ} {stream : Stream}
    (used : id < system.hub.nextSubID)
    (streamSound : StreamSound config system.log system.hub id stream) :
    Sound config (system.setStream id stream) where
  published := sound.published
  cached := sound.cached
  unique := sound.unique
  subscribers := sound.subscribers
  unused other large := by
    have different : other ≠ id := by
      have := used.trans_le large
      omega
    simp only [System.setStream, Function.update_of_ne different]
    exact sound.unused other large
  streams other found same := by
    by_cases chosen : other = id
    · subst chosen
      simp only [System.setStream, Function.update_self, Option.some_inj] at same
      subst same
      exact streamSound
    · simp only [System.setStream, Function.update_of_ne chosen] at same
      exact sound.streams other found same

theorem Sound.used (sound : Sound config system) {id : ℕ} {stream : Stream}
    (found : system.streams id = some stream) : id < system.hub.nextSubID := by
  by_contra large
  rw [sound.unused id (Nat.le_of_not_lt large)] at found
  cases found

theorem Sound.unsubscribe (sound : Sound config system) (id : ℕ) :
    Sound config { system with hub := Events.unsubscribe system.hub id } where
  published := sound.published.sameStore (unsubscribe_sameStore id)
  cached := sound.cached.of_same (unsubscribe_sameStore id).cache
  unique := sound.unique.sublist ((unsubscribe_subscribers id).map _)
  subscribers sub member := by
    have before := sound.subscribers sub ((unsubscribe_subscribers id).subset member)
    exact before.trans_eq (unsubscribe_sameStore id).nextSubID.symm
  unused other large := by
    apply sound.unused other
    exact (unsubscribe_sameStore id).nextSubID.symm.le.trans large
  streams other stream found := by
    have before := sound.streams other stream found
    exact ⟨unsubscribe_attached id before.attached, before.past, before.snapshots,
      before.progress⟩

theorem Sound.endStream (sound : Sound config system) {id : ℕ} {stream : Stream}
    (found : system.streams id = some stream) : Sound config (system.endStream id stream) := by
  have before := sound.streams id stream found
  have ended : StreamSound config system.log system.hub id { stream with phase := .ended } :=
    ⟨before.attached, before.past, before.snapshots, before.progress.finish⟩
  exact (sound.setStream (sound.used found) ended).unsubscribe id

/-- The steps before the live loop change neither the subscription nor the channel. -/
structure SameSource (stream next : Stream) : Prop where
  topics : next.topics = stream.topics
  snapshots : next.snapshots = stream.snapshots
  seqAtSubscribe : next.seqAtSubscribe = stream.seqAtSubscribe
  taken : next.taken = stream.taken

theorem choose_sameSource (stream : Stream) (hub : Hub) :
    SameSource stream (stream.choose hub) := by
  unfold Stream.choose
  split <;> exact ⟨rfl, rfl, rfl, rfl⟩

theorem writeNext_sameSource (stream : Stream) : SameSource stream stream.writeNext := by
  unfold Stream.writeNext
  split <;> exact ⟨rfl, rfl, rfl, rfl⟩

theorem Sound.advance (sound : Sound config system) {id : ℕ} {stream next : Stream}
    (found : system.streams id = some stream) (same : SameSource stream next)
    (progress : next.Progress system.log) : Sound config (system.setStream id next) := by
  have before := sound.streams id stream found
  apply sound.setStream (sound.used found)
  refine ⟨?_, ?_, ?_, progress⟩
  · rw [same.topics, same.taken, same.seqAtSubscribe]
    exact before.attached
  · rw [same.seqAtSubscribe]
    exact before.past
  · rw [same.topics, same.seqAtSubscribe, same.snapshots]
    exact before.snapshots

theorem Attached.receive {hub : Hub} {id : ℕ} {topics : List String} {taken sent : List Event}
    (attached : Attached hub id topics taken sent) {ev : Event} {rest : List Event}
    (buffer : (hub.channels id).buffer = ev :: rest) :
    Attached { hub with
      channels := Function.update hub.channels id { hub.channels id with buffer := rest } }
      id topics (taken ++ [ev]) sent where
  topics := attached.topics
  complete registered := by
    have all := attached.complete registered
    rw [buffer] at all
    simpa using all
  start := by
    have all := attached.start
    rw [buffer] at all
    simpa using all

theorem Sound.receive (sound : Sound config system) {id : ℕ} {stream : Stream}
    (found : system.streams id = some stream) (phase : stream.phase = .live) :
    Sound config (system.receive id stream) := by
  unfold System.receive
  split
  · rename_i ev rest buffer
    have before := sound.streams id stream found
    have drained : Sound config { system with
        hub := { system.hub with
          channels := Function.update system.hub.channels id
            { system.hub.channels id with buffer := rest } }
        streams := Function.update system.streams id (some (stream.take ev)) } := by
      refine ⟨⟨?_, sound.unique, sound.subscribers, ?_, ?_⟩, sound.cached⟩
      · exact ⟨sound.published.numbered, sound.published.seq, sound.published.ring⟩
      · intro other large
        have different : other ≠ id := by
          have := (sound.used found).trans_le large
          omega
        simp only [Function.update_of_ne different]
        exact sound.unused other large
      · intro other next same
        by_cases chosen : other = id
        · subst chosen
          simp only [Function.update_self, Option.some_inj] at same
          subst same
          exact ⟨before.attached.receive buffer, before.past, before.snapshots,
            before.progress.take phase ev⟩
        · simp only [Function.update_of_ne chosen] at same
          have untouched := sound.streams other next same
          refine ⟨?_, untouched.past, untouched.snapshots, untouched.progress⟩
          apply untouched.attached.of_same
          · exact fun _ _ => Iff.rfl
          · simp [Function.update_of_ne chosen]
    exact drained
  · split
    · exact sound.endStream found
    · exact sound

theorem Sound.connect (sound : Sound config system) {topics : List String}
    {result : Hub × ℕ × List String × List Event} (lastEventID : Option ℕ)
    (accepted : subscribe system.hub topics = some result) :
    Sound config (({ system with hub := result.1 } : System).setStream result.2.1
      (openStream result.2.2.1 lastEventID result.2.2.2 system.hub.seq)) := by
  have spec := subscribe_spec accepted
  have newID : ∀ sub ∈ system.hub.subscribers, sub.id ≠ result.2.1 := by
    intro sub member
    rw [spec.id]
    exact (sound.subscribers sub member).ne
  have published : Published system.log result.1 :=
    ⟨sound.published.numbered, spec.seq.trans sound.published.seq, by
      rw [spec.ring]
      exact sound.published.ring⟩
  refine ⟨⟨published, ?_, ?_, ?_, ?_⟩, sound.cached.of_same spec.cache⟩
  · simp only [System.setStream, spec.subscribers, List.map_append]
    rw [List.nodup_append]
    refine ⟨sound.unique, List.nodup_singleton _, ?_⟩
    intro id member other last clash
    rcases List.mem_map.mp member with ⟨sub, subMember, rfl⟩
    rw [List.mem_singleton.mp last] at clash
    exact newID sub subMember clash
  · intro sub member
    simp only [System.setStream, spec.subscribers, List.mem_append, List.mem_singleton] at member
    simp only [System.setStream, spec.nextSubID]
    rcases member with old | rfl
    · exact (sound.subscribers sub old).trans (Nat.lt_succ_self _)
    · simp only [spec.id]
      exact Nat.lt_succ_self _
  · intro id large
    simp only [System.setStream, spec.nextSubID] at large ⊢
    have different : id ≠ result.2.1 := by
      rw [spec.id]
      omega
    rw [Function.update_of_ne different]
    exact sound.unused id (by omega)
  · intro id stream found
    by_cases new : id = result.2.1
    · subst new
      simp only [System.setStream, Function.update_self, Option.some_inj] at found
      subst found
      have nothingYet : eventsSince system.log system.hub.seq result.2.2.1 = [] := by
        rw [eventsSince, sound.published.numbered.entriesSince_eq, List.drop_of_length_le]
        · rfl
        · exact sound.published.seq.ge
      refine ⟨⟨?_, ?_, ?_⟩, sound.published.seq.le, ?_, openStream_progress ..⟩
      · intro sub member same
        simp only [System.setStream, spec.subscribers, List.mem_append,
          List.mem_singleton] at member
        rcases member with old | rfl
        · exact absurd same (newID sub old)
        · rfl
      · intro _
        simp [System.setStream, openStream, spec.channels, nothingYet]
      · simp [System.setStream, openStream, spec.channels]
      · simp only [openStream, sound.published.seq, System.setStream, List.take_length]
        rw [spec.snapshots]
        exact sound.cached.snapshotsOf spec.known
    · simp only [System.setStream, Function.update_of_ne new] at found
      have before := sound.streams id stream found
      refine ⟨?_, before.past, before.snapshots, before.progress⟩
      apply before.attached.of_same
      · intro sub same
        simp only [System.setStream, spec.subscribers, List.mem_append, List.mem_singleton]
        constructor
        · rintro (old | rfl)
          · exact old
          · exact absurd same.symm new
        · exact .inl
      · simp [System.setStream, spec.channels, Function.update_of_ne new]

theorem Sound.stepStream (sound : Sound config system) {id : ℕ} {phase : Phase}
    {next : Stream → System}
    (keeps : ∀ stream, system.streams id = some stream → stream.phase = phase →
      Sound config (next stream)) : Sound config (system.stepStream id phase next) := by
  unfold System.stepStream
  split
  · exact sound
  · rename_i stream found
    split
    · rename_i same
      exact keeps stream found same
    · exact sound

/-- Every step of a poller or a connection. -/
theorem Sound.step (sound : Sound config system) (action : Action) :
    Sound config (step config system action) := by
  cases action with
  | fetchSuccess topic data ts => exact sound.fetchSuccess topic data ts
  | fetchError topic ts => exact sound.fetchError topic ts
  | connect topics lastEventID =>
      simp only [Events.step]
      split
      · exact sound
      · rename_i hub id wanted snapshots accepted
        exact sound.connect lastEventID accepted
  | replay id =>
      apply sound.stepStream
      intro stream found phase
      have before := sound.streams id stream found
      exact sound.advance found (choose_sameSource stream system.hub)
        (before.progress.choose sound.published phase before.past)
  | write id =>
      apply sound.stepStream
      intro stream found phase
      have before := sound.streams id stream found
      exact sound.advance found (writeNext_sameSource stream) (before.progress.writeNext phase)
  | receive id =>
      apply sound.stepStream
      intro stream found phase
      exact sound.receive found phase
  | finish id =>
      simp only [Events.step]
      split
      · exact sound
      · rename_i stream found
        exact sound.endStream found

theorem sound_after (config : Config) (topics : String → Option Bool) (actions : List Action) :
    Sound config (after (Events.step config) (initialSystem topics) actions) :=
  always_after (fun _ action sound => sound.step action) (sound_initialSystem config topics)
    actions

end Connection

section Served

variable {log : List Event} {stream : Stream}

/-- At the replay call, nothing after an event had left the ring. -/
def Stream.Covers (stream : Stream) (since : ℕ) : Prop :=
  stream.evictedAtReplay ≤ since ∧ since ≤ stream.seqAtReplay

/-- What the frames of a connection may be. -/
structure Stream.Served (config : Config) (log : List Event) (stream : Stream) : Prop where
  snapshots : SnapshotsOf config (log.take stream.seqAtSubscribe) stream.topics stream.snapshots
  resumed : ∀ since, stream.lastEventID = some since → since ≤ stream.seqAtSubscribe →
    stream.Covers since → stream.frames <+: eventsSince log since stream.topics
  restarted : (∀ since, stream.lastEventID = some since → ¬stream.Covers since) →
    stream.frames <+:
      stream.snapshots ++ eventsSince log stream.seqAtSubscribe stream.topics

/-- The frames are a prefix of the initial ones and the new ones that follow. -/
theorem Stream.Progress.frames_prefix (progress : stream.Progress log) {sent : List Event}
    (taken : stream.taken <+: sent)
    (watermark : stream.taken ≠ [] → stream.replayed = true →
      stream.lastReplayedSeq = maxSeq stream.initial) :
    stream.frames <+: stream.initial ++ sent.filter fun ev =>
      !(stream.replayed && decide (ev.seq ≤ maxSeq stream.initial)) := by
  rcases progress.frames with ⟨written, parts, frames, -⟩
  by_cases fresh : stream.taken = []
  · rw [frames, fresh, parts, List.filter_nil, List.append_nil, List.append_assoc]
    exact List.prefix_append _ _
  · have done : stream.pending = [] := progress.order.resolve_left fresh
    rw [done, List.append_nil] at parts
    rw [frames, ← parts]
    apply (List.prefix_append_right_inj _).mpr
    have sameTest : stream.isNew = fun ev =>
        !(stream.replayed && decide (ev.seq ≤ maxSeq stream.initial)) := by
      funext ev
      cases replayed : stream.replayed with
      | false => simp [Stream.isNew, replayed]
      | true => simp [Stream.isNew, replayed, watermark fresh replayed]
    rw [sameTest]
    exact taken.filter _

theorem Stream.Progress.watermark (progress : stream.Progress log) :
    stream.taken ≠ [] → stream.replayed = true →
      stream.lastReplayedSeq = maxSeq stream.initial := by
  intro drained replayed
  rcases progress.frames with ⟨written, parts, -, watermark⟩
  rw [progress.order.resolve_left drained, List.append_nil] at parts
  rw [parts]
  exact watermark replayed

/-- The replay and the new events of the channel are all the events after the last one seen. -/
theorem replay_append_new (topics : List String) (numbered : Numbered Event.seq log)
    {since replay subscribed : ℕ} (known : since ≤ subscribed) (order : subscribed ≤ replay) :
    let initial := eventsSince (log.take replay) since topics
    initial ++ (eventsSince log subscribed topics).filter
        (fun ev => !decide (ev.seq ≤ maxSeq initial)) =
      eventsSince log since topics := by
  intro initial
  have later : (eventsSince log subscribed topics).filter
      (fun ev => !decide (ev.seq ≤ maxSeq initial)) = eventsSince log replay topics := by
    apply filter_entriesSince _ order
    intro ev member after wanted
    simp only [Bool.not_eq_true', decide_eq_false_iff_not, Nat.not_le]
    constructor
    · intro new
      by_contra early
      have listed : ev ∈ initial := by
        apply mem_entriesSince.mpr
        exact ⟨numbered.mem_take member (Nat.le_of_not_lt early), by omega, wanted⟩
      have bound := le_maxSeq listed
      omega
    · intro late
      apply Nat.lt_of_le_of_lt _ late
      apply maxSeq_le
      intro other listed
      exact numbered.le_of_mem_take (mem_entriesSince.mp listed).1
  rw [later]
  exact (numbered.entriesSince_split (known.trans order) _).symm

theorem StreamSound.served {hub : Hub} {id : ℕ} (sound : StreamSound config log hub id stream)
    (numbered : Numbered Event.seq log) : stream.Served config log where
  snapshots := sound.snapshots
  resumed since asked known covered := by
    have taken := (List.prefix_append _ _).trans sound.attached.start
    have frames := sound.progress.frames_prefix taken sound.progress.watermark
    cases answered : stream.answered with
    | false =>
        rw [sound.progress.frames_of_unserved answered]
        exact List.nil_prefix
    | true =>
        have chosen := sound.progress.chosen answered
        unfold Stream.Chosen at chosen
        split at chosen
        · rename_i replayed
          rcases chosen with ⟨other, same, -, -, order, -, initial⟩
          cases asked.symm.trans same
          rw [initial] at frames
          have all := replay_append_new stream.topics numbered known order
          rw [← all]
          simpa only [replayed, Bool.true_and] using frames
        · exact absurd covered (chosen.2 since asked)
  restarted uncovered := by
    have taken := (List.prefix_append _ _).trans sound.attached.start
    have frames := sound.progress.frames_prefix taken sound.progress.watermark
    cases answered : stream.answered with
    | false =>
        rw [sound.progress.frames_of_unserved answered]
        exact List.nil_prefix
    | true =>
        have chosen := sound.progress.chosen answered
        unfold Stream.Chosen at chosen
        split at chosen
        · rcases chosen with ⟨since, asked, kept, bound, -⟩
          exact absurd ⟨kept, bound⟩ (uncovered since asked)
        · rename_i fresh
          rw [chosen.1] at frames
          simpa [fresh] using frames

end Served

/-- In every state, every connection has written a prefix of what its client needs, and a
replay is refused exactly when the ring has lost an event after the asked number. -/
theorem event_stream_delivery (config : Config) (topics : String → Option Bool)
    (actions : List Action) :
    let system := after (step config) (initialSystem topics) actions
    Numbered Event.seq system.log ∧
      (∀ id stream, system.streams id = some stream → stream.Served config system.log) ∧
      ∀ since wanted,
        ((replaySince system.hub since wanted).isSome ↔
          system.hub.evicted ≤ since ∧ since ≤ system.hub.seq) ∧
        (replaySince system.hub since wanted = none ↔
          system.hub.seq < since ∨
            ∃ ev ∈ system.log, since < ev.seq ∧ ev ∉ system.hub.ring) ∧
        ∀ events, replaySince system.hub since wanted = some events →
          events = eventsSince system.log since wanted := by
  intro system
  have sound : Sound config system := sound_after config topics actions
  refine ⟨sound.published.numbered, ?_, ?_⟩
  · intro id stream found
    exact (sound.streams id stream found).served sound.published.numbered
  · intro since wanted
    have answer := sound.published.replaySince_eq since wanted
    refine ⟨?_, sound.published.replaySince_eq_none since wanted, ?_⟩
    · rw [answer]
      split
      · rename_i covered
        simp [covered]
      · rename_i lost
        simp [lost]
    · intro events served
      rw [answer] at served
      split at served
      · exact (Option.some_inj.mp served).symm
      · cases served

section Failed

/-- The latest event of each topic, whatever it is, and then the later ones. -/
def Stream.LatestThenLater (log : List Event) (stream : Stream) : Prop :=
  stream.frames <+: stream.topics.filterMap (latestEvent (log.take stream.seqAtSubscribe)) ++
    eventsSince log stream.seqAtSubscribe stream.topics

instance (log : List Event) (stream : Stream) : Decidable (stream.LatestThenLater log) :=
  inferInstanceAs (Decidable (_ <+: _))

def sampleConfig : Config where
  subscriberBuffer := 4
  replayRingSize := 8
  replayMaxBytes := 100
  diffKey _ data := data

def sampleTopics (name : String) : Option Bool :=
  if name = "users" ∨ name = "stats" then some false else none

/-- A topic whose last fetch failed answers with its cached data, not with the error. -/
theorem sampleFetchError_not_latest :
    let system := after (step sampleConfig) (initialSystem sampleTopics)
      [.fetchSuccess "users" [1] 10, .fetchError "users" 20, .connect ["users"] none,
        .replay 0, .write 0]
    ∃ stream, system.streams 0 = some stream ∧ stream.lastEventID = none ∧
      stream.seqAtSubscribe = 2 ∧ ¬stream.LatestThenLater system.log :=
  ⟨_, rfl, by decide⟩

end Failed

end TelemtPanel.Events
