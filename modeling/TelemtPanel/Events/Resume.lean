import TelemtPanel.Events.Delivery

/-!
# Resuming a stream

A client keeps only the number of the last frame that it has received.  The events
after that number make up for a dropped connection if the client knows the latest data
of every topic up to that number.

Replays and live events come in the order of their numbers, so a drop leaves no hole.
Snapshots come in the order of the request.  A drop between them leaves one when a
snapshot that is still to come has a smaller number than the last one received.
-/

namespace TelemtPanel.Events

open Library

/-- What a client got over its connections; `count` frames are from the current one. -/
structure Client where
  current : Option ℕ
  count : ℕ
  received : List Event

structure World where
  system : System
  client : Client

/-- Steps of the system, and of one client of it. -/
inductive ChainAction where
  | system (action : Action)
  | connect
  | deliver
  | drop

/-- The id of the last frame received. -/
def Client.lastEventID (client : Client) : Option ℕ := client.received.getLast?.map Event.seq

def chainStep (config : Config) (topics : List String) (world : World) : ChainAction → World
  | .system action => { world with system := step config world.system action }
  | .connect =>
      if world.client.current.isSome ∨ (subscribe world.system.hub topics).isNone then world
      else
        { system := step config world.system (.connect topics world.client.lastEventID)
          client := { world.client with
            current := some world.system.hub.nextSubID, count := 0 } }
  | .deliver =>
      match world.client.current.bind world.system.streams with
      | none => world
      | some stream =>
          match stream.frames[world.client.count]? with
          | none => world
          | some ev =>
              { world with client :=
                { world.client with
                  count := world.client.count + 1
                  received := world.client.received ++ [ev] } }
  | .drop => { world with client := { world.client with current := none, count := 0 } }

def initialWorld (topics : String → Option Bool) : World where
  system := initialSystem topics
  client := { current := none, count := 0, received := [] }

section Knowledge

variable {config : Config} {log : List Event} {topics : List String}

/-- Of every topic, the latest data up to the last number is the last data received. -/
def Known (log : List Event) (topics : List String) (received : List Event) : Prop :=
  ∀ last, received.getLast? = some last → ∀ name ∈ topics, ∀ ev,
    latestData log name = some ev → ev.seq ≤ last.seq →
      ∃ frame, latestData received name = some frame ∧ frame.seq = ev.seq

theorem Known.congr {received other : List Event} (known : Known log topics received)
    {names : List String} (same : ∀ name, name ∈ names ↔ name ∈ topics)
    (frames : other = received) : Known log names other := by
  subst frames
  intro last final name member
  exact known last final name ((same name).mp member)

/-- Knowledge up to some number is not touched by events with larger numbers. -/
theorem Known.of_take {received : List Event} {count : ℕ}
    (known : Known (log.take count) topics received) (numbered : Numbered Event.seq log)
    (past : ∀ frame ∈ received, frame.seq ≤ count) : Known log topics received := by
  intro last final name member ev latest bound
  have early := past last (List.mem_of_getLast? final)
  exact known last final name member ev (latestData_take numbered latest (bound.trans early)) bound

theorem Known.take {received : List Event} {count : ℕ} (known : Known log topics received)
    (whole : log.length ≤ count) : Known (log.take count) topics received := by
  rwa [List.take_of_length_le whole]

variable {since : ℕ} {got earlier : List Event}

/-- A member of an ascending list whose number has been reached is in the part received. -/
theorem mem_of_prefix {all : List Event} {last : Event}
    (sorted : all.Pairwise fun earlier later => earlier.seq < later.seq) (part : got <+: all)
    (final : got.getLast? = some last) {ev : Event} (member : ev ∈ all)
    (bound : ev.seq ≤ last.seq) : ev ∈ got := by
  rcases part with ⟨rest, rfl⟩
  rcases List.mem_append.mp member with early | late
  · exact early
  · have order := (List.pairwise_append.mp sorted).2.2 last (List.mem_of_getLast? final) ev late
    omega

theorem eventsSince_pairwise (numbered : Numbered Event.seq log) :
    (eventsSince log since topics).Pairwise fun earlier later => earlier.seq < later.seq :=
  numbered.pairwise.filter _

theorem mem_eventsSince {ev : Event} :
    ev ∈ eventsSince log since topics ↔ ev ∈ log ∧ since < ev.seq ∧ ev.topic ∈ topics := by
  rw [eventsSince, mem_entriesSince]
  simp

/-- Events received in order tell the latest data up to the last of them. -/
theorem latestData_got (numbered : Numbered Event.seq log)
    (part : got <+: eventsSince log since topics) {last : Event}
    (final : got.getLast? = some last) {name : String} (wanted : name ∈ topics) {ev : Event}
    (latest : latestData log name = some ev) (after : since < ev.seq)
    (bound : ev.seq ≤ last.seq) : latestData got name = some ev := by
  rcases mem_of_latestData latest with ⟨member, topic, data⟩
  have sorted := @eventsSince_pairwise _ topics since numbered
  have listed : ev ∈ eventsSince log since topics :=
    mem_eventsSince.mpr ⟨member, after, by rwa [topic]⟩
  have mine := mem_of_prefix sorted part final listed bound
  rcases exists_latestData mine topic data with ⟨frame, found⟩
  rcases mem_of_latestData found with ⟨frameMember, frameTopic, frameData⟩
  have inLog := (mem_eventsSince.mp (part.subset frameMember)).1
  have upper := le_latestData numbered.pairwise latest inLog frameTopic frameData
  have lower := le_latestData (sorted.sublist part.sublist) found mine topic data
  rw [found, numbered.eq_of_number_eq inLog member (by omega)]

theorem latestData_got_eq_none (numbered : Numbered Event.seq log)
    (part : got <+: eventsSince log since topics) {name : String} {ev : Event}
    (latest : latestData log name = some ev) (before : ev.seq ≤ since) :
    latestData got name = none := by
  apply latestData_eq_none
  intro other member topic data
  rcases mem_eventsSince.mp (part.subset member) with ⟨inLog, after, -⟩
  have bound := le_latestData numbered.pairwise latest inLog topic data
  omega

/-- A replay, or the beginning of one, extends what was known before it. -/
theorem Known.append_replay (numbered : Numbered Event.seq log) {last : Event}
    (known : Known log topics earlier) (final : earlier.getLast? = some last)
    (part : got <+: eventsSince log last.seq topics) : Known log topics (earlier ++ got) := by
  intro newLast newFinal name wanted ev latest bound
  rw [latestData_append]
  by_cases before : ev.seq ≤ last.seq
  · rw [latestData_got_eq_none numbered part latest before, Option.none_or]
    exact known last final name wanted ev latest before
  · rw [List.getLast?_append] at newFinal
    cases gotLast : got.getLast? with
    | none =>
        rw [gotLast, Option.none_or, final, Option.some_inj] at newFinal
        subst newFinal
        exact absurd bound before
    | some top =>
        rw [gotLast, Option.some_or, Option.some_inj] at newFinal
        subst newFinal
        rw [latestData_got numbered part gotLast wanted latest (by omega) bound]
        exact ⟨ev, rfl, rfl⟩

section Snapshots

variable {count : ℕ} {snapshots : List Event}

/-- A snapshot is a copy of its topic's latest data. -/
theorem renews_of_mem (answer : SnapshotsOf config (log.take count) topics snapshots)
    {copy : Event} (member : copy ∈ snapshots) :
    ∃ ev, latestData (log.take count) copy.topic = some ev ∧ Renews config ev copy := by
  rcases List.forall₂_iff_get.mp answer with ⟨lengths, renews⟩
  rcases List.get_of_mem member with ⟨place, rfl⟩
  have bound : place.val < (topics.filterMap (latestData (log.take count))).length := by
    rw [lengths]
    exact place.isLt
  have copied := renews place.val bound place.isLt
  have listed := List.get_mem (topics.filterMap (latestData (log.take count))) ⟨place.val, bound⟩
  rcases List.mem_filterMap.mp listed with ⟨name, -, latest⟩
  refine ⟨_, ?_, copied⟩
  rw [copied.topic, (mem_of_latestData latest).2.1]
  exact latest

/-- Every requested topic with data has a snapshot. -/
theorem exists_snapshot (answer : SnapshotsOf config (log.take count) topics snapshots)
    {name : String} (wanted : name ∈ topics) {ev : Event}
    (latest : latestData (log.take count) name = some ev) :
    ∃ copy ∈ snapshots, Renews config ev copy := by
  rcases List.forall₂_iff_get.mp answer with ⟨lengths, renews⟩
  have listed : ev ∈ topics.filterMap (latestData (log.take count)) :=
    List.mem_filterMap.mpr ⟨name, wanted, latest⟩
  rcases List.get_of_mem listed with ⟨place, same⟩
  have bound : place.val < snapshots.length := by
    rw [← lengths]
    exact place.isLt
  refine ⟨snapshots.get ⟨place.val, bound⟩, List.get_mem _ _, ?_⟩
  rw [← same]
  exact renews place.val place.isLt bound

/-- Among snapshots received, the data of a topic is the copy of its latest event. -/
theorem latestData_snapshots (answer : SnapshotsOf config (log.take count) topics snapshots)
    (part : ∀ copy ∈ got, copy ∈ snapshots) {name : String} {ev : Event}
    (latest : latestData (log.take count) name = some ev)
    (mine : ∃ copy ∈ got, Renews config ev copy) :
    ∃ frame, latestData got name = some frame ∧ frame.seq = ev.seq := by
  have topic := (mem_of_latestData latest).2.1
  rcases mine with ⟨copy, member, renews⟩
  rcases exists_latestData member (renews.topic.trans topic) renews.err with ⟨frame, found⟩
  rcases mem_of_latestData found with ⟨frameMember, frameTopic, -⟩
  rcases renews_of_mem answer (part frame frameMember) with ⟨original, same, copied⟩
  rw [frameTopic, latest, Option.some_inj] at same
  subst same
  exact ⟨frame, found, copied.seq⟩

theorem seq_le_of_mem_snapshots (numbered : Numbered Event.seq log)
    (answer : SnapshotsOf config (log.take count) topics snapshots) {copy : Event}
    (member : copy ∈ snapshots) : copy.seq ≤ count := by
  rcases renews_of_mem answer member with ⟨ev, latest, renews⟩
  rw [renews.seq]
  exact numbered.le_of_mem_take (mem_of_latestData latest).1

/-- Some of the snapshots do for a client if none with a smaller number is missing. -/
theorem known_of_snapshots (numbered : Numbered Event.seq log)
    (answer : SnapshotsOf config (log.take count) topics snapshots) {last : Event}
    (final : got.getLast? = some last) (received : ℕ) (part : got = snapshots.take received)
    (later : ∀ copy ∈ snapshots.drop received, last.seq < copy.seq) :
    Known log topics (earlier ++ got) := by
  intro newLast newFinal name wanted ev latest bound
  rw [List.getLast?_append, final, Option.some_or, Option.some_inj] at newFinal
  subst newFinal
  have inside : ∀ copy ∈ got, copy ∈ snapshots := by
    intro copy member
    rw [part] at member
    exact List.mem_of_mem_take member
  have early := seq_le_of_mem_snapshots numbered answer (inside last (List.mem_of_getLast? final))
  have before := latestData_take numbered latest (bound.trans early)
  rcases exists_snapshot answer wanted before with ⟨copy, member, renews⟩
  have mine : copy ∈ got := by
    rw [← List.take_append_drop received snapshots] at member
    rcases List.mem_append.mp member with first | rest
    · rwa [part]
    · have order := later copy rest
      have same := renews.seq
      omega
  rcases latestData_snapshots answer inside before ⟨copy, mine, renews⟩ with ⟨frame, found, seq⟩
  rw [latestData_append, found]
  exact ⟨frame, rfl, seq⟩

/-- All snapshots and the live events after them. -/
theorem known_of_live (numbered : Numbered Event.seq log)
    (answer : SnapshotsOf config (log.take count) topics snapshots) {last : Event}
    {live : List Event} (final : live.getLast? = some last)
    (part : live <+: eventsSince log count topics) :
    Known log topics (earlier ++ (snapshots ++ live)) := by
  intro newLast newFinal name wanted ev latest bound
  rw [List.getLast?_append, List.getLast?_append, final, Option.some_or, Option.some_or,
    Option.some_inj] at newFinal
  subst newFinal
  rw [latestData_append, latestData_append]
  by_cases before : ev.seq ≤ count
  · have old := latestData_take numbered latest before
    rcases latestData_snapshots answer (fun _ member => member) old
      (exists_snapshot answer wanted old) with ⟨frame, found, seq⟩
    rw [latestData_got_eq_none numbered part latest before, found]
    exact ⟨frame, rfl, seq⟩
  · rw [latestData_got numbered part final wanted latest (by omega) bound]
    exact ⟨ev, rfl, rfl⟩

end Snapshots

end Knowledge

section Chain

variable {config : Config} {topics : List String}

/-- A copy of a published event: the same frame up to data of the same key. -/
structure Copies (config : Config) (ev frame : Event) : Prop where
  seq : frame.seq = ev.seq
  topic : frame.topic = ev.topic
  err : frame.err = ev.err
  key : config.diffKey ev.topic frame.data = config.diffKey ev.topic ev.data

theorem Copies.refl (ev : Event) : Copies config ev ev := ⟨rfl, rfl, rfl, rfl⟩

theorem Renews.copies {ev copy : Event} (renews : Renews config ev copy) (data : ev.err = "") :
    Copies config ev copy :=
  ⟨renews.seq, renews.topic, renews.err.trans data.symm, renews.key⟩

/-- The current connection, and what had been received before it. -/
structure Linked (world : World) (topics : List String) (stream : Stream)
    (earlier : List Event) : Prop where
  received : world.client.received = earlier ++ stream.frames.take world.client.count
  bounded : world.client.count ≤ stream.frames.length
  lastEventID : stream.lastEventID = earlier.getLast?.map Event.seq
  past : ∀ frame ∈ earlier, frame.seq ≤ stream.seqAtSubscribe
  known : Known (world.system.log.take stream.seqAtSubscribe) topics earlier
  topics : ∀ name, name ∈ stream.topics ↔ name ∈ topics

/-- The frames of a resumed connection follow what had been received, or start again. -/
theorem Linked.frames_cases {world : World} {stream : Stream} {earlier : List Event}
    (linked : Linked world topics stream earlier) {id : ℕ}
    (sound : Sound config world.system) (found : world.system.streams id = some stream)
    (answered : stream.answered = true) :
    (stream.replayed = true ∧ ∃ last, earlier.getLast? = some last ∧
      last.seq ≤ stream.seqAtSubscribe ∧
      stream.frames <+: eventsSince world.system.log last.seq stream.topics ∧
      ∃ replay, stream.seqAtSubscribe ≤ replay ∧
        stream.initial = eventsSince (world.system.log.take replay) last.seq stream.topics) ∨
    (stream.replayed = false ∧ stream.initial = stream.snapshots ∧
      stream.frames <+: stream.snapshots ++
        eventsSince world.system.log stream.seqAtSubscribe stream.topics) := by
  have streamSound := sound.streams id stream found
  have served := streamSound.served sound.published.numbered
  have chosen := streamSound.progress.chosen answered
  unfold Stream.Chosen at chosen
  cases replayed : stream.replayed with
  | true =>
      rw [if_pos replayed] at chosen
      rcases chosen with ⟨since, asked, kept, known, order, -, initial⟩
      rw [linked.lastEventID, Option.map_eq_some_iff] at asked
      rcases asked with ⟨last, final, rfl⟩
      have bound := linked.past last (List.mem_of_getLast? final)
      have same : stream.lastEventID = some last.seq := by rw [linked.lastEventID, final]; rfl
      exact .inl ⟨rfl, last, final, bound, served.resumed last.seq same bound ⟨kept, known⟩,
        stream.seqAtReplay, order, initial⟩
  | false =>
      rw [if_neg (by simp [replayed])] at chosen
      exact .inr ⟨rfl, chosen.1, served.restarted chosen.2⟩

/-- Every frame written is a copy of a published event. -/
theorem Linked.copies_of_mem {world : World} {stream : Stream} {earlier : List Event}
    (linked : Linked world topics stream earlier) {id : ℕ} (sound : Sound config world.system)
    (found : world.system.streams id = some stream) {frame : Event}
    (member : frame ∈ stream.frames) : ∃ ev ∈ world.system.log, Copies config ev frame := by
  have streamSound := sound.streams id stream found
  have answered : stream.answered = true := by
    by_contra waiting
    rw [streamSound.progress.frames_of_unserved (by simpa using waiting)] at member
    cases member
  have published {since : ℕ} (listed : frame ∈ eventsSince world.system.log since stream.topics) :
      ∃ ev ∈ world.system.log, Copies config ev frame :=
    ⟨frame, (mem_eventsSince.mp listed).1, .refl frame⟩
  rcases linked.frames_cases sound found answered with
    ⟨-, last, -, -, frames, -⟩ | ⟨-, -, frames⟩
  · exact published (frames.subset member)
  · rcases List.mem_append.mp (frames.subset member) with snapshot | live
    · rcases renews_of_mem streamSound.snapshots snapshot with ⟨ev, latest, renews⟩
      rcases mem_of_latestData latest with ⟨listed, -, data⟩
      exact ⟨ev, List.mem_of_mem_take listed, renews.copies data⟩
    · exact published live

theorem Linked.known_now {world : World} {stream : Stream} {earlier : List Event}
    (linked : Linked world topics stream earlier) (sound : Sound config world.system) :
    Known world.system.log topics earlier :=
  linked.known.of_take sound.published.numbered linked.past

/-- No snapshot that is still to come has a smaller number than the last frame received. -/
def World.DropsInOrder (world : World) : Prop :=
  ∀ id, world.client.current = some id → ∀ stream, world.system.streams id = some stream →
    world.client.count = 0 ∨ stream.replayed = true ∨
      ∀ last, world.client.received.getLast? = some last →
        ∀ copy ∈ stream.snapshots.drop world.client.count, last.seq < copy.seq

theorem Linked.known_of_drop {world : World} {stream : Stream} {earlier : List Event}
    (linked : Linked world topics stream earlier) {id : ℕ} (sound : Sound config world.system)
    (current : world.client.current = some id)
    (found : world.system.streams id = some stream) (ordered : world.DropsInOrder) :
    Known world.system.log topics world.client.received := by
  have before := linked.known_now sound
  rw [linked.received]
  cases final : (stream.frames.take world.client.count).getLast? with
  | none =>
      rw [List.getLast?_eq_none_iff.mp final, List.append_nil]
      exact before
  | some last =>
      have streamSound := sound.streams id stream found
      have numbered := sound.published.numbered
      have notEmpty : stream.frames ≠ [] := by
        intro none
        rw [none, List.take_nil] at final
        cases final
      have answered : stream.answered = true := by
        by_contra waiting
        apply notEmpty
        apply streamSound.progress.frames_of_unserved
        simpa using waiting
      have restated (names : List String) (same : ∀ name, name ∈ names ↔ name ∈ topics)
          {received : List Event} (known : Known world.system.log names received) :
          Known world.system.log topics received :=
        known.congr (fun name => (same name).symm) rfl
      apply restated stream.topics linked.topics
      have mine : Known world.system.log stream.topics earlier := before.congr linked.topics rfl
      have got : stream.frames.take world.client.count <+: stream.frames := List.take_prefix ..
      rcases linked.frames_cases sound found answered with
        ⟨-, seen, seenLast, -, frames, -⟩ | ⟨fresh, -, frames⟩
      · exact mine.append_replay numbered seenLast (got.trans frames)
      · have part := got.trans frames
        by_cases few : world.client.count ≤ stream.snapshots.length
        · have same : stream.frames.take world.client.count =
              stream.snapshots.take world.client.count := by
            have lengths := List.prefix_iff_eq_take.mp part
            rw [lengths, List.length_take, Nat.min_eq_left linked.bounded,
              List.take_append_of_le_length few]
          apply known_of_snapshots numbered streamSound.snapshots final world.client.count same
          rcases ordered id current stream found with none | replayed | later
          · rw [none, List.take_zero] at final
            cases final
          · cases fresh.symm.trans replayed
          · apply later
            rw [linked.received, List.getLast?_append, final]
            rfl
        · rcases part with ⟨rest, whole⟩
          have lengths : stream.snapshots.length ≤
              (stream.frames.take world.client.count).length := by
            rw [List.length_take, Nat.min_eq_left linked.bounded]
            omega
          rcases List.append_eq_append_iff.mp whole with ⟨extra, cut, -⟩ | ⟨live, cut, tail⟩
          · have sizes := congrArg List.length cut
            rw [List.length_append, List.length_take, Nat.min_eq_left linked.bounded] at sizes
            omega
          · rw [cut] at final ⊢
            cases liveLast : live.getLast? with
            | none =>
                have sizes := congrArg List.length cut
                rw [List.getLast?_eq_none_iff.mp liveLast, List.append_nil, List.length_take,
                  Nat.min_eq_left linked.bounded] at sizes
                omega
            | some top =>
                exact known_of_live numbered streamSound.snapshots liveLast ⟨rest, tail.symm⟩

/-- A stream that has only written more frames. -/
structure Extends (stream next : Stream) : Prop where
  topics : next.topics = stream.topics
  lastEventID : next.lastEventID = stream.lastEventID
  seqAtSubscribe : next.seqAtSubscribe = stream.seqAtSubscribe
  frames : stream.frames <+: next.frames

theorem Extends.refl (stream : Stream) : Extends stream stream :=
  ⟨rfl, rfl, rfl, List.prefix_rfl⟩

theorem choose_extends (stream : Stream) (hub : Hub) : Extends stream (stream.choose hub) := by
  unfold Stream.choose
  split <;> exact ⟨rfl, rfl, rfl, List.prefix_rfl⟩

theorem writeNext_extends (stream : Stream) : Extends stream stream.writeNext := by
  unfold Stream.writeNext
  split
  · exact ⟨rfl, rfl, rfl, List.prefix_rfl⟩
  · exact ⟨rfl, rfl, rfl, List.prefix_append ..⟩

theorem take_extends (stream : Stream) (ev : Event) : Extends stream (stream.take ev) := by
  refine ⟨rfl, rfl, rfl, ?_⟩
  simp only [Stream.take]
  split
  · exact List.prefix_append ..
  · exact List.prefix_rfl

variable {system : System} {id : ℕ} {stream : Stream}

theorem setStream_extends (found : system.streams id = some stream) {other : ℕ}
    {old next : Stream} (mine : system.streams other = some old) (extend : Extends old next) :
    ∃ after, (system.setStream other next).streams id = some after ∧ Extends stream after := by
  by_cases same : id = other
  · subst same
    cases found.symm.trans mine
    exact ⟨next, by simp [System.setStream], extend⟩
  · exact ⟨stream, by simp [System.setStream, same, found], .refl stream⟩

theorem stepStream_extends (found : system.streams id = some stream) (other : ℕ) (phase : Phase)
    {next : Stream → System}
    (keeps : ∀ old, system.streams other = some old →
      ∃ after, (next old).streams id = some after ∧ Extends stream after) :
    ∃ after, (system.stepStream other phase next).streams id = some after ∧
      Extends stream after := by
  unfold System.stepStream
  split
  · exact ⟨stream, found, .refl stream⟩
  · rename_i old mine
    split
    · exact keeps old mine
    · exact ⟨stream, found, .refl stream⟩

theorem receive_extends (found : system.streams id = some stream) {other : ℕ} {old : Stream}
    (mine : system.streams other = some old) :
    ∃ after, (system.receive other old).streams id = some after ∧ Extends stream after := by
  unfold System.receive
  split
  · rename_i ev rest buffer
    exact setStream_extends found mine (take_extends old ev)
  · split
    · exact setStream_extends found mine ⟨rfl, rfl, rfl, List.prefix_rfl⟩
    · exact ⟨stream, found, .refl stream⟩

theorem Sound.step_extends (sound : Sound config system)
    (found : system.streams id = some stream) (action : Action) :
    ∃ after, (Events.step config system action).streams id = some after ∧
      Extends stream after := by
  cases action with
  | fetchSuccess topic data ts => exact ⟨stream, found, .refl stream⟩
  | fetchError topic ts => exact ⟨stream, found, .refl stream⟩
  | connect topics lastEventID =>
      simp only [Events.step]
      split
      · exact ⟨stream, found, .refl stream⟩
      · rename_i hub new wanted snapshots accepted
        have different : id ≠ new := by
          have old := sound.used found
          have fresh := (subscribe_spec accepted).id
          simp only at fresh
          omega
        refine ⟨stream, ?_, .refl stream⟩
        simp [System.setStream, different, found]
  | replay other =>
      apply stepStream_extends found
      intro old mine
      exact setStream_extends found mine (choose_extends old system.hub)
  | write other =>
      apply stepStream_extends found
      intro old mine
      exact setStream_extends found mine (writeNext_extends old)
  | receive other =>
      apply stepStream_extends found
      intro old mine
      exact receive_extends found mine
  | finish other =>
      simp only [Events.step]
      split
      · exact ⟨stream, found, .refl stream⟩
      · rename_i old mine
        exact setStream_extends found mine ⟨rfl, rfl, rfl, List.prefix_rfl⟩

theorem stepStream_log (other : ℕ) (phase : Phase) {next : Stream → System}
    (keeps : ∀ old, (next old).log = system.log) :
    (system.stepStream other phase next).log = system.log := by
  unfold System.stepStream
  split
  · rfl
  · split
    · exact keeps _
    · rfl

/-- Steps only add to the log. -/
theorem step_log (config : Config) (system : System) (action : Action) :
    ∃ later, (step config system action).log = system.log ++ later := by
  have unchanged {other : System} (same : other.log = system.log) :
      ∃ later, other.log = system.log ++ later := ⟨[], by rw [same, List.append_nil]⟩
  cases action with
  | fetchSuccess topic data ts => exact ⟨_, rfl⟩
  | fetchError topic ts => exact ⟨_, rfl⟩
  | connect topics lastEventID =>
      simp only [Events.step]
      split
      · exact unchanged rfl
      · exact unchanged rfl
  | replay other => exact unchanged (stepStream_log other _ fun _ => rfl)
  | write other => exact unchanged (stepStream_log other _ fun _ => rfl)
  | receive other =>
      apply unchanged
      apply stepStream_log
      intro old
      unfold System.receive
      split
      · rfl
      · split <;> rfl
  | finish other =>
      simp only [Events.step]
      split
      · exact unchanged rfl
      · exact unchanged rfl

end Chain

section Run

variable {config : Config} {topics : List String} {world : World}

structure ChainSound (config : Config) (topics : List String) (world : World) : Prop where
  sound : Sound config world.system
  copies : ∀ frame ∈ world.client.received, ∃ ev ∈ world.system.log, Copies config ev frame
  apart : world.client.current = none →
    Known world.system.log topics world.client.received
  linked : ∀ id, world.client.current = some id → ∃ stream earlier,
    world.system.streams id = some stream ∧ Linked world topics stream earlier

theorem chainSound_initial (config : Config) (known : String → Option Bool)
    (topics : List String) : ChainSound config topics (initialWorld known) where
  sound := sound_initialSystem config known
  copies := fun _ member => by cases member
  apart := fun _ _ impossible => by cases impossible
  linked := fun _ impossible => by cases impossible

theorem ChainSound.seq_le (chain : ChainSound config topics world) :
    ∀ frame ∈ world.client.received, frame.seq ≤ world.system.log.length := by
  intro frame member
  rcases chain.copies frame member with ⟨ev, listed, copied⟩
  rw [copied.seq]
  exact (chain.sound.published.numbered.number_le listed).2

theorem ChainSound.system (chain : ChainSound config topics world) (action : Action) :
    ChainSound config topics { world with system := step config world.system action } := by
  rcases step_log config world.system action with ⟨later, log⟩
  have sound := chain.sound.step action
  refine ⟨sound, ?_, ?_, ?_⟩
  · intro frame member
    rcases chain.copies frame member with ⟨ev, listed, copied⟩
    refine ⟨ev, ?_, copied⟩
    rw [log]
    exact List.mem_append_left later listed
  · intro disconnected
    have before := chain.apart disconnected
    have cut : (step config world.system action).log.take world.system.log.length =
        world.system.log := by
      rw [log, List.take_left]
    rw [← cut] at before
    exact before.of_take sound.published.numbered chain.seq_le
  · intro id current
    rcases chain.linked id current with ⟨stream, earlier, found, linked⟩
    rcases chain.sound.step_extends found action with ⟨after, foundAfter, extend⟩
    have past := (chain.sound.streams id stream found).past
    refine ⟨after, earlier, foundAfter, ?_, ?_, ?_, ?_, ?_, ?_⟩
    · rcases extend.frames with ⟨more, frames⟩
      rw [← frames, List.take_append_of_le_length linked.bounded]
      exact linked.received
    · exact linked.bounded.trans extend.frames.length_le
    · exact extend.lastEventID.trans linked.lastEventID
    · rw [extend.seqAtSubscribe]
      exact linked.past
    · rw [extend.seqAtSubscribe, log, List.take_append_of_le_length past]
      exact linked.known
    · rw [extend.topics]
      exact linked.topics

theorem ChainSound.connect (chain : ChainSound config topics world) :
    ChainSound config topics (chainStep config topics world .connect) := by
  simp only [chainStep]
  split
  · exact chain
  · rename_i possible
    rcases not_or.mp possible with ⟨disconnected, answer⟩
    have apart := chain.apart (by simpa using disconnected)
    rcases Option.ne_none_iff_exists'.mp (by simpa using answer) with ⟨result, accepted⟩
    have spec := subscribe_spec accepted
    have sound := chain.sound.connect world.client.lastEventID accepted
    have stepped : step config world.system (.connect topics world.client.lastEventID) =
        ({ world.system with hub := result.1 } : System).setStream result.2.1
          (openStream result.2.2.1 world.client.lastEventID result.2.2.2
            world.system.hub.seq) := by
      simp only [step, accepted]
    rw [stepped]
    refine ⟨sound, chain.copies, (fun impossible => by cases impossible), ?_⟩
    intro id current
    cases Option.some_inj.mp current
    refine ⟨openStream result.2.2.1 world.client.lastEventID result.2.2.2 world.system.hub.seq,
      world.client.received, ?_, ?_, Nat.zero_le _, rfl, ?_, ?_, spec.wanted⟩
    · simp only [System.setStream, spec.id, Function.update_self]
    · simp
    · intro frame member
      have bound := chain.seq_le frame member
      rwa [← chain.sound.published.seq] at bound
    · apply apart.take
      exact chain.sound.published.seq.ge

theorem ChainSound.deliver (chain : ChainSound config topics world) :
    ChainSound config topics (chainStep config topics world .deliver) := by
  simp only [chainStep]
  split
  · exact chain
  · rename_i stream place
    rcases Option.bind_eq_some_iff.mp place with ⟨id, current, found⟩
    split
    · exact chain
    · rename_i ev next
      rcases chain.linked id current with ⟨same, earlier, alsoFound, linked⟩
      cases found.symm.trans alsoFound
      have member : ev ∈ stream.frames := List.mem_of_getElem? next
      have more : world.client.count < stream.frames.length := by
        by_contra large
        rw [List.getElem?_eq_none (Nat.le_of_not_lt large)] at next
        cases next
      refine ⟨chain.sound, ?_, (fun impossible => by cases current.symm.trans impossible), ?_⟩
      · intro frame listed
        rcases List.mem_append.mp listed with old | new
        · exact chain.copies frame old
        · rw [List.mem_singleton.mp new]
          exact linked.copies_of_mem chain.sound found member
      · intro other sameCurrent
        cases current.symm.trans sameCurrent
        refine ⟨stream, earlier, found, ?_, more, linked.lastEventID, linked.past, linked.known,
          linked.topics⟩
        simp only [List.take_add_one, next, linked.received, Option.toList_some,
          List.append_assoc]

theorem ChainSound.drop (chain : ChainSound config topics world) (ordered : world.DropsInOrder) :
    ChainSound config topics (chainStep config topics world .drop) where
  sound := chain.sound
  copies := chain.copies
  apart _ := by
    cases current : world.client.current with
    | none => exact chain.apart current
    | some id =>
        rcases chain.linked id current with ⟨stream, earlier, found, linked⟩
        exact linked.known_of_drop chain.sound current found ordered
  linked _ impossible := by cases impossible

theorem ChainSound.step (chain : ChainSound config topics world) (action : ChainAction)
    (ordered : action = .drop → world.DropsInOrder) :
    ChainSound config topics (chainStep config topics world action) := by
  cases action with
  | system action => exact chain.system action
  | connect => exact chain.connect
  | deliver => exact chain.deliver
  | drop => exact chain.drop (ordered rfl)

/-- Once a client has received all initial frames of a connection, its last data of every
topic that had data at the subscription was current then or later. -/
def World.UpToDate (config : Config) (topics : List String) (world : World) : Prop :=
  ∀ id, world.client.current = some id → ∀ stream, world.system.streams id = some stream →
    stream.answered = true → stream.initial.length ≤ world.client.count →
    ∀ name ∈ topics,
      (latestData (world.system.log.take stream.seqAtSubscribe) name).isSome →
      ∃ frame, latestData world.client.received name = some frame ∧
        ∃ time, stream.seqAtSubscribe ≤ time ∧ time ≤ world.system.log.length ∧
          ∃ ev, latestData (world.system.log.take time) name = some ev ∧
            Renews config ev frame

/-- All initial frames, and perhaps live ones after them. -/
theorem Stream.Progress.initial_prefix {log : List Event} {stream : Stream}
    (progress : stream.Progress log) {count : ℕ} (enough : stream.initial.length ≤ count)
    (bounded : count ≤ stream.frames.length) :
    stream.initial <+: stream.frames.take count := by
  rcases progress.frames with ⟨written, parts, frames, -⟩
  have done : stream.pending = [] := by
    rcases progress.order with fresh | done
    · rw [fresh, List.filter_nil, List.append_nil] at frames
      rw [parts, List.length_append, ← frames] at enough
      exact List.length_eq_zero_iff.mp (by omega)
    · exact done
  rw [done, List.append_nil] at parts
  rw [List.prefix_take_iff, frames, parts]
  rw [parts] at enough
  exact ⟨List.prefix_append .., enough⟩

theorem Linked.exists_frame {stream : Stream} {earlier : List Event}
    (linked : Linked world topics stream earlier) {id : ℕ} (sound : Sound config world.system)
    (found : world.system.streams id = some stream) (answered : stream.answered = true)
    (enough : stream.initial.length ≤ world.client.count) {name : String}
    (wanted : name ∈ topics) {ev : Event}
    (latest : latestData (world.system.log.take stream.seqAtSubscribe) name = some ev) :
    ∃ frame, latestData world.client.received name = some frame ∧ ev.seq ≤ frame.seq := by
  have streamSound := sound.streams id stream found
  have numbered := sound.published.numbered
  have initial := streamSound.progress.initial_prefix enough linked.bounded
  have got : stream.frames.take world.client.count <+: stream.frames := List.take_prefix ..
  have mine : name ∈ stream.topics := (linked.topics name).mpr wanted
  rcases mem_of_latestData latest with ⟨member, topic, data⟩
  have listed := List.mem_of_mem_take member
  have early := numbered.le_of_mem_take member
  rw [linked.received, latestData_append]
  rcases linked.frames_cases sound found answered with
    ⟨-, last, final, bound, frames, replay, order, replayed⟩ | ⟨-, snapshots, frames⟩
  · have part := got.trans frames
    cases new : latestData (stream.frames.take world.client.count) name with
    | some frame =>
        refine ⟨frame, rfl, ?_⟩
        rcases mem_of_latestData new with ⟨frameMember, -, -⟩
        by_cases before : ev.seq ≤ last.seq
        · have after := (mem_eventsSince.mp (part.subset frameMember)).2.1
          omega
        · have given : ev ∈ stream.initial := by
            rw [replayed, mem_eventsSince, topic]
            exact ⟨numbered.mem_take listed (early.trans order), by omega, mine⟩
          exact le_latestData ((eventsSince_pairwise numbered).sublist part.sublist) new
            (initial.subset given) topic data
    | none =>
        have before : ev.seq ≤ last.seq := by
          by_contra after
          have given : ev ∈ stream.initial := by
            rw [replayed, mem_eventsSince, topic]
            exact ⟨numbered.mem_take listed (early.trans order), by omega, mine⟩
          rcases exists_latestData (initial.subset given) topic data with ⟨frame, some⟩
          rw [new] at some
          cases some
        rcases linked.known last final name wanted ev latest before with ⟨frame, known, seq⟩
        exact ⟨frame, known, seq.ge⟩
  · rw [snapshots] at initial
    rcases initial with ⟨live, whole⟩
    have part := got.trans frames
    rw [← whole] at part ⊢
    have rest := (List.prefix_append_right_inj _).mp part
    rw [latestData_append]
    rcases latestData_snapshots streamSound.snapshots (fun _ member => member) latest
      (exists_snapshot streamSound.snapshots mine latest) with ⟨copy, snapshot, seq⟩
    cases new : latestData live name with
    | some frame =>
        rcases mem_of_latestData new with ⟨frameMember, -, -⟩
        have after := (mem_eventsSince.mp (rest.subset frameMember)).2.1
        exact ⟨frame, rfl, by omega⟩
    | none => exact ⟨copy, by rw [snapshot]; rfl, seq.ge⟩

/-- Data with a large enough number was current at the subscription or later. -/
theorem current_of_copy {log : List Event} (numbered : Numbered Event.seq log) {name : String}
    {count : ℕ} (published : count ≤ log.length) {ev : Event}
    (latest : latestData (log.take count) name = some ev)
    {original frame : Event} (member : original ∈ log) (copied : Copies config original frame)
    (topic : frame.topic = name) (data : frame.err = "") (recent : ev.seq ≤ frame.seq) :
    ∃ time, count ≤ time ∧ time ≤ log.length ∧
      ∃ ev, latestData (log.take time) name = some ev ∧ Renews config ev frame := by
  have original_topic : original.topic = name := copied.topic.symm.trans topic
  have original_data : original.err = "" := copied.err.symm.trans data
  have renews : Renews config original frame := ⟨copied.seq, copied.topic, data, copied.key⟩
  have bound := numbered.number_le member
  by_cases early : original.seq ≤ count
  · have old := numbered.mem_take member early
    have upper := le_latestData (numbered.take count).pairwise latest old original_topic
      original_data
    have same : original = ev := by
      apply (numbered.take count).eq_of_number_eq old (mem_of_latestData latest).1
      have seq := copied.seq
      omega
    subst same
    exact ⟨count, le_rfl, published, original, latest, renews⟩
  · refine ⟨original.seq, by omega, bound.2, original, ?_, renews⟩
    have cut := numbered.mem_take member le_rfl
    rcases exists_latestData cut original_topic original_data with ⟨last, found⟩
    rcases mem_of_latestData found with ⟨lastMember, -, -⟩
    have lower := le_latestData (numbered.take _).pairwise found cut original_topic original_data
    have upper := numbered.le_of_mem_take lastMember
    rw [found, (numbered.take _).eq_of_number_eq lastMember cut (by omega)]

theorem ChainSound.upToDate (chain : ChainSound config topics world) :
    world.UpToDate config topics := by
  intro id current stream found answered enough name wanted hasData
  rcases chain.linked id current with ⟨same, earlier, alsoFound, linked⟩
  cases found.symm.trans alsoFound
  rcases Option.isSome_iff_exists.mp hasData with ⟨ev, latest⟩
  rcases linked.exists_frame chain.sound found answered enough wanted latest with
    ⟨frame, received, recent⟩
  refine ⟨frame, received, ?_⟩
  rcases mem_of_latestData received with ⟨member, topic, data⟩
  rcases chain.copies frame member with ⟨original, listed, copied⟩
  exact current_of_copy chain.sound.published.numbered (chain.sound.streams id stream found).past
    latest listed copied topic data recent

/-- A client that is never cut off among snapshots that come out of order misses nothing. -/
theorem resumed_chain_upToDate (config : Config) (known : String → Option Bool)
    (topics : List String) (actions : List ChainAction)
    (ordered : Permitted (chainStep config topics)
      (fun world action => action = .drop → world.DropsInOrder) (initialWorld known) actions) :
    (after (chainStep config topics) (initialWorld known) actions).UpToDate config topics :=
  (invariant_after (fun _ action chain allowed => chain.step action allowed)
    (chainSound_initial config known topics) ordered).upToDate

section Failed

/-- Two topics with data, requested in the other order; the connection drops after the first
snapshot and is resumed with its number. -/
def sampleChain : List ChainAction :=
  [.system (.fetchSuccess "users" [1] 10), .system (.fetchSuccess "stats" [2] 20),
    .connect, .system (.replay 0), .system (.write 0), .deliver, .drop,
    .connect, .system (.replay 1)]

/-- The users are never sent: the ring covers the number, and nothing comes after it. -/
theorem sampleChain_not_upToDate :
    ¬(after (chainStep sampleConfig ["stats", "users"]) (initialWorld sampleTopics)
      sampleChain).UpToDate sampleConfig ["stats", "users"] := by
  intro upToDate
  rcases upToDate 1 rfl _ rfl rfl (by decide) "users" (by decide) (by decide) with
    ⟨frame, received, -⟩
  have nothing : latestData (after (chainStep sampleConfig ["stats", "users"])
      (initialWorld sampleTopics) sampleChain).client.received "users" = none := by decide
  rw [nothing] at received
  cases received

/-- With both snapshots received before the drop, the resumed client has missed nothing. -/
theorem sampleChain_after_snapshots_upToDate :
    (after (chainStep sampleConfig ["stats", "users"]) (initialWorld sampleTopics)
      [.system (.fetchSuccess "users" [1] 10), .system (.fetchSuccess "stats" [2] 20),
        .connect, .system (.replay 0), .system (.write 0), .deliver, .system (.write 0),
        .deliver, .drop, .connect, .system (.replay 1)]).UpToDate sampleConfig
      ["stats", "users"] := by
  apply resumed_chain_upToDate
  simp only [Permitted, and_true]
  refine ⟨by simp, by simp, by simp, by simp, by simp, by simp, by simp, by simp, ?_, by simp,
    by simp⟩
  intro _ id current stream found
  cases current
  cases found
  right
  right
  intro last _ copy member
  cases member

end Failed

end Run

end TelemtPanel.Events
