import TelemtPanel.Events.Hub

/-!
# Cached snapshots

The cache of a topic answers a new subscriber.  It holds the topic's last event that
carried data, renewed in place whenever a fetch returns data with the same key.
-/

namespace TelemtPanel.Events

open Library

/-- The last event of a topic. -/
def latestEvent (log : List Event) (name : String) : Option Event :=
  (log.filter fun ev => decide (ev.topic = name)).getLast?

/-- The last event of a topic that carried data. -/
def latestData (log : List Event) (name : String) : Option Event :=
  (log.filter fun ev => decide (ev.topic = name) && decide (ev.err = "")).getLast?

/-- A copy of an event, with data of the same key. -/
structure Renews (config : Config) (ev copy : Event) : Prop where
  seq : copy.seq = ev.seq
  topic : copy.topic = ev.topic
  err : copy.err = ""
  key : config.diffKey ev.topic copy.data = config.diffKey ev.topic ev.data

/-- Snapshots of the topics, in the order in which they were requested. -/
def SnapshotsOf (config : Config) (log : List Event) (topics : List String)
    (snapshots : List Event) : Prop :=
  List.Forall₂ (Renews config) (topics.filterMap (latestData log)) snapshots

section Latest

variable {log : List Event}

theorem latestData_append_of_data {ev : Event} (data : ev.err = "") :
    latestData (log ++ [ev]) ev.topic = some ev := by
  simp [latestData, List.filter_append, data]

theorem latestData_append_of_other {ev : Event} {name : String}
    (other : ev.topic ≠ name ∨ ev.err ≠ "") :
    latestData (log ++ [ev]) name = latestData log name := by
  have skipped : (decide (ev.topic = name) && decide (ev.err = "")) = false := by
    rcases other with topic | err
    · simp [topic]
    · simp [err]
  simp [latestData, List.filter_append, skipped]

theorem mem_of_latestData {name : String} {ev : Event} (latest : latestData log name = some ev) :
    ev ∈ log ∧ ev.topic = name ∧ ev.err = "" := by
  have member := List.mem_of_getLast? latest
  simpa using member

/-- No data event of the topic comes after the latest one. -/
theorem le_latestData (sorted : log.Pairwise fun earlier later => earlier.seq < later.seq)
    {name : String} {ev : Event} (latest : latestData log name = some ev) {other : Event}
    (member : other ∈ log) (topic : other.topic = name) (data : other.err = "") :
    other.seq ≤ ev.seq := by
  have sorted := sorted.filter fun ev => decide (ev.topic = name) && decide (ev.err = "")
  rcases List.getLast?_eq_some_iff.mp latest with ⟨earlier, split⟩
  have listed : other ∈ log.filter
      fun ev => decide (ev.topic = name) && decide (ev.err = "") := by
    simp [member, topic, data]
  rw [split] at sorted listed
  rcases List.mem_append.mp listed with early | last
  · exact Nat.le_of_lt ((List.pairwise_append.mp sorted).2.2 other early ev (by simp))
  · rw [List.mem_singleton.mp last]

theorem latestData_append (log later : List Event) (name : String) :
    latestData (log ++ later) name = (latestData later name).or (latestData log name) := by
  rw [latestData, List.filter_append, List.getLast?_append]
  rfl

theorem exists_latestData {name : String} {ev : Event} (member : ev ∈ log)
    (topic : ev.topic = name) (data : ev.err = "") : ∃ last, latestData log name = some last := by
  have listed : ev ∈ log.filter fun ev => decide (ev.topic = name) && decide (ev.err = "") := by
    simp [member, topic, data]
  exact ⟨_, List.getLast?_eq_some_getLast (List.ne_nil_of_mem listed)⟩

theorem latestData_eq_none {name : String}
    (nothing : ∀ ev ∈ log, ev.topic = name → ev.err ≠ "") : latestData log name = none := by
  cases latest : latestData log name with
  | none => rfl
  | some ev =>
      rcases mem_of_latestData latest with ⟨member, topic, data⟩
      exact absurd data (nothing ev member topic)

/-- The latest data was already the latest when it had been published. -/
theorem latestData_take (numbered : Numbered Event.seq log) {name : String} {ev : Event}
    (latest : latestData log name = some ev) {count : ℕ} (published : ev.seq ≤ count) :
    latestData (log.take count) name = some ev := by
  have later : latestData (log.drop count) name = none := by
    apply latestData_eq_none
    intro other member topic data
    have late := numbered.lt_of_mem_drop member
    have bound := le_latestData numbered.pairwise latest (List.mem_of_mem_drop member) topic data
    omega
  rw [← List.take_append_drop count log, latestData_append, later] at latest
  exact latest

end Latest

section Cache

variable {config : Config} {log : List Event} {hub : Hub}

/-- The cache of a topic holds its latest data. -/
structure Cached (config : Config) (log : List Event) (name : String) (cache : TopicCache) :
    Prop where
  empty : cache.hasData = false → latestData log name = none
  full : cache.hasData = true → ∃ ev, latestData log name = some ev ∧
    Renews config ev cache.lastEvent ∧ cache.lastKey = config.diffKey name ev.data ∧
      cache.lastEvent.data = cache.lastData

def AllCached (config : Config) (log : List Event) (hub : Hub) : Prop :=
  ∀ name cache, hub.cache name = some cache → Cached config log name cache

theorem AllCached.of_same (cached : AllCached config log hub) {other : Hub}
    (same : ∀ name, other.cache name = hub.cache name) : AllCached config log other := by
  intro name cache stored
  rw [same] at stored
  exact cached name cache stored

/-- An event that carries no data changes no cache. -/
theorem AllCached.append_error (cached : AllCached config log hub) {ev : Event}
    (failed : ev.err ≠ "") : AllCached config (log ++ [ev]) hub := by
  intro name cache stored
  have known := cached name cache stored
  have unchanged := @latestData_append_of_other log ev name (.inr failed)
  exact ⟨fun none => unchanged.trans (known.empty none), by rw [unchanged]; exact known.full⟩

theorem setTopic_cache (name other : String) (state : TopicState) :
    (setTopic hub name state).cache other =
      if other = name then some state.cache else hub.cache other := by
  by_cases same : other = name
  · subst same
    simp [setTopic, Hub.cache]
  · simp [setTopic, Hub.cache, same]

/-- New data is cached together with its event. -/
theorem AllCached.append_data (cached : AllCached config log hub) {ev : Event}
    (data : ev.err = "") {state : TopicState}
    (stored : state.cache =
      { hasData := true, lastData := ev.data, lastKey := config.diffKey ev.topic ev.data
        lastEvent := ev }) :
    AllCached config (log ++ [ev]) (setTopic hub ev.topic state) := by
  intro name cache known
  rw [setTopic_cache] at known
  by_cases same : name = ev.topic
  · rw [if_pos same, Option.some_inj, stored] at known
    subst same known
    refine ⟨Bool.noConfusion, fun _ => ?_⟩
    exact ⟨ev, latestData_append_of_data data, ⟨rfl, rfl, data, rfl⟩, rfl, rfl⟩
  · rw [if_neg same] at known
    have unchanged := @latestData_append_of_other log ev name (.inl (Ne.symm same))
    have before := cached name cache known
    exact ⟨fun none => unchanged.trans (before.empty none), by rw [unchanged]; exact before.full⟩

/-- Data with the cached key takes the place of the cached data. -/
theorem AllCached.renew (cached : AllCached config log hub) {name : String} {data : Bytes}
    {ts : ℤ} {old new : TopicState} (known : hub.topics name = some old)
    (hasData : old.hasData = true) (sameKey : old.lastKey = config.diffKey name data)
    (stored : new.cache =
      { hasData := true, lastData := data, lastKey := old.lastKey
        lastEvent := { old.lastEvent with data := data, ts := ts } }) :
    AllCached config log (setTopic hub name new) := by
  intro other cache found
  rw [setTopic_cache] at found
  by_cases same : other = name
  · rw [if_pos same, Option.some_inj, stored] at found
    subst same found
    have before := cached other old.cache (by simp [Hub.cache, known])
    rcases before.full hasData with ⟨ev, latest, renews, key, -⟩
    have topic := (mem_of_latestData latest).2.1
    refine ⟨Bool.noConfusion, fun _ => ?_⟩
    refine ⟨ev, latest, ⟨renews.seq, renews.topic, renews.err, ?_⟩, key, rfl⟩
    rw [topic]
    exact sameKey.symm.trans key
  · rw [if_neg same] at found
    exact cached other cache found

end Cache

section Fetch

variable {config : Config} {hub : Hub} {name : String} {data : Bytes} {ts : ℤ}

/-- What a successful fetch can do: nothing, publish the data, or renew the cache. -/
theorem recordFetchSuccess_cases (config : Config) (hub : Hub) (name : String) (data : Bytes)
    (ts : ℤ) :
    recordFetchSuccess config hub name data ts = (hub, []) ∨
      (∃ ev state, ev.seq = hub.seq + 1 ∧ ev.topic = name ∧ ev.err = "" ∧
        state.cache = { hasData := true, lastData := ev.data
                        lastKey := config.diffKey ev.topic ev.data, lastEvent := ev } ∧
        recordFetchSuccess config hub name data ts =
          (emit config (setTopic hub ev.topic state) ev, [ev])) ∨
      ∃ old new, hub.topics name = some old ∧ old.hasData = true ∧
        old.lastKey = config.diffKey name data ∧
        new.cache = { hasData := true, lastData := data, lastKey := old.lastKey
                      lastEvent := { old.lastEvent with data := data, ts := ts } } ∧
        recordFetchSuccess config hub name data ts = (setTopic hub name new, []) := by
  unfold recordFetchSuccess
  cases found : hub.topics name with
  | none => exact .inl rfl
  | some state =>
      right
      by_cases same : (state.hasData && state.lastKey == config.diffKey name data) = true
      · have parts := Bool.and_eq_true_iff.mp same
        have sameKey : state.lastKey = config.diffKey name data := by simpa using parts.2
        by_cases waiting : state.fullPending = true
        · left
          refine ⟨_, _, rfl, rfl, rfl, ?_, by simp only [same, waiting, if_true]; rfl⟩
          simp [TopicState.cache, parts.1, sameKey]
        · right
          refine ⟨state, _, rfl, parts.1, sameKey, ?_, by simp only [same, waiting, if_true]; rfl⟩
          simp [TopicState.cache, parts.1]
      · left
        refine ⟨_, _, rfl, rfl, rfl, ?_, by simp only [same]; rfl⟩
        rfl

theorem recordFetchError_cases (config : Config) (hub : Hub) (name : String) (ts : ℤ) :
    recordFetchError config hub name ts = (hub, []) ∨
      ∃ ev, ev.seq = hub.seq + 1 ∧ ev.topic = name ∧ ev.err ≠ "" ∧
        recordFetchError config hub name ts = (emit config hub ev, [ev]) := by
  unfold recordFetchError
  cases hub.topics name with
  | none => exact .inl rfl
  | some state => exact .inr ⟨_, rfl, rfl, by simp [sourceErrorCode], rfl⟩

end Fetch

section Subscribe

variable {config : Config} {log : List Event} {hub : Hub}

/-- The cached event of a topic. -/
def Hub.snapshot (hub : Hub) (name : String) : Option Event :=
  (hub.cache name).bind fun cache => if cache.hasData then some cache.lastEvent else none

/-- Some requested topics have been joined, and nothing else has happened. -/
structure Joined (hub : Hub) (asked : List String) (progress : Hub × List String × List Event) :
    Prop where
  store : SameStore hub progress.1
  subscribers : progress.1.subscribers = hub.subscribers
  channels : progress.1.channels = hub.channels
  wanted : ∀ name, name ∈ progress.2.1 ↔ name ∈ asked ∧ (hub.cache name).isSome
  snapshots : progress.2.2 = progress.2.1.filterMap hub.snapshot

theorem Joined.joinTopic {asked : List String} {progress : Hub × List String × List Event}
    (joined : Joined hub asked progress) (name : String) :
    Joined hub (asked ++ [name]) (joinTopic progress name) := by
  have known : (progress.1.topics name).isSome = (hub.cache name).isSome := by
    rw [← joined.store.cache]
    simp [Hub.cache]
  have skipped (reason : name ∈ progress.2.1 ∨ (hub.cache name).isSome = false) (other : String) :
      other ∈ progress.2.1 ↔ other ∈ asked ++ [name] ∧ (hub.cache other).isSome := by
    rw [joined.wanted, List.mem_append, List.mem_singleton]
    constructor
    · exact fun member => ⟨.inl member.1, member.2⟩
    · rintro ⟨member | rfl, found⟩
      · exact ⟨member, found⟩
      · rcases reason with again | unknown
        · exact (joined.wanted other).mp again
        · simp [unknown] at found
  unfold Events.joinTopic
  split
  · rename_i again
    exact ⟨joined.store, joined.subscribers, joined.channels, skipped (.inl again),
      joined.snapshots⟩
  · split
    · rename_i unknown
      rw [unknown] at known
      exact ⟨joined.store, joined.subscribers, joined.channels, skipped (.inr known.symm),
        joined.snapshots⟩
    · rename_i state found
      have cached : hub.cache name = some state.cache := by
        rw [← joined.store.cache]
        simp [Hub.cache, found]
      refine ⟨⟨joined.store.seq, joined.store.ring, joined.store.nextSubID, ?_⟩,
        joined.subscribers, joined.channels, ?_, ?_⟩
      · intro other
        rw [setTopic_cache]
        split
        · rename_i same
          rw [same, cached]
          rfl
        · exact joined.store.cache other
      · intro other
        rw [List.mem_append, joined.wanted, List.mem_append, List.mem_singleton]
        constructor
        · rintro (⟨member, stored⟩ | rfl)
          · exact ⟨.inl member, stored⟩
          · exact ⟨.inr rfl, by simp [cached]⟩
        · rintro ⟨member | rfl, stored⟩
          · exact .inl ⟨member, stored⟩
          · exact .inr rfl
      · have snapshot : hub.snapshot name =
            if state.hasData then some state.lastEvent else none := by
          simp [Hub.snapshot, cached, TopicState.cache]
        rw [List.filterMap_append, ← joined.snapshots]
        cases hasData : state.hasData with
        | true => simp [snapshot, hasData]
        | false => simp [snapshot, hasData]

theorem Joined.foldl (names : List String) {asked : List String}
    {progress : Hub × List String × List Event} (joined : Joined hub asked progress) :
    Joined hub (asked ++ names) (names.foldl Events.joinTopic progress) := by
  induction names generalizing asked progress with
  | nil => simpa using joined
  | cons name names ih =>
      have rest := ih (joined.joinTopic name)
      rwa [List.append_assoc] at rest

theorem joined_start (hub : Hub) : Joined hub [] (hub, [], []) :=
  ⟨.refl hub, rfl, rfl, fun _ => by simp, rfl⟩

/-- What a subscription does. -/
structure Subscribed (hub : Hub) (topics : List String)
    (result : Hub × ℕ × List String × List Event) : Prop where
  id : result.2.1 = hub.nextSubID
  seq : result.1.seq = hub.seq
  ring : result.1.ring = hub.ring
  nextSubID : result.1.nextSubID = hub.nextSubID + 1
  cache : ∀ name, result.1.cache name = hub.cache name
  subscribers : result.1.subscribers =
    hub.subscribers ++ [{ id := result.2.1, topics := result.2.2.1 }]
  channels : result.1.channels =
    Function.update hub.channels result.2.1 { buffer := [], closed := false }
  known : ∀ name ∈ result.2.2.1, (hub.cache name).isSome
  wanted : ∀ name, name ∈ result.2.2.1 ↔ name ∈ topics
  snapshots : result.2.2.2 = result.2.2.1.filterMap hub.snapshot

theorem subscribe_spec {topics : List String} {result : Hub × ℕ × List String × List Event}
    (accepted : subscribe hub topics = some result) : Subscribed hub topics result := by
  have joined := (joined_start hub).foldl topics
  unfold subscribe at accepted
  split at accepted
  · cases accepted
  · rename_i valid
    cases Option.some_inj.mp accepted
    have all : ∀ name ∈ topics, (hub.cache name).isSome := by
      intro name member
      by_contra unknown
      apply valid
      right
      simp only [List.any_eq_true]
      refine ⟨name, member, ?_⟩
      simpa [Hub.cache] using unknown
    refine ⟨rfl, joined.store.seq, joined.store.ring, rfl, joined.store.cache, rfl, rfl, ?_, ?_,
      joined.snapshots⟩
    · intro name member
      exact ((joined.wanted name).mp member).2
    · intro name
      rw [joined.wanted]
      exact ⟨And.left, fun member => ⟨member, all name member⟩⟩

/-- A subscriber first gets the latest data of its topics. -/
theorem AllCached.snapshotsOf (cached : AllCached config log hub) {topics : List String}
    (known : ∀ name ∈ topics, (hub.cache name).isSome) :
    SnapshotsOf config log topics (topics.filterMap hub.snapshot) := by
  induction topics with
  | nil => exact .nil
  | cons name topics ih =>
      rcases List.forall_mem_cons.mp known with ⟨first, rest⟩
      rcases Option.isSome_iff_exists.mp first with ⟨cache, stored⟩
      have before := cached name cache stored
      have later := ih rest
      unfold SnapshotsOf at later ⊢
      cases hasData : cache.hasData with
      | false =>
          have nothing : hub.snapshot name = none := by simp [Hub.snapshot, stored, hasData]
          rw [List.filterMap_cons_none nothing, List.filterMap_cons_none (before.empty hasData)]
          exact later
      | true =>
          rcases before.full hasData with ⟨ev, latest, renews, -⟩
          have copy : hub.snapshot name = some cache.lastEvent := by
            simp [Hub.snapshot, stored, hasData]
          rw [List.filterMap_cons_some copy, List.filterMap_cons_some latest]
          exact .cons renews later

end Subscribe

end TelemtPanel.Events
