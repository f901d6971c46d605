import TelemtPanel.Events.Delivery
import TelemtPanel.Events.DiffKey

/-!
# Push on change

The hub compares the key of fetched data with the key of the data that it fetched before.  It
publishes the data if the keys differ, if it is the first data of its topic, or if a first
subscriber waits for a full projection.

The hub handles texts.  Of `encoding/json` it is relied on that a payload's text is determined by
its tree and that the text of a decoded value reads back.
-/

namespace TelemtPanel.Events

open Library

section Texts

/-- `encoding/json`: the tree of a text, and the text of a decoded value. -/
structure Json where
  read : Bytes → Payload
  write : Doc Scalar → Bytes

/-- The key of a text. -/
def Json.diffKey (json : Json) (topic : String) (data : Bytes) : Bytes :=
  match Events.diffKey topic (json.read data) with
  | .raw _ => data
  | .normalized value => json.write value

/-- A hub that compares these keys. -/
def Json.config (json : Json) (settings : Config) : Config :=
  { settings with diffKey := json.diffKey }

/-- What is relied on for some texts of a topic. -/
structure Json.Faithful (json : Json) (topic : String) (texts : List Bytes) : Prop where
  read : ∀ first ∈ texts, ∀ second ∈ texts, json.read first = json.read second → first = second
  write : ∀ data ∈ texts, ∀ value, Events.diffKey topic (json.read data) = .normalized value →
    unmarshal (json.read (json.write value)) = some value

variable {topic : String}

/-- A key that is the data itself belongs to data that cannot be decoded. -/
theorem unmarshal_of_raw (polled : topic ≠ "users") {data kept : Payload}
    (key : diffKey topic data = .raw kept) : kept = data ∧ unmarshal data = none := by
  rw [diffKey, if_neg polled] at key
  split at key
  · rename_i failed
    cases key
    exact ⟨rfl, failed⟩
  · cases key

theorem Json.diffKey_of_raw {json : Json} {data : Bytes} {kept : Payload}
    (key : Events.diffKey topic (json.read data) = .raw kept) : json.diffKey topic data = data := by
  rw [Json.diffKey, key]

theorem Json.diffKey_of_normalized {json : Json} {data : Bytes} {value : Doc Scalar}
    (key : Events.diffKey topic (json.read data) = .normalized value) :
    json.diffKey topic data = json.write value := by
  rw [Json.diffKey, key]

/-- Texts have the same key exactly when their payloads have. -/
theorem Json.Faithful.diffKey_eq_iff {json : Json} {first second : Bytes}
    (polled : topic ≠ "users") (faithful : json.Faithful topic [first, second]) :
    json.diffKey topic first = json.diffKey topic second ↔
      Events.diffKey topic (json.read first) = Events.diffKey topic (json.read second) := by
  have writeFirst := faithful.write first (by simp)
  have writeSecond := faithful.write second (by simp)
  cases one : Events.diffKey topic (json.read first) with
  | raw kept =>
      rcases unmarshal_of_raw polled one with ⟨rfl, failed⟩
      rw [Json.diffKey_of_raw one]
      cases two : Events.diffKey topic (json.read second) with
      | raw other =>
          rcases unmarshal_of_raw polled two with ⟨rfl, -⟩
          rw [Json.diffKey_of_raw two, Key.raw.injEq]
          exact ⟨congrArg json.read, faithful.read first (by simp) second (by simp)⟩
      | normalized value =>
          rw [Json.diffKey_of_normalized two]
          refine iff_of_false ?_ Key.noConfusion
          intro same
          have reads := writeSecond value two
          rw [← same, failed] at reads
          cases reads
  | normalized value =>
      rw [Json.diffKey_of_normalized one]
      cases two : Events.diffKey topic (json.read second) with
      | raw other =>
          rcases unmarshal_of_raw polled two with ⟨rfl, failed⟩
          rw [Json.diffKey_of_raw two]
          refine iff_of_false ?_ Key.noConfusion
          intro same
          have reads := writeFirst value one
          rw [same, failed] at reads
          cases reads
      | normalized other =>
          rw [Json.diffKey_of_normalized two, Key.normalized.injEq]
          refine ⟨?_, congrArg json.write⟩
          intro same
          have reads := writeFirst value one
          rw [same, writeSecond other two] at reads
          exact (Option.some.inj reads).symm

end Texts

section Fetch

variable (config : Config) {hub : Hub} {topic : String}

/-- A successful fetch publishes its data. -/
def Publishes (hub : Hub) (topic : String) (data : Bytes) (ts : ℤ) : Prop :=
  ∃ ev, (recordFetchSuccess config hub topic data ts).2 = [ev] ∧ ev.topic = topic ∧ ev.data = data

/-- A first subscriber waits for a full projection. -/
def Hub.hydrating (hub : Hub) (topic : String) : Bool :=
  (hub.topics topic).any TopicState.fullPending

/-- Data is published unless it has the key of the cached data and nobody waits. -/
theorem publishes_iff {state : TopicState} (known : hub.topics topic = some state)
    (data : Bytes) (ts : ℤ) :
    Publishes config hub topic data ts ↔
      state.hasData = false ∨ state.lastKey ≠ config.diffKey topic data ∨
        hub.hydrating topic = true := by
  have waits : hub.hydrating topic = state.fullPending := by simp [Hub.hydrating, known]
  rw [waits]
  unfold Publishes recordFetchSuccess
  rw [known]
  simp only
  split
  · rename_i same
    rw [Bool.and_eq_true, beq_iff_eq] at same
    split
    · rename_i waiting
      simp [waiting]
    · rename_i settled
      simp [same.1, same.2, settled]
  · rename_i differ
    simp only [Bool.and_eq_true, beq_iff_eq, not_and] at differ
    refine iff_of_true ⟨_, rfl, rfl, rfl⟩ ?_
    cases hasData : state.hasData with
    | false => exact .inl rfl
    | true => exact .inr (.inl (differ hasData))

/-- The cached data of a topic. -/
def Hub.Holds (hub : Hub) (topic : String) (data : Bytes) : Prop :=
  ∃ cache, hub.cache topic = some cache ∧ cache.hasData = true ∧ cache.lastData = data

theorem holds_fetchSuccess (known : (hub.cache topic).isSome) (data : Bytes) (ts : ℤ) :
    (recordFetchSuccess config hub topic data ts).1.Holds topic data := by
  unfold recordFetchSuccess
  cases found : hub.topics topic with
  | none => simp [Hub.cache, found] at known
  | some state =>
      simp only
      split
      · rename_i same
        have hasData := (Bool.and_eq_true_iff.mp same).1
        split
        · refine ⟨_, (emit_cache topic).trans ((setTopic_cache ..).trans (if_pos rfl)), ?_⟩
          exact ⟨hasData, rfl⟩
        · exact ⟨_, (setTopic_cache ..).trans (if_pos rfl), hasData, rfl⟩
      · exact ⟨_, (emit_cache topic).trans ((setTopic_cache ..).trans (if_pos rfl)), rfl, rfl⟩

end Fetch

section Runs

variable {config : Config} {topic : String}

/-- The topic of a successful fetch. -/
def Action.fetched : Action → Option String
  | .fetchSuccess topic _ _ => some topic
  | _ => none

theorem endStream_cache (system : System) (id : ℕ) (stream : Stream) (name : String) :
    (system.endStream id stream).hub.cache name = system.hub.cache name :=
  (unsubscribe_sameStore id).cache name

theorem stepStream_cache {system : System} (id : ℕ) (phase : Phase) {next : Stream → System}
    (keeps : ∀ stream, (next stream).hub.cache topic = system.hub.cache topic) :
    (system.stepStream id phase next).hub.cache topic = system.hub.cache topic := by
  unfold System.stepStream
  split
  · rfl
  · split
    · exact keeps _
    · rfl

theorem receive_cache (system : System) (id : ℕ) (stream : Stream) (name : String) :
    (system.receive id stream).hub.cache name = system.hub.cache name := by
  unfold System.receive
  split
  · rfl
  · split
    · exact endStream_cache ..
    · rfl

/-- Nothing but a successful fetch changes what is cached. -/
theorem step_cache {action : Action} (other : action.fetched ≠ some topic) (system : System) :
    (step config system action).hub.cache topic = system.hub.cache topic := by
  cases action with
  | fetchSuccess name data ts =>
      have different : topic ≠ name := fun same => other (congrArg some same.symm)
      simp only [step, System.publish]
      rcases recordFetchSuccess_cases config system.hub name data ts with
        nothing | ⟨ev, state, -, isTopic, -, -, result⟩ | ⟨old, new, -, -, -, -, result⟩
      · rw [nothing]
      · rw [result, emit_cache, setTopic_cache, isTopic, if_neg different]
      · rw [result, setTopic_cache, if_neg different]
  | fetchError name ts =>
      simp only [step, System.publish]
      rcases recordFetchError_cases config system.hub name ts with nothing | ⟨ev, -, -, -, result⟩
      · rw [nothing]
      · rw [result, emit_cache]
  | connect topics lastEventID =>
      simp only [step]
      split
      · rfl
      · rename_i accepted
        exact (subscribe_spec accepted).cache topic
  | replay id => exact stepStream_cache id _ fun _ => rfl
  | write id => exact stepStream_cache id _ fun _ => rfl
  | receive id => exact stepStream_cache id _ fun stream => receive_cache system id stream topic
  | finish id =>
      simp only [step]
      split
      · rfl
      · exact endStream_cache ..

/-- A topic stays known. -/
theorem step_known (system : System) (action : Action)
    (known : (system.hub.cache topic).isSome) :
    ((step config system action).hub.cache topic).isSome := by
  by_cases fetched : action.fetched = some topic
  · cases action with
    | fetchSuccess name data ts =>
        cases fetched
        rcases holds_fetchSuccess config known data ts with ⟨cache, stored, -⟩
        exact Option.isSome_iff_exists.mpr ⟨cache, stored⟩
    | _ => cases fetched
  · rwa [step_cache fetched]

theorem known_after {topics : String → Option Bool} (known : (topics topic).isSome)
    (actions : List Action) :
    ((after (step config) (initialSystem topics) actions).hub.cache topic).isSome :=
  always_after (fun system action => step_known system action)
    (by simpa [initialSystem, Hub.cache] using known) actions

/-- While a topic is not fetched its cache stays. -/
theorem cache_after {actions : List Action}
    (quiet : ∀ action ∈ actions, action.fetched ≠ some topic) (system : System) :
    (after (step config) system actions).hub.cache topic = system.hub.cache topic := by
  have stays : ∀ state action, state.hub.cache topic = system.hub.cache topic →
      action.fetched ≠ some topic →
      (step config state action).hub.cache topic = system.hub.cache topic := by
    intro state action same other
    rw [step_cache other, same]
  exact invariant_after stays rfl (permitted_of_forall quiet)

/-- The data of a fetch is cached until the next one. -/
theorem holds_after {topics : String → Option Bool} (known : (topics topic).isSome)
    (actions : List Action) {between : List Action}
    (quiet : ∀ action ∈ between, action.fetched ≠ some topic) (data : Bytes) (ts : ℤ) :
    (after (step config) (initialSystem topics)
      (actions ++ .fetchSuccess topic data ts :: between)).hub.Holds topic data := by
  rw [after_append, after_cons, Hub.Holds, cache_after quiet]
  exact holds_fetchSuccess config (known_after known actions) data ts

/-- No data is cached before the first fetch. -/
theorem hasData_after (topics : String → Option Bool) {actions : List Action}
    (quiet : ∀ action ∈ actions, action.fetched ≠ some topic) {cache : TopicCache}
    (stored : (after (step config) (initialSystem topics) actions).hub.cache topic = some cache) :
    cache.hasData = false := by
  rw [cache_after quiet] at stored
  simp only [initialSystem, Hub.cache, Option.map_map, Option.map_eq_some_iff] at stored
  rcases stored with ⟨historyFetch, -, rfl⟩
  rfl

/-- The cached key is that of the cached data. -/
theorem Sound.lastKey {system : System} (sound : Sound config system) {data : Bytes}
    {state : TopicState} (known : system.hub.topics topic = some state)
    (holds : system.hub.Holds topic data) :
    state.hasData = true ∧ state.lastKey = config.diffKey topic data := by
  rcases holds with ⟨cache, stored, hasData, rfl⟩
  have isCache : cache = state.cache := by
    have mapped := stored
    simp only [Hub.cache, known, Option.map_some, Option.some_inj] at mapped
    exact mapped.symm
  rcases (sound.cached topic cache stored).full hasData with ⟨ev, latest, renews, key, copy⟩
  rcases mem_of_latestData latest with ⟨-, isTopic, -⟩
  have renewed := renews.key
  rw [isTopic, copy] at renewed
  subst isCache
  exact ⟨hasData, key.trans renewed.symm⟩

/-- Of two successive payloads the second one is published if the keys differ or somebody waits. -/
theorem publishes_after (settings : Config) {json : Json} {topics : String → Option Bool}
    (polled : topic ≠ "users") (known : (topics topic).isSome) (actions : List Action)
    {between : List Action} (quiet : ∀ action ∈ between, action.fetched ≠ some topic)
    {first second : Bytes} (faithful : json.Faithful topic [first, second]) (earlier now : ℤ) :
    let hub := (after (step (json.config settings)) (initialSystem topics)
      (actions ++ .fetchSuccess topic first earlier :: between)).hub
    Publishes (json.config settings) hub topic second now ↔
      Events.diffKey topic (json.read first) ≠ Events.diffKey topic (json.read second) ∨
        hub.hydrating topic = true := by
  intro hub
  have sound := sound_after (json.config settings) topics
    (actions ++ .fetchSuccess topic first earlier :: between)
  have holds := @holds_after (json.config settings) _ _ known actions _ quiet first earlier
  rcases holds with ⟨cache, stored, -⟩
  rcases Option.map_eq_some_iff.mp stored with ⟨state, isState, -⟩
  rcases sound.lastKey isState (holds_after known actions quiet first earlier) with
    ⟨hasData, isKey⟩
  have keys := faithful.diffKey_eq_iff polled
  rw [publishes_iff _ isState, hasData, isKey, ne_eq, ne_eq, ← keys]
  simp only [Bool.true_eq_false, false_or]
  exact Iff.rfl

/-- The first payload of a topic is published. -/
theorem publishes_first {topics : String → Option Bool} (known : (topics topic).isSome)
    {actions : List Action} (quiet : ∀ action ∈ actions, action.fetched ≠ some topic)
    (data : Bytes) (now : ℤ) :
    Publishes config (after (step config) (initialSystem topics) actions).hub topic data now := by
  rcases Option.isSome_iff_exists.mp (@known_after config _ _ known actions) with
    ⟨cache, stored⟩
  rcases Option.map_eq_some_iff.mp stored with ⟨state, isState, rfl⟩
  rw [publishes_iff config isState]
  exact .inl (hasData_after topics quiet stored)

end Runs

section Noise

variable {topic : String}

/-- A run of the hub that fetches one payload of a topic after another. -/
structure Refetch (topic : String) (a b : Payload) where
  json : Json
  settings : Config
  topics : String → Option Bool
  before : List Action
  previous : Bytes
  earlier : ℤ
  between : List Action
  next : Bytes
  known : (topics topic).isSome
  quiet : ∀ action ∈ between, action.fetched ≠ some topic
  readPrevious : json.read previous = a
  readNext : json.read next = b
  faithful : json.Faithful topic [previous, next]

variable {a b : Payload}

/-- The hub before the second fetch. -/
def Refetch.hub (run : Refetch topic a b) : Hub :=
  (after (step (run.json.config run.settings)) (initialSystem run.topics)
    (run.before ++ .fetchSuccess topic run.previous run.earlier :: run.between)).hub

def Refetch.hydrating (run : Refetch topic a b) : Bool := run.hub.hydrating topic

/-- The second payload is published. -/
def Refetch.Publishes (run : Refetch topic a b) (now : ℤ) : Prop :=
  Events.Publishes (run.json.config run.settings) run.hub topic run.next now

theorem Refetch.publishes_iff (polled : topic ≠ "users") (run : Refetch topic a b) (now : ℤ) :
    run.Publishes now ↔ diffKey topic a ≠ diffKey topic b ∨ run.hydrating = true := by
  have published := publishes_after run.settings polled run.known run.before run.quiet
    run.faithful run.earlier now
  rw [run.readPrevious, run.readNext] at published
  exact published

/-- Push on change.  Keys are equal exactly when the payloads are up to the volatile fields, if
they are distinguishable.  Of two successive payloads that are, the second one is published if
they differ outside of the volatile fields or a first subscriber waits, so that while one waits a
change of volatile fields is published as well.  The first payload of a topic is published. -/
theorem pushOnChange_iff (polled : topic ≠ "users") (a b : Payload) :
    ((diffKey topic a = diffKey topic b ↔ settled topic a = settled topic b) ↔
        Distinguishable topic a b) ∧
      (∀ (run : Refetch topic a b) (now : ℤ),
        (Distinguishable topic a b →
            (run.Publishes now ↔ settled topic a ≠ settled topic b ∨ run.hydrating = true)) ∧
          ((run.Publishes now ↔ settled topic a ≠ settled topic b) ↔
            if run.hydrating = true then settled topic a ≠ settled topic b
            else Distinguishable topic a b)) ∧
      ∀ (config : Config) (topics : String → Option Bool) (actions : List Action),
        (topics topic).isSome → (∀ action ∈ actions, action.fetched ≠ some topic) →
          ∀ (data : Bytes) (now : ℤ), Publishes config
            (after (step config) (initialSystem topics) actions).hub topic data now := by
  have keys := diffKey_eq_iff polled a b
  refine ⟨keys, ?_, ?_⟩
  · intro run now
    rw [run.publishes_iff polled now]
    constructor
    · intro distinguishable
      rw [ne_eq, ne_eq, keys.mpr distinguishable]
    · split
      · rename_i waiting
        simp [waiting]
      · rename_i settled
        simp only [settled, or_false, Bool.false_eq_true]
        rw [← keys]
        exact not_iff_not
  · intro config topics actions known quiet data now
    exact publishes_first known quiet data now

/-- The text of a payload with one counter. -/
def counterText (value : ℕ) : Bytes :=
  ("\x7b\"connections_total\":" ++ toString value ++ "\x7d").toUTF8.toList

def counterJson : Json where
  read text := if text = counterText 2 then counter 2 else counter 1
  write
    | .table [(_, .leaf (.number number))] => counterText number.magnitude.num.natAbs
    | _ => []

theorem diffKey_counter_of_grid {value : ℕ} (grid : Binary64.onGrid value = value)
    (inRange : (value : ℚ) < 2 ^ 1024) :
    diffKey "stats" (counter value) = .normalized (settled "stats" (counter value)) ∧
      unmarshal (counter value) = some (settled "stats" (counter value)) := by
  have all : (counter value).all Literal.inRange = true := by
    simp only [counter, Doc.all, Doc.allFields, Literal.inRange, grid, Nat.abs_cast, inRange,
      decide_true, Bool.and_true]
  have same : (settled "stats" (counter value)).map Scalar.any =
      settled "stats" (counter value) := by
    simp only [settled_counter, Doc.map, Doc.mapFields, Scalar.any, grid]
  constructor
  · rw [diffKey_inRange (by decide) all, same]
  · rw [unmarshal, if_pos all, settled_counter]
    simp only [counter, Doc.map, Doc.mapFields, Literal.value, Scalar.any, grid, Doc.canonical,
      Doc.canonicalFields, Doc.insertField]

theorem counterJson_write (value : ℕ) :
    counterJson.write (settled "stats" (counter value)) = counterText value := by
  rw [settled_counter]
  simp [counterJson]

theorem counterJson_faithful : counterJson.Faithful "stats" [counterText 1, counterText 2] := by
  have one := @diffKey_counter_of_grid 1 (by decide +kernel) (by decide +kernel)
  have two := @diffKey_counter_of_grid 2 (by decide +kernel) (by decide +kernel)
  have readOne : counterJson.read (counterText 1) = counter 1 := if_neg (by decide +kernel)
  have readTwo : counterJson.read (counterText 2) = counter 2 := if_pos rfl
  have differ : counter 1 ≠ counter 2 := by simp [counter]
  constructor
  · intro first isFirst second isSecond same
    simp only [List.mem_cons, List.not_mem_nil, or_false] at isFirst isSecond
    rcases isFirst with rfl | rfl <;> rcases isSecond with rfl | rfl
    · rfl
    · rw [readOne, readTwo] at same
      exact absurd same differ
    · rw [readOne, readTwo] at same
      exact absurd same.symm differ
    · rfl
  · intro data isData value key
    simp only [List.mem_cons, List.not_mem_nil, or_false] at isData
    rcases isData with rfl | rfl
    · rw [readOne, one.1, Key.normalized.injEq] at key
      rw [← key, counterJson_write, readOne, one.2]
    · rw [readTwo, two.1, Key.normalized.injEq] at key
      rw [← key, counterJson_write, readTwo, two.2]

/-- A counter grows from 1 to 2, with a failed fetch in between. -/
def counterRun : Refetch "stats" (counter 1) (counter 2) where
  json := counterJson
  settings := sampleConfig
  topics := sampleTopics
  before := [.connect ["stats"] none]
  previous := counterText 1
  earlier := 10
  between := [.fetchError "stats" 15]
  next := counterText 2
  known := by decide
  quiet := by simp [Action.fetched]
  readPrevious := if_neg (by decide +kernel)
  readNext := if_pos rfl
  faithful := counterJson_faithful

theorem pushOnChange_counter :
    Distinguishable "stats" (counter 1) (counter 2) ∧
      (counterRun.Publishes 20 ↔
        settled "stats" (counter 1) ≠ settled "stats" (counter 2) ∨
          counterRun.hydrating = true) ∧
      (counterRun.Publishes 20 ↔ settled "stats" (counter 1) ≠ settled "stats" (counter 2)) ∧
      Publishes (counterJson.config sampleConfig) (initialSystem sampleTopics).hub "stats"
        (counterText 1) 10 := by
  have exact_ := @pushOnChange_iff "stats" (by decide) (counter 1) (counter 2)
  have differ : settled "stats" (counter 1) ≠ settled "stats" (counter 2) := by
    simp [settled_counter]
  have one := @diffKey_counter_of_grid 1 (by decide +kernel) (by decide +kernel)
  have two := @diffKey_counter_of_grid 2 (by decide +kernel) (by decide +kernel)
  have distinguishable : Distinguishable "stats" (counter 1) (counter 2) := by
    apply exact_.1.mp
    rw [one.1, two.1, Key.normalized.injEq]
  refine ⟨distinguishable, (exact_.2.1 counterRun 20).1 distinguishable,
    (exact_.2.1 counterRun 20).2.mpr ?_, ?_⟩
  · split
    · exact differ
    · exact distinguishable
  · exact exact_.2.2 (counterJson.config sampleConfig) sampleTopics [] (by decide) (by simp)
      (counterText 1) 10

end Noise

end TelemtPanel.Events
