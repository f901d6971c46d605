import TelemtPanel.Polling.Threads

/-!
# What a step does to a topic

What a topic shows and the order of its fetches change in a few kinds of steps of the goroutine
that holds its gate.  Subscriptions, timers and the end of the hub change neither.
-/

namespace TelemtPanel.Polling

open Library Events

/-- The gate of a topic, its last fetch, the fetch whose payload is cached, and the fetches whose
payloads have been published. -/
structure Ledger where
  gate : Bool
  begun : ℕ
  cached : ℕ
  fetches : List ℕ

/-- What the hub shows of a topic. -/
structure Shown where
  version : ℕ
  cache : Option TopicCache
  events : List Publication

namespace Topics

variable (topics : Topics)

def publishedOf (name : String) : List Publication :=
  topics.published.filter fun publication => publication.event.topic = name

def ledger (name : String) : Ledger where
  gate := (topics.polls name).gate
  begun := (topics.polls name).begun
  cached := (topics.polls name).cached
  fetches := (topics.publishedOf name).filterMap Publication.fetch

def shown (name : String) : Shown where
  version := (topics.polls name).fullVersion
  cache := topics.hub.cache name
  events := topics.publishedOf name

/-- A step that keeps, for every topic, what it shows and the order of its fetches. -/
structure Kept (later : Topics) : Prop where
  ledger : ∀ name, later.ledger name = topics.ledger name
  shown : ∀ name, later.shown name = topics.shown name

variable {topics : Topics}

theorem Kept.refl : topics.Kept topics := ⟨fun _ => rfl, fun _ => rfl⟩

end Topics

namespace Poll

/-- The fields that a step of the lifecycle of a poller keeps. -/
structure Same (poll later : Poll) : Prop where
  fetch : later.fetch = poll.fetch
  persistent : later.persistent = poll.persistent
  fullVersion : later.fullVersion = poll.fullVersion
  gate : later.gate = poll.gate
  begun : later.begun = poll.begun
  cached : later.cached = poll.cached

variable {poll : Poll}

theorem Same.refl (poll : Poll) : Same poll poll := ⟨rfl, rfl, rfl, rfl, rfl, rfl⟩

theorem Same.trans {middle last : Poll} (one : Same poll middle) (two : Same middle last) :
    Same poll last where
  fetch := two.fetch.trans one.fetch
  persistent := two.persistent.trans one.persistent
  fullVersion := two.fullVersion.trans one.fullVersion
  gate := two.gate.trans one.gate
  begun := two.begun.trans one.begun
  cached := two.cached.trans one.cached

theorem same_stopTimer (poll : Poll) : Same poll poll.stopTimer := by
  unfold stopTimer
  split
  · exact .refl poll
  · exact ⟨rfl, rfl, rfl, rfl, rfl, rfl⟩

theorem same_join (first historyFetch : Bool) : Same poll (poll.join first historyFetch) := by
  refine (same_stopTimer poll).trans ?_
  unfold join
  generalize poll.stopTimer = poll
  simp only
  split
  · split
    · exact ⟨rfl, rfl, rfl, rfl, rfl, rfl⟩
    · exact ⟨rfl, rfl, rfl, rfl, rfl, rfl⟩
  · split
    · exact ⟨rfl, rfl, rfl, rfl, rfl, rfl⟩
    · exact .refl _

theorem same_leave (historyFetch : Bool) : Same poll (poll.leave historyFetch) := by
  unfold leave
  simp only
  split
  · exact ⟨rfl, rfl, rfl, rfl, rfl, rfl⟩
  · exact ⟨rfl, rfl, rfl, rfl, rfl, rfl⟩

theorem same_stopIfIdle (subCount : ℤ) : Same poll (poll.stopIfIdle subCount) := by
  unfold stopIfIdle
  split
  · exact .refl poll
  · exact ⟨rfl, rfl, rfl, rfl, rfl, rfl⟩

theorem same_shut : Same poll poll.shut := by
  refine (same_stopTimer poll).trans ?_
  unfold shut
  simp only
  split
  · exact ⟨rfl, rfl, rfl, rfl, rfl, rfl⟩
  · exact .refl _

end Poll

namespace Topics

variable {topics : Topics} {name : String}

/-- A step of the lifecycle of pollers: the cache is kept, and nothing is published. -/
theorem kept_of_same {later : Topics} (polls : ∀ name, (topics.polls name).Same (later.polls name))
    (cache : ∀ name, later.hub.cache name = topics.hub.cache name)
    (published : later.published = topics.published) : topics.Kept later := by
  constructor
  · intro name
    simp only [ledger, publishedOf, published, (polls name).gate, (polls name).begun,
      (polls name).cached]
  · intro name
    simp only [shown, publishedOf, published, cache, (polls name).fullVersion]

theorem kept_modify (name : String) {change : Poll → Poll}
    (same : (topics.polls name).Same (change (topics.polls name))) :
    topics.Kept (topics.modify name change) := by
  refine kept_of_same ?_ (fun _ => rfl) rfl
  intro other
  simp only [modify, Function.update_apply]
  split
  · rename_i here
    rw [here]
    exact same
  · exact .refl _

theorem settle_same (polls : String → Poll) (hub : Hub) (published : List Publication)
    (name : String) : (polls name).Same ((topics.settle polls hub published).polls name) := by
  simp only [settle]
  split
  · exact Poll.same_leave _
  · exact .refl _

theorem kept_subscribe {names joined : List String} {later : Topics}
    (accepted : topics.subscribe names = some (later, joined)) : topics.Kept later := by
  unfold subscribe at accepted
  rcases Option.map_eq_some_iff.mp accepted with ⟨result, isSubscribed, same⟩
  cases same
  refine kept_of_same ?_ (subscribe_spec isSubscribed).cache rfl
  intro name
  simp only
  split
  · exact Poll.same_join _ _
  · exact .refl _

theorem kept_unsubscribe (id : ℕ) : topics.Kept (topics.unsubscribe id) :=
  kept_of_same (settle_same _ _ _) (unsubscribe_sameStore id).cache rfl

theorem kept_receive (id : ℕ) : topics.Kept (topics.receive id) :=
  kept_of_same (fun _ => .refl _) (fun _ => rfl) rfl

theorem kept_close : topics.Kept topics.close := by
  refine kept_of_same (fun _ => Poll.same_shut) ?_ rfl
  intro name
  simp only [close, Hub.cache, Option.map_map]
  rfl

section Record

variable {config : Events.Config} {data : Bytes} {ts : ℤ} {fetch : Option ℕ}

/-- Only the topic of a fetch is recorded. -/
theorem recordFetchSuccess_cache_other {other : String} (differ : other ≠ name) :
    (topics.recordFetchSuccess config name fetch data ts).hub.cache other =
      topics.hub.cache other := by
  have result := recordFetchSuccess_cases config topics.hub name data ts
  simp only [Topics.recordFetchSuccess, settle]
  rcases result with same | ⟨ev, state, -, isTopic, -, -, same⟩ | ⟨old, new, -, -, -, -, same⟩
  · rw [same]
  · rw [same, emit_cache, setTopic_cache, if_neg]
    rw [isTopic]
    exact differ
  · rw [same, setTopic_cache, if_neg differ]

/-- A recorded payload is numbered, and its number is published with it. -/
theorem recordFetchSuccess_published :
    ∃ added : List Publication,
      (topics.recordFetchSuccess config name fetch data ts).published =
        topics.published ++ added ∧
      (added = [] ∨ ∃ event, event.topic = name ∧ added = [⟨event, fetch⟩]) := by
  have result := recordFetchSuccess_cases config topics.hub name data ts
  refine ⟨_, rfl, ?_⟩
  rcases result with same | ⟨ev, state, -, isTopic, -, -, same⟩ | ⟨old, new, -, -, -, -, same⟩
  · rw [same]
    exact Or.inl rfl
  · rw [same]
    exact Or.inr ⟨ev, isTopic, rfl⟩
  · rw [same]
    exact Or.inl rfl

theorem recordFetchError_published :
    ∃ added : List Publication,
      (topics.recordFetchError config name ts).published = topics.published ++ added ∧
      (added = [] ∨ ∃ event, event.topic = name ∧ added = [⟨event, none⟩]) := by
  have result := recordFetchError_cases config topics.hub name ts
  refine ⟨_, rfl, ?_⟩
  rcases result with same | ⟨ev, -, isTopic, -, same⟩
  · rw [same]
    exact Or.inl rfl
  · rw [same]
    exact Or.inr ⟨ev, isTopic, rfl⟩

/-- What a step that publishes for one topic adds to the publications of each. -/
theorem publishedOf_append {later : Topics} {added : List Publication}
    (published : later.published = topics.published ++ added)
    (isTopic : ∀ publication ∈ added, publication.event.topic = name) (other : String) :
    later.publishedOf other =
      if other = name then topics.publishedOf name ++ added else topics.publishedOf other := by
  rw [publishedOf, published, List.filter_append]
  split
  · rename_i here
    subst here
    congr 1
    rw [List.filter_eq_self]
    intro publication mem
    exact decide_eq_true (isTopic publication mem)
  · rename_i differ
    have none : added.filter (fun publication => decide (publication.event.topic = other)) = [] := by
      rw [List.filter_eq_nil_iff]
      intro publication mem
      rw [isTopic publication mem, decide_eq_true_eq]
      exact Ne.symm differ
    rw [none, List.append_nil]
    rfl

theorem ledger_recordFetchSuccess :
    ((topics.recordFetchSuccess config name fetch data ts).ledger name =
        { topics.ledger name with cached := fetch.getD (topics.ledger name).cached } ∨
      (topics.recordFetchSuccess config name fetch data ts).ledger name =
        { topics.ledger name with
          cached := fetch.getD (topics.ledger name).cached
          fetches := (topics.ledger name).fetches ++ fetch.toList }) ∧
      ∀ other ≠ name, (topics.recordFetchSuccess config name fetch data ts).ledger other =
        topics.ledger other := by
  set later := topics.recordFetchSuccess config name fetch data ts with isLater
  have same : ∀ other, ((topics.modify name fun poll =>
      { poll with
        fullFresh := true
        fullVersion := poll.fullVersion + 1
        cached := fetch.getD poll.cached }).polls other).Same (later.polls other) := by
    intro other
    rw [isLater]
    exact settle_same _ _ _ other
  rcases @recordFetchSuccess_published topics name config data ts fetch with ⟨added, published, kind⟩
  rw [← isLater] at published
  have isTopic : ∀ publication ∈ added, publication.event.topic = name := by
    intro publication mem
    rcases kind with rfl | ⟨event, isName, rfl⟩
    · cases mem
    · rw [List.mem_singleton.mp mem]
      exact isName
  constructor
  · simp only [ledger, publishedOf_append published isTopic, if_true, (same name).gate,
      (same name).begun, (same name).cached, modify, Function.update_self]
    rcases kind with rfl | ⟨event, -, rfl⟩
    · left
      simp
    · right
      cases fetch with
      | none => simp
      | some number => simp
  · intro other differ
    simp only [ledger, publishedOf_append published isTopic, if_neg differ, (same other).gate,
      (same other).begun, (same other).cached, modify, Function.update_of_ne differ]

theorem shown_recordFetchSuccess :
    ((topics.recordFetchSuccess config name fetch data ts).shown name).version =
        (topics.shown name).version + 1 ∧
      ∀ other ≠ name, (topics.recordFetchSuccess config name fetch data ts).shown other =
        topics.shown other := by
  rcases @recordFetchSuccess_published topics name config data ts fetch with ⟨added, published, kind⟩
  have isTopic : ∀ publication ∈ added, publication.event.topic = name := by
    intro publication mem
    rcases kind with rfl | ⟨event, isName, rfl⟩
    · cases mem
    · rw [List.mem_singleton.mp mem]
      exact isName
  have version : ∀ other, ((topics.recordFetchSuccess config name fetch data ts).polls
      other).fullVersion = ((topics.modify name fun poll =>
        { poll with
          fullFresh := true
          fullVersion := poll.fullVersion + 1
          cached := fetch.getD poll.cached }).polls other).fullVersion := by
    intro other
    exact (settle_same _ _ _ other).fullVersion
  constructor
  · simp only [shown, version, modify, Function.update_self]
  · intro other differ
    simp only [shown, version, modify, Function.update_of_ne differ,
      publishedOf_append published isTopic, if_neg differ, recordFetchSuccess_cache_other differ]

theorem recordFetchError_cache (other : String) :
    (topics.recordFetchError config name ts).hub.cache other = topics.hub.cache other := by
  simp only [Topics.recordFetchError, settle]
  rcases recordFetchError_cases config topics.hub name ts with same | ⟨ev, -, -, -, same⟩
  · rw [same]
  · rw [same, emit_cache]

theorem recordFetchError_kept :
    (∀ other, (topics.recordFetchError config name ts).ledger other = topics.ledger other) ∧
      (∀ other, ((topics.recordFetchError config name ts).shown other).version =
        (topics.shown other).version ∧
          ((topics.recordFetchError config name ts).shown other).cache =
            (topics.shown other).cache) ∧
      ∀ other ≠ name, (topics.recordFetchError config name ts).shown other =
        topics.shown other := by
  rcases @recordFetchError_published topics name config ts with ⟨added, published, kind⟩
  have isTopic : ∀ publication ∈ added, publication.event.topic = name := by
    intro publication mem
    rcases kind with rfl | ⟨event, isName, rfl⟩
    · cases mem
    · rw [List.mem_singleton.mp mem]
      exact isName
  have unnumbered : added.filterMap Publication.fetch = [] := by
    rcases kind with rfl | ⟨event, -, rfl⟩
    · rfl
    · rfl
  have same : ∀ other, (topics.polls other).Same
      ((topics.recordFetchError config name ts).polls other) := by
    intro other
    refine Poll.Same.trans ?_ (settle_same _ _ _ other)
    simp only [modify, Function.update_apply]
    split
    · rename_i here
      rw [here]
      exact ⟨rfl, rfl, rfl, rfl, rfl, rfl⟩
    · exact .refl _
  refine ⟨?_, ?_, ?_⟩
  · intro other
    simp only [ledger, (same other).gate, (same other).begun, (same other).cached,
      publishedOf_append published isTopic]
    split
    · rename_i here
      rw [here, List.filterMap_append, unnumbered, List.append_nil]
    · rfl
  · intro other
    exact ⟨(same other).fullVersion, recordFetchError_cache other⟩
  · intro other differ
    simp only [shown, (same other).fullVersion, publishedOf_append published isTopic,
      if_neg differ, recordFetchError_cache]

end Record
end Topics

/-- The topic whose gate a goroutine holds. -/
def Thread.holds : Thread → Option String
  | .poll _ name (.owned _ _ _) => some name
  | .poll _ name (.fetching _ _) => some name
  | .poll _ name (.record _ _) => some name
  | .poll _ name (.release _) => some name
  | _ => none

/-- The number of the fetch that a goroutine has begun and not yet recorded. -/
def Thread.number : Thread → Option ℕ
  | .poll _ _ (.fetching _ number) => some number
  | .poll _ _ (.record number _) => some number
  | _ => none

/-- What a step of a goroutine does to what the topics show and to the order of their fetches. -/
inductive Moves (topics later : Topics) (contextDone : Bool) : Thread → Thread → Prop
  | free {thread next : Thread} (kept : topics.Kept later) (before : thread.holds = none)
      (after : next.holds = none) : Moves topics later contextDone thread next
  | hold {thread next : Thread} (kept : topics.Kept later) (same : next.holds = thread.holds)
      (number : next.number = none ∨ next.number = thread.number)
      (records : ∀ caller name number data, next = .poll caller name (.record number data) →
        thread = next ∨
          thread = .poll caller name (.fetching .full number) ∧ contextDone = false) :
      Moves topics later contextDone thread next
  | acquire {thread next : Thread} {name : String} (before : thread.holds = none)
      (after : next.holds = some name) (unnumbered : next.number = none)
      (token : (topics.ledger name).gate = true)
      (taken : later.ledger name = { topics.ledger name with gate := false })
      (others : ∀ other ≠ name, later.ledger other = topics.ledger other)
      (shown : ∀ other, later.shown other = topics.shown other) :
      Moves topics later contextDone thread next
  | begin {caller : Caller} {name : String} {profile chosen : Profile} {recheck : Recheck}
      {previousVersion : ℕ}
      (begun : later.ledger name =
        { topics.ledger name with begun := (topics.ledger name).begun + 1 })
      (others : ∀ other ≠ name, later.ledger other = topics.ledger other)
      (shown : ∀ other, later.shown other = topics.shown other) :
      Moves topics later contextDone (.poll caller name (.owned profile recheck previousVersion))
        (.poll caller name (.fetching chosen ((topics.ledger name).begun + 1)))
  | success {caller : Caller} {name : String} {number : ℕ} {data : Bytes}
      (ledger : later.ledger name = { topics.ledger name with cached := number } ∨
        later.ledger name =
          { topics.ledger name with
            cached := number
            fetches := (topics.ledger name).fetches ++ [number] })
      (others : ∀ other ≠ name, later.ledger other = topics.ledger other)
      (version : (later.shown name).version = (topics.shown name).version + 1)
      (shown : ∀ other ≠ name, later.shown other = topics.shown other) :
      Moves topics later contextDone (.poll caller name (.record number (some data)))
        (.poll caller name (.release .fetched))
  | failure {caller : Caller} {name : String} {number : ℕ}
      (ledger : ∀ other, later.ledger other = topics.ledger other)
      (kept : ∀ other, (later.shown other).version = (topics.shown other).version ∧
        (later.shown other).cache = (topics.shown other).cache)
      (shown : ∀ other ≠ name, later.shown other = topics.shown other) :
      Moves topics later contextDone (.poll caller name (.record number none))
        (.poll caller name (.release .failed))
  | release {caller : Caller} {name : String} {result : Result}
      (freed : later.ledger name = { topics.ledger name with gate := true })
      (others : ∀ other ≠ name, later.ledger other = topics.ledger other)
      (shown : ∀ other, later.shown other = topics.shown other) :
      Moves topics later contextDone (.poll caller name (.release result))
        (returned name result caller)

theorem returned_holds (name : String) (result : Result) (caller : Caller) :
    (returned name result caller).holds = none := by
  cases caller <;> rfl

theorem returned_number (name : String) (result : Result) (caller : Caller) :
    (returned name result caller).number = none := by
  cases caller <;> rfl

section Advance

variable {config : Config} {topics : Topics} {now : ℤ} {contextDone : Bool} {name : String}

theorem wakeSection_free (stop : ℕ) :
    topics.Kept (wakeSection config topics now name stop).1 ∧
      (wakeSection config topics now name stop).2.holds = none := by
  unfold wakeSection
  simp only
  split
  · exact ⟨.refl, rfl⟩
  split
  · refine ⟨?_, rfl⟩
    dsimp only
    refine Topics.kept_modify name ?_
    exact ⟨rfl, rfl, rfl, rfl, rfl, rfl⟩
  · refine ⟨?_, rfl⟩
    dsimp only
    refine Topics.kept_modify name ?_
    exact ⟨rfl, rfl, rfl, rfl, rfl, rfl⟩

/-- A change of a gate or of the number of the last fetch. -/
theorem ledger_modify {change : Poll → Poll}
    (cached : (change (topics.polls name)).cached = (topics.polls name).cached) :
    (topics.modify name change).ledger name =
        { topics.ledger name with
          gate := (change (topics.polls name)).gate
          begun := (change (topics.polls name)).begun } ∧
      ∀ other ≠ name, (topics.modify name change).ledger other = topics.ledger other := by
  constructor
  · simp only [Topics.ledger, Topics.publishedOf, Topics.modify, Function.update_self, cached]
  · intro other differ
    simp only [Topics.ledger, Topics.publishedOf, Topics.modify, Function.update_of_ne differ]

theorem shown_modify {change : Poll → Poll}
    (version : (change (topics.polls name)).fullVersion = (topics.polls name).fullVersion)
    (other : String) : (topics.modify name change).shown other = topics.shown other := by
  simp only [Topics.shown, Topics.publishedOf, Topics.modify, Function.update_apply]
  split
  · rename_i here
    rw [here, version]
  · rfl

theorem ownedSection_moves (caller : Caller) (profile : Profile) (recheck : Recheck)
    (previousVersion : ℕ) :
    Moves topics (ownedSection topics caller name profile recheck previousVersion).1 contextDone
      (.poll caller name (.owned profile recheck previousVersion))
      (ownedSection topics caller name profile recheck previousVersion).2 := by
  have skips : ∀ later : Topics, topics.Kept later →
      Moves topics later contextDone (.poll caller name (.owned profile recheck previousVersion))
        (.poll caller name (.release (.skipped (later.polls name).running))) := by
    intro later kept
    exact .hold kept rfl (Or.inl rfl) fun _ _ _ _ impossible => by cases impossible
  have begins : ∀ (middle : Topics) (chosen : Profile), topics.Kept middle →
      Moves topics (middle.modify name fun poll => { poll with begun := poll.begun + 1 })
        contextDone (.poll caller name (.owned profile recheck previousVersion))
        (.poll caller name (.fetching chosen ((middle.polls name).begun + 1))) := by
    intro middle chosen kept
    have begun : (middle.polls name).begun = (topics.ledger name).begun := by
      rw [← kept.ledger name]
      rfl
    have gate : (middle.polls name).gate = (topics.ledger name).gate := by
      rw [← kept.ledger name]
      rfl
    have ledgers := @ledger_modify middle name (fun poll => { poll with begun := poll.begun + 1 }) rfl
    rw [begun]
    refine .begin ?_ ?_ ?_
    · rw [ledgers.1, kept.ledger name]
      simp only [gate, begun]
    · intro other differ
      rw [ledgers.2 other differ, kept.ledger other]
    · intro other
      rw [@shown_modify middle name (fun poll => { poll with begun := poll.begun + 1 }) rfl other,
        kept.shown other]
  have kept : topics.Kept (staled topics name (chosenProfile topics name profile)) := by
    unfold staled
    split
    · refine Topics.kept_modify name ?_
      exact ⟨rfl, rfl, rfl, rfl, rfl, rfl⟩
    · exact .refl
  simp only [ownedSection]
  split
  · exact skips _ kept
  split
  · exact skips _ kept
  · exact begins _ _ kept

theorem fetchReturned_moves (caller : Caller) (profile : Profile) (number : ℕ)
    (fetched : Fetched) :
    Moves topics topics contextDone (.poll caller name (.fetching profile number))
      (fetchReturned contextDone caller name profile number fetched) := by
  unfold fetchReturned
  split
  · exact .hold .refl rfl (Or.inl rfl) (fun _ _ _ _ impossible => by cases impossible)
  rename_i live
  rw [Bool.not_eq_true] at live
  split
  · exact .hold .refl rfl (Or.inl rfl) (fun _ _ _ _ impossible => by cases impossible)
  · exact .hold .refl rfl (Or.inl rfl) (fun _ _ _ _ impossible => by cases impossible)
  · refine .hold .refl rfl (Or.inr rfl) ?_
    intro own other given data same
    cases same
    exact Or.inr ⟨rfl, live⟩
  · refine .hold .refl rfl (Or.inr rfl) ?_
    intro own other given data same
    cases same
    exact Or.inr ⟨rfl, live⟩

/-- A goroutine that holds a gate waits for its fetch. -/
theorem stays_moves (thread : Thread) : Moves topics topics contextDone thread thread :=
  .hold .refl rfl (Or.inr rfl) (fun _ _ _ _ _ => Or.inl rfl)

theorem advance_moves (choice : Choice) (thread : Thread) :
    Moves topics (advance config topics now contextDone choice thread).1 contextDone thread
      (advance config topics now contextDone choice thread).2 := by
  cases thread with
  | starting other => exact .free .refl rfl rfl
  | waiting other stop =>
      simp only [advance]
      split
      · exact .free .refl rfl rfl
      · split
        · refine .free ?_ rfl rfl
          dsimp only
          refine Topics.kept_modify other ?_
          exact ⟨rfl, rfl, rfl, rfl, rfl, rfl⟩
        · exact .free .refl rfl rfl
      · split
        · exact .free .refl rfl rfl
        · exact .free .refl rfl rfl
      · exact .free .refl rfl rfl
  | ticked other stop => exact .free .refl rfl rfl
  | woken other stop =>
      rcases @wakeSection_free config topics now other stop with ⟨kept, free⟩
      exact .free kept rfl free
  | poll caller other phase =>
      cases phase with
      | gate profile recheck previousVersion =>
          simp only [advance]
          split
          · split
            · rename_i token
              have ledgers := @ledger_modify topics other (fun poll => { poll with gate := false }) rfl
              exact .acquire rfl rfl rfl token ledgers.1 ledgers.2
                (@shown_modify topics other (fun poll => { poll with gate := false }) rfl)
            · exact stays_moves _
          · split
            · exact .free .refl rfl (returned_holds _ _ _)
            · exact stays_moves _
          · exact stays_moves _
      | owned profile recheck previousVersion => exact ownedSection_moves caller profile recheck _
      | fetching profile number =>
          simp only [advance]
          split
          · exact fetchReturned_moves caller profile number _
          · exact stays_moves _
      | record number data =>
          simp only [advance]
          split
          · split
            · exact .success Topics.ledger_recordFetchSuccess.1
                Topics.ledger_recordFetchSuccess.2 Topics.shown_recordFetchSuccess.1
                Topics.shown_recordFetchSuccess.2
            · exact .failure Topics.recordFetchError_kept.1 Topics.recordFetchError_kept.2.1
                Topics.recordFetchError_kept.2.2
          · exact stays_moves _
      | release result =>
          have ledgers := @ledger_modify topics other (fun poll => { poll with gate := true }) rfl
          exact .release ledgers.1 ledgers.2
            (@shown_modify topics other (fun poll => { poll with gate := true }) rfl)
  | look todo out =>
      cases todo with
      | nil => exact .free .refl rfl rfl
      | cons other todo =>
          refine .free .refl rfl ?_
          simp only [advance, lookSection]
          split
          · rfl
          · rfl
  | read other version result todo out => exact .free .refl rfl rfl
  | wakeUp other =>
      refine .free ?_ rfl rfl
      simp only [advance]
      refine Topics.kept_modify other ?_
      exact ⟨rfl, rfl, rfl, rfl, rfl, rfl⟩
  | finished out => exact .free .refl rfl rfl

end Advance

namespace Machine

variable {machine : Machine} {config : Config}

/-- A step is made by a goroutine, or it keeps the goroutines that are there and what the topics
show, apart from the data that is pushed into the update topic. -/
theorem step_moves (action : Action) :
    (∃ tid choice thread next, action = .proceed tid choice ∧
      machine.threads tid = some thread ∧
      (machine.step config action).threads = Function.update machine.threads tid (some next) ∧
      (advance config machine.topics machine.now (machine.contextDone tid thread) choice thread) =
        ((machine.step config action).topics, next)) ∨
    (∀ tid thread, (machine.step config action).threads tid = some thread →
      machine.threads tid = some thread ∨ thread.holds = none ∧ thread.number = none) ∧
    (∀ name, (machine.step config action).topics.ledger name = machine.topics.ledger name) ∧
    ∀ name ≠ updateTopic,
      (machine.step config action).topics.shown name = machine.topics.shown name := by
  have kept : ∀ later : Machine, machine.topics.Kept later.topics →
      (∀ tid thread, later.threads tid = some thread →
        machine.threads tid = some thread ∨ thread.holds = none ∧ thread.number = none) →
      (∀ tid thread, later.threads tid = some thread →
        machine.threads tid = some thread ∨ thread.holds = none ∧ thread.number = none) ∧
      (∀ name, later.topics.ledger name = machine.topics.ledger name) ∧
      ∀ name ≠ updateTopic, later.topics.shown name = machine.topics.shown name :=
    fun later kept threads => ⟨threads, kept.ledger, fun name _ => kept.shown name⟩
  have called : ∀ (machine : Machine) (thread : Thread), thread.holds = none →
      thread.number = none → ∀ tid other, (machine.call thread).threads tid = some other →
        machine.threads tid = some other ∨ other.holds = none ∧ other.number = none := by
    intro machine thread free unnumbered tid other found
    simp only [call, setThread, Function.update_apply] at found
    split at found
    · cases found
      exact Or.inr ⟨free, unnumbered⟩
    · exact Or.inl found
  cases action with
  | subscribe names =>
      right
      simp only [step, subscribe]
      split
      · exact kept machine .refl fun _ _ found => Or.inl found
      · rename_i later joined accepted
        refine kept _ (Topics.kept_subscribe accepted) ?_
        intro tid thread found
        simp only at found
        split at found
        · split at found
          · cases found
            exact Or.inr ⟨rfl, rfl⟩
          · exact Or.inl found
        · exact Or.inl found
  | unsubscribe id => exact Or.inr (kept _ (Topics.kept_unsubscribe id) fun _ _ => Or.inl)
  | receive id => exact Or.inr (kept _ (Topics.kept_receive id) fun _ _ => Or.inl)
  | launch name timer =>
      right
      simp only [step]
      split
      · refine kept _ ?_ fun _ _ => Or.inl
        dsimp only
        refine Topics.kept_modify name ?_
        exact ⟨rfl, rfl, rfl, rfl, rfl, rfl⟩
      · exact kept machine .refl fun _ _ => Or.inl
  | stopIfIdle name timer =>
      right
      simp only [step]
      split
      · refine kept _ ?_ fun _ _ => Or.inl
        dsimp only
        refine Topics.kept_modify name ?_
        have same := @Poll.same_stopIfIdle (machine.topics.polls name) (machine.topics.subCount name)
        exact ⟨same.fetch, same.persistent, same.fullVersion, same.gate, same.begun, same.cached⟩
      · exact kept machine .refl fun _ _ => Or.inl
  | poke name =>
      right
      simp only [step, poke]
      split
      · exact kept machine .refl fun _ _ => Or.inl
      split
      · exact kept machine .refl fun _ _ => Or.inl
      split
      · exact kept (machine.call _) .refl (called machine _ rfl rfl)
      · refine kept (Machine.call _ _) ?_ (called _ _ rfl rfl)
        simp only [call, setThread]
        refine Topics.kept_modify name ?_
        exact ⟨rfl, rfl, rfl, rfl, rfl, rfl⟩
  | snapshot names =>
      right
      simp only [step, snapshot]
      split
      · exact kept machine .refl fun _ _ => Or.inl
      · exact kept (machine.call _) .refl (called machine _ rfl rfl)
  | cancelCaller number => exact Or.inr (kept _ .refl fun _ _ => Or.inl)
  | publishUpdate data ts =>
      right
      refine ⟨fun _ _ => Or.inl, ?_, ?_⟩
      · intro name
        have ledgers := @Topics.ledger_recordFetchSuccess machine.topics updateTopic config.events
          data ts none
        by_cases here : name = updateTopic
        · rw [here]
          rcases ledgers.1 with same | same
          · exact same
          · refine same.trans ?_
            simp
        · exact ledgers.2 name here
      · intro name differ
        exact (Topics.shown_recordFetchSuccess).2 name differ
  | cancel => exact Or.inr (kept _ .refl fun _ _ => Or.inl)
  | close =>
      right
      simp only [step]
      split
      · exact kept _ Topics.kept_close fun _ _ => Or.inl
      · exact kept machine .refl fun _ _ => Or.inl
  | wait elapsed => exact Or.inr (kept _ .refl fun _ _ => Or.inl)
  | proceed tid choice =>
      simp only [step, proceed]
      split
      · exact Or.inr (kept machine .refl fun _ _ => Or.inl)
      · rename_i thread found
        exact Or.inl ⟨tid, choice, thread, _, rfl, found, rfl, rfl⟩

end Machine
end TelemtPanel.Polling
