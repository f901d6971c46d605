import TelemtPanel.Polling.Subscribers

/-!
# The lifecycle of pollers

A topic that is polled has a running poller as long as it has a subscriber, and a full projection
that a first subscriber waits for is fetched by the next poll that passes the gate.
-/

namespace TelemtPanel.Polling

open Library Events

/-- The fields that a poll keeps, and a cached payload that does not become fresh. -/
structure Poll.Steady (poll later : Poll) : Prop where
  fetch : later.fetch = poll.fetch
  running : later.running = poll.running
  stop : later.stop = poll.stop
  closed : later.closed = poll.closed
  fullVersion : later.fullVersion = poll.fullVersion
  fullFresh : later.fullFresh = true → poll.fullFresh = true

theorem Poll.Steady.refl (poll : Poll) : Steady poll poll := ⟨rfl, rfl, rfl, rfl, rfl, id⟩

theorem steady_modify {polls : String → Poll} {name : String} {new : Poll}
    (steady : (polls name).Steady new) (other : String) :
    (polls other).Steady (Function.update polls name new other) := by
  rw [Function.update_apply]
  split
  · rename_i here
    rw [here]
    exact steady
  · exact .refl _

namespace Topics

/-- A topic has just lost its last subscriber, and waits for no full projection any more. -/
def Deserted (topics later : Topics) (name : String) : Prop :=
  topics.historyFetch name = true ∧ topics.subCount name ≠ 0 ∧ later.subCount name = 0

/-- A step in which a topic gains no subscriber and its poller is neither started nor stopped. -/
structure Lowers (topics later : Topics) (name : String) : Prop where
  fetch : (later.polls name).fetch = (topics.polls name).fetch
  running : (later.polls name).running = (topics.polls name).running
  stop : (later.polls name).stop = (topics.polls name).stop
  closed : (later.polls name).closed = (topics.polls name).closed
  known : (later.hub.topics name).isSome = (topics.hub.topics name).isSome
  historyFetch : later.historyFetch name = topics.historyFetch name
  nonneg : 0 ≤ later.subCount name
  le : later.subCount name ≤ topics.subCount name
  pending : later.fullPending name = true →
    topics.fullPending name = true ∧ ¬topics.Deserted later name
  version : (topics.polls name).fullVersion ≤ (later.polls name).fullVersion
  same : (later.polls name).fullVersion = (topics.polls name).fullVersion →
    later.hasData name = topics.hasData name ∧
      (topics.fullPending name = true → ¬topics.Deserted later name →
        later.fullPending name = true) ∧
      ((later.polls name).fullFresh = true →
        (topics.polls name).fullFresh = true ∧ ¬topics.Deserted later name)

variable {topics : Topics} {name : String}

theorem subCount_nonneg (counted : Counted topics.hub) (name : String) :
    0 ≤ topics.subCount name := by
  unfold subCount
  cases isState : topics.hub.topics name with
  | none => exact le_rfl
  | some state => exact counted.nonneg isState

/-- The subscribers and the cache of a topic are not touched. -/
theorem lowers_of_hub {later : Topics} (counted : Counted topics.hub)
    (hub : later.hub.topics name = topics.hub.topics name)
    (steady : (topics.polls name).Steady (later.polls name)) : topics.Lowers later name := by
  have stays : ¬topics.Deserted later name := by
    rintro ⟨-, some, none⟩
    simp only [subCount, hub] at some none
    exact some none
  refine ⟨steady.fetch, steady.running, steady.stop, steady.closed, ?_, ?_, ?_, ?_, ?_,
    steady.fullVersion.ge, ?_⟩
  · rw [hub]
  · simp only [historyFetch, hub]
  · simp only [subCount, hub]
    exact subCount_nonneg counted name
  · simp only [subCount, hub, le_refl]
  · intro pending
    simp only [fullPending, hub] at pending ⊢
    exact ⟨pending, stays⟩
  · intro _
    refine ⟨by simp only [hasData, hub], ?_, fun isFresh => ⟨steady.fullFresh isFresh, stays⟩⟩
    intro pending _
    simp only [fullPending, hub] at pending ⊢
    exact pending

/-- What closing subscribers does to the lifecycle of a topic: `polls` are the pollers before it,
and the state that is left is the one of the topic after other changes. -/
theorem settle_polls (polls : String → Poll) (hub : Hub) (published : List Publication)
    (name : String) :
    ((topics.settle polls hub published).polls name).running = (polls name).running ∧
      ((topics.settle polls hub published).polls name).stop = (polls name).stop ∧
      ((topics.settle polls hub published).polls name).closed = (polls name).closed ∧
      (((topics.settle polls hub published).polls name).fullFresh = true →
        (polls name).fullFresh = true ∧
          ¬topics.Deserted (topics.settle polls hub published) name) := by
  have same : (topics.settle polls hub published).subCount name =
      ((hub.topics name).map TopicState.subCount).getD 0 := rfl
  by_cases left : topics.subCount name ≠ 0 ∧
      ((hub.topics name).map TopicState.subCount).getD 0 = 0
  · have isLeft : (topics.settle polls hub published).polls name =
        (polls name).leave (topics.historyFetch name) := if_pos left
    rw [isLeft]
    have fresh : ((polls name).leave (topics.historyFetch name)).fullFresh =
        ((polls name).fullFresh && !topics.historyFetch name) := by
      unfold Poll.leave
      simp only
      split <;> rfl
    have rest : ((polls name).leave (topics.historyFetch name)).running = (polls name).running ∧
        ((polls name).leave (topics.historyFetch name)).stop = (polls name).stop ∧
          ((polls name).leave (topics.historyFetch name)).closed = (polls name).closed := by
      unfold Poll.leave
      simp only
      split
      · exact ⟨rfl, rfl, rfl⟩
      · exact ⟨rfl, rfl, rfl⟩
    refine ⟨rest.1, rest.2.1, rest.2.2, ?_⟩
    rw [fresh, Bool.and_eq_true, Bool.not_eq_true']
    rintro ⟨isFresh, noHistory⟩
    refine ⟨isFresh, ?_⟩
    rintro ⟨history, -, -⟩
    rw [noHistory] at history
    cases history
  · have isSame : (topics.settle polls hub published).polls name = polls name := if_neg left
    rw [isSame]
    refine ⟨rfl, rfl, rfl, fun isFresh => ⟨isFresh, ?_⟩⟩
    rintro ⟨-, some, none⟩
    rw [same] at none
    exact left ⟨some, none⟩

/-- A topic whose subscribers are closed and to which nothing else happens. -/
theorem lowers_settle (polls : String → Poll) {hub : Hub} (published : List Publication)
    (steady : (topics.polls name).Steady (polls name))
    (leaves : topics.hub.topics name = none ∧ hub.topics name = none ∨
      ∃ state left, topics.hub.topics name = some state ∧ hub.topics name = some left ∧
        Leaves state left) :
    topics.Lowers (topics.settle polls hub published) name := by
  rcases @settle_polls topics polls hub published name with ⟨isRunning, isStop, isClosed, isFresh⟩
  have kept := @settle_same topics polls hub published name
  have isHub : (topics.settle polls hub published).hub = hub := rfl
  refine ⟨kept.fetch.trans steady.fetch, isRunning.trans steady.running,
    isStop.trans steady.stop, isClosed.trans steady.closed, ?_, ?_, ?_, ?_, ?_,
    (kept.fullVersion.trans steady.fullVersion).ge, ?_⟩
  · rw [isHub]
    rcases leaves with ⟨before, after⟩ | ⟨state, left, before, after, leaves⟩
    · rw [before, after]
    · rw [before, after]
      rfl
  · simp only [historyFetch, isHub]
    rcases leaves with ⟨before, after⟩ | ⟨state, left, before, after, leaves⟩
    · rw [before, after]
    · rw [before, after]
      exact leaves.historyFetch
  · simp only [subCount, isHub]
    rcases leaves with ⟨before, after⟩ | ⟨state, left, before, after, leaves⟩
    · rw [after]
      exact le_rfl
    · rw [after]
      exact leaves.nonneg
  · simp only [subCount, isHub]
    rcases leaves with ⟨before, after⟩ | ⟨state, left, before, after, leaves⟩
    · rw [before, after]
    · rw [before, after]
      exact leaves.le
  · intro pending
    simp only [fullPending, Deserted, historyFetch, subCount, isHub] at pending ⊢
    rcases leaves with ⟨before, after⟩ | ⟨state, left, before, after, leaves⟩
    · rw [after] at pending
      cases pending
    · rw [after] at pending
      rw [before, after]
      exact leaves.fullPending.mp pending
  · intro _
    refine ⟨?_, ?_, fun now => ⟨steady.fullFresh (isFresh now).1, (isFresh now).2⟩⟩
    · simp only [hasData, isHub]
      rcases leaves with ⟨before, after⟩ | ⟨state, left, before, after, leaves⟩
      · rw [before, after]
      · rw [before, after]
        exact congrArg TopicCache.hasData leaves.cache
    · intro pending stays
      simp only [fullPending, Deserted, historyFetch, subCount, isHub] at pending stays ⊢
      rcases leaves with ⟨before, after⟩ | ⟨state, left, before, after, leaves⟩
      · rw [before] at pending
        cases pending
      · rw [before] at pending
        rw [before, after] at stays
        rw [after]
        exact leaves.fullPending.mpr ⟨pending, stays⟩

theorem lowers_unsubscribe (counted : Counted topics.hub) (id : ℕ) :
    Counted (topics.unsubscribe id).hub ∧ ∀ name, topics.Lowers (topics.unsubscribe id) name := by
  rcases counted_unsubscribe counted id with ⟨still, leaves⟩
  refine ⟨still, ?_⟩
  intro name
  exact lowers_settle topics.polls topics.published (.refl _) (leaves name)

section Record

variable {config : Events.Config} {data : Bytes} {ts : ℤ} {fetch : Option ℕ}

theorem lowers_recordFetchError (counted : Counted topics.hub) (name : String) :
    Counted (topics.recordFetchError config name ts).hub ∧
      ∀ other, topics.Lowers (topics.recordFetchError config name ts) other := by
  have leaves : Counted (Events.recordFetchError config topics.hub name ts).1 ∧
      HubLeaves topics.hub (Events.recordFetchError config topics.hub name ts).1 := by
    rcases recordFetchError_cases config topics.hub name ts with same | ⟨ev, -, -, -, same⟩
    · rw [same]
      exact ⟨counted, .refl counted⟩
    · rw [same]
      exact counted_emit counted
  refine ⟨leaves.1, ?_⟩
  intro other
  refine lowers_settle _ _ (steady_modify ?_ other) (leaves.2 other)
  exact ⟨rfl, rfl, rfl, rfl, rfl, fun impossible => Bool.noConfusion impossible⟩

/-- Recording a payload: the version of the topic grows, and it waits for no projection. -/
theorem lowers_recordFetchSuccess (counted : Counted topics.hub) (name : String) :
    Counted (topics.recordFetchSuccess config name fetch data ts).hub ∧
      ∀ other, topics.Lowers (topics.recordFetchSuccess config name fetch data ts) other := by
  have steady : ∀ other ≠ name, (topics.polls other).Steady ((topics.modify name fun poll =>
      { poll with
        fullFresh := true
        fullVersion := poll.fullVersion + 1
        cached := fetch.getD poll.cached }).polls other) := by
    intro other differ
    simp only [modify, Function.update_of_ne differ]
    exact .refl _
  have own : (topics.recordFetchSuccess config name fetch data ts).fullPending name = false →
      (topics.recordFetchSuccess config name fetch data ts).historyFetch name =
        topics.historyFetch name →
      ((topics.recordFetchSuccess config name fetch data ts).hub.topics name).isSome =
        (topics.hub.topics name).isSome →
      0 ≤ (topics.recordFetchSuccess config name fetch data ts).subCount name →
      (topics.recordFetchSuccess config name fetch data ts).subCount name ≤
        topics.subCount name →
      topics.Lowers (topics.recordFetchSuccess config name fetch data ts) name := by
    intro renewed historyFetch known nonneg le
    set polls := (topics.modify name fun poll =>
      { poll with
        fullFresh := true
        fullVersion := poll.fullVersion + 1
        cached := fetch.getD poll.cached }).polls with isPolls
    have isOwn : polls name = { topics.polls name with
        fullFresh := true
        fullVersion := (topics.polls name).fullVersion + 1
        cached := fetch.getD (topics.polls name).cached } := Function.update_self _ _ _
    have result := @settle_polls topics polls
      (Events.recordFetchSuccess config topics.hub name data ts).1
      (topics.published ++ (Events.recordFetchSuccess config topics.hub name data ts).2.map
        fun event => ⟨event, fetch⟩) name
    have kept := @settle_same topics polls
      (Events.recordFetchSuccess config topics.hub name data ts).1
      (topics.published ++ (Events.recordFetchSuccess config topics.hub name data ts).2.map
        fun event => ⟨event, fetch⟩) name
    have version : ((topics.recordFetchSuccess config name fetch data ts).polls name).fullVersion =
        (topics.polls name).fullVersion + 1 := by
      refine kept.fullVersion.trans ?_
      rw [isOwn]
    refine ⟨?_, ?_, ?_, ?_, known, historyFetch, nonneg, le, ?_, ?_, ?_⟩
    · exact kept.fetch.trans (by rw [isOwn])
    · exact result.1.trans (by rw [isOwn])
    · exact result.2.1.trans (by rw [isOwn])
    · exact result.2.2.1.trans (by rw [isOwn])
    · intro pending
      rw [renewed] at pending
      cases pending
    · rw [version]
      exact Nat.le_succ _
    · intro same
      rw [version] at same
      exact absurd same (Nat.succ_ne_self _)
  have isHub : (topics.recordFetchSuccess config name fetch data ts).hub =
    (Events.recordFetchSuccess config topics.hub name data ts).1 := rfl
  rcases @recordFetchSuccess_records topics.hub config data ts name counted with
    ⟨isNone, same⟩ | ⟨state, new, isState, renewed, records⟩
  · rw [isHub, same]
    refine ⟨counted, ?_⟩
    intro other
    by_cases here : other = name
    · subst here
      apply own
      · simp only [fullPending, isHub, same, isNone, Option.map_none, Option.getD_none]
      · simp only [historyFetch, isHub, same]
      · rw [isHub, same]
      · simp only [subCount, isHub, same, isNone, Option.map_none, Option.getD_none, le_refl]
      · simp only [subCount, isHub, same, le_refl]
    · refine lowers_settle _ _ (steady other here) ?_
      rw [same]
      exact HubLeaves.refl counted other
  · rw [isHub]
    refine ⟨records.counted, ?_⟩
    intro other
    by_cases here : other = name
    · subst here
      rcases records.own with ⟨left, isLeft, leaves⟩
      apply own
      · rw [← Bool.not_eq_true]
        intro pending
        simp only [fullPending, isHub, isLeft, Option.map_some, Option.getD_some] at pending
        have waits := (leaves.fullPending.mp pending).1
        rw [renewed.fullPending] at waits
        cases waits
      · simp only [historyFetch, isHub, isLeft, isState, Option.map_some, Option.getD_some]
        exact leaves.historyFetch.trans renewed.historyFetch
      · rw [isHub, isLeft, isState]
        rfl
      · simp only [subCount, isHub, isLeft, Option.map_some, Option.getD_some]
        exact leaves.nonneg
      · simp only [subCount, isHub, isLeft, isState, Option.map_some, Option.getD_some]
        exact leaves.le.trans renewed.subCount.le
    · exact lowers_settle _ _ (steady other here) (records.others other here)

end Record
end Topics
end TelemtPanel.Polling
