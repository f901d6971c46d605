import TelemtPanel.Polling.Steps

/-!
# Subscribers of a topic

The subscriber count of a topic is the number of open subscribers that list it.  Closing
subscribers, on their own account or because they are slow, lowers it, and a full projection is
not expected any more when it has come down to zero.
-/

namespace TelemtPanel.Polling

open Library Events

/-- What closing some subscribers does to a topic. -/
structure Leaves (before later : TopicState) : Prop where
  historyFetch : later.historyFetch = before.historyFetch
  cache : later.cache = before.cache
  nonneg : 0 ≤ later.subCount
  le : later.subCount ≤ before.subCount
  fullPending : later.fullPending = true ↔ before.fullPending = true ∧
    ¬(before.historyFetch = true ∧ before.subCount ≠ 0 ∧ later.subCount = 0)

theorem Leaves.refl {state : TopicState} (nonneg : 0 ≤ state.subCount) : Leaves state state where
  historyFetch := rfl
  cache := rfl
  nonneg := nonneg
  le := le_rfl
  fullPending := by
    constructor
    · intro pending
      exact ⟨pending, fun gone => gone.2.1 gone.2.2⟩
    · exact And.left

theorem Leaves.trans {first second third : TopicState} (one : Leaves first second)
    (two : Leaves second third) : Leaves first third where
  historyFetch := two.historyFetch.trans one.historyFetch
  cache := two.cache.trans one.cache
  nonneg := two.nonneg
  le := two.le.trans one.le
  fullPending := by
    have above := two.nonneg
    have below := two.le
    have start := one.le
    rw [two.fullPending, one.fullPending, one.historyFetch]
    constructor
    · rintro ⟨⟨pending, stays⟩, still⟩
      refine ⟨pending, ?_⟩
      rintro ⟨history, some, none⟩
      by_cases middle : second.subCount = 0
      · exact stays ⟨history, some, middle⟩
      · exact still ⟨history, middle, none⟩
    · rintro ⟨pending, stays⟩
      refine ⟨⟨pending, ?_⟩, ?_⟩
      · rintro ⟨history, some, middle⟩
        exact stays ⟨history, some, by omega⟩
      · rintro ⟨history, some, none⟩
        exact stays ⟨history, by omega, none⟩

theorem leaves_leave {state : TopicState} (nonneg : 0 ≤ state.leave.subCount) :
    Leaves state state.leave := by
  have enough : 0 ≤ state.subCount - 1 := nonneg
  have positive : state.subCount ≠ 0 := by omega
  refine ⟨rfl, rfl, nonneg, Int.sub_le_self _ (by decide), ?_⟩
  simp only [TopicState.leave]
  cases state.historyFetch with
  | true => simp [positive]
  | false => simp

/-- Every topic is left by some subscribers. -/
def HubLeaves (before later : Hub) : Prop :=
  ∀ name, before.topics name = none ∧ later.topics name = none ∨
    ∃ state left, before.topics name = some state ∧ later.topics name = some left ∧
      Leaves state left

/-- The subscriber counts are right. -/
structure Counted (hub : Hub) : Prop where
  unique : (hub.subscribers.map Subscriber.id).Nodup
  below : ∀ sub ∈ hub.subscribers, sub.id < hub.nextSubID
  count : ∀ name state, hub.topics name = some state →
    state.subCount = (hub.subscribers.filter fun sub => name ∈ sub.topics).length

theorem Counted.nonneg {hub : Hub} (counted : Counted hub) {name : String} {state : TopicState}
    (isState : hub.topics name = some state) : 0 ≤ state.subCount := by
  rw [counted.count name state isState]
  exact Int.natCast_nonneg _

theorem HubLeaves.refl {hub : Hub} (counted : Counted hub) : HubLeaves hub hub := by
  intro name
  cases isState : hub.topics name with
  | none => exact Or.inl ⟨rfl, rfl⟩
  | some state => exact Or.inr ⟨state, state, rfl, rfl, .refl (counted.nonneg isState)⟩

theorem HubLeaves.trans {first second third : Hub} (one : HubLeaves first second)
    (two : HubLeaves second third) : HubLeaves first third := by
  intro name
  rcases one name with ⟨before, middle⟩ | ⟨state, left, before, middle, leaves⟩
  · rcases two name with ⟨-, after⟩ | ⟨state, left, again, -, -⟩
    · exact Or.inl ⟨before, after⟩
    · rw [middle] at again
      cases again
  · rcases two name with ⟨again, -⟩ | ⟨other, last, again, after, more⟩
    · rw [middle] at again
      cases again
    · rw [middle] at again
      cases again
      exact Or.inr ⟨state, last, before, after, leaves.trans more⟩

section Close

variable {hub : Hub} {sub : Subscriber} {config : Events.Config} {ev : Event}

/-- One subscriber less. -/
theorem length_filter_close {subs : List Subscriber} (unique : (subs.map Subscriber.id).Nodup)
    (mem : sub ∈ subs) (lists : Subscriber → Bool) :
    (subs.filter lists).length =
      ((subs.filter fun other => decide (other.id ≠ sub.id)).filter lists).length +
        if lists sub = true then 1 else 0 := by
  induction subs with
  | nil => cases mem
  | cons first rest ih =>
      rw [List.map_cons, List.nodup_cons] at unique
      rcases List.mem_cons.mp mem with same | later
      · subst same
        have absent : rest.filter (fun other => decide (other.id ≠ sub.id)) = rest := by
          rw [List.filter_eq_self]
          intro other isOther
          apply decide_eq_true
          intro sameID
          exact unique.1 (sameID ▸ List.mem_map_of_mem isOther)
        rw [List.filter_cons, List.filter_cons, absent]
        cases lists sub with
        | true => simp
        | false => simp
      · have differ : first.id ≠ sub.id := by
          intro sameID
          exact unique.1 (sameID ▸ List.mem_map_of_mem later)
        have shorter := ih unique.2 later
        rw [List.filter_cons, List.filter_cons, if_pos (decide_eq_true differ), List.filter_cons]
        cases lists first with
        | true =>
            simp only [if_true, List.length_cons, shorter]
            omega
        | false =>
            simp only [Bool.false_eq_true, if_false, shorter]

theorem counted_closeSubscriber (counted : Counted hub) (mem : sub ∈ hub.subscribers) :
    Counted (closeSubscriber hub sub) ∧ HubLeaves hub (closeSubscriber hub sub) := by
  have shorter := fun name => length_filter_close counted.unique mem fun other =>
    decide (name ∈ other.topics)
  have isCounted : Counted (closeSubscriber hub sub) := by
    refine ⟨?_, ?_, ?_⟩
    · exact (List.filter_sublist.map Subscriber.id).nodup counted.unique
    · intro other isOther
      exact counted.below other (List.mem_filter.mp isOther).1
    · intro name state isState
      have fewer := shorter name
      simp only [closeSubscriber] at isState ⊢
      split at isState
      · rename_i lists
        rcases Option.map_eq_some_iff.mp isState with ⟨old, isOld, rfl⟩
        rw [decide_eq_true lists] at fewer
        simp only [TopicState.leave, counted.count name old isOld, fewer, if_true]
        push_cast
        ring
      · rename_i lists
        rw [decide_eq_false lists] at fewer
        rw [counted.count name state isState, fewer]
        simp
  refine ⟨isCounted, ?_⟩
  intro name
  cases isState : hub.topics name with
  | none =>
      refine Or.inl ⟨rfl, ?_⟩
      simp only [closeSubscriber, isState]
      split <;> rfl
  | some state =>
      by_cases lists : name ∈ sub.topics
      · have isLeft : (closeSubscriber hub sub).topics name = some state.leave := by
          simp only [closeSubscriber, if_pos lists, isState, Option.map_some]
        exact Or.inr ⟨state, state.leave, rfl, isLeft, leaves_leave (isCounted.nonneg isLeft)⟩
      · refine Or.inr ⟨state, state, rfl, ?_, .refl (counted.nonneg isState)⟩
        simp only [closeSubscriber, if_neg lists, isState]

theorem counted_of_same {other : Hub} (counted : Counted hub)
    (subscribers : other.subscribers = hub.subscribers) (nextSubID : other.nextSubID = hub.nextSubID)
    (topics : ∀ name state, other.topics name = some state →
      ∃ old, hub.topics name = some old ∧ state.subCount = old.subCount) : Counted other := by
  refine ⟨?_, ?_, ?_⟩
  · rw [subscribers]
    exact counted.unique
  · rw [subscribers, nextSubID]
    exact counted.below
  · intro name state isState
    rcases topics name state isState with ⟨old, isOld, same⟩
    rw [same, subscribers]
    exact counted.count name old isOld

theorem counted_deliver (counted : Counted hub) (mem : sub ∈ hub.subscribers) :
    Counted (deliver config ev hub sub) ∧ HubLeaves hub (deliver config ev hub sub) := by
  unfold deliver
  split
  · split
    · refine ⟨?_, HubLeaves.refl counted⟩
      exact counted_of_same counted rfl rfl fun _ state isState => ⟨state, isState, rfl⟩
    · exact counted_closeSubscriber counted mem
  · exact ⟨counted, .refl counted⟩

/-- A broadcast closes the subscribers that are too slow. -/
theorem counted_broadcast (counted : Counted hub) :
    Counted (broadcast config hub ev) ∧ HubLeaves hub (broadcast config hub ev) := by
  have all : ∀ (subs : List Subscriber) (hub : Hub), Counted hub →
      (subs.map Subscriber.id).Nodup → (∀ sub ∈ subs, sub ∈ hub.subscribers) →
      Counted (subs.foldl (deliver config ev) hub) ∧
        HubLeaves hub (subs.foldl (deliver config ev) hub) := by
    intro subs
    induction subs with
    | nil => exact fun hub counted _ _ => ⟨counted, .refl counted⟩
    | cons sub subs ih =>
        intro hub counted unique members
        rcases List.forall_mem_cons.mp members with ⟨mem, rest⟩
        rw [List.map_cons, List.nodup_cons] at unique
        rcases counted_deliver counted mem with ⟨still, leaves⟩
        have stay : ∀ other ∈ subs, other ∈ (deliver config ev hub sub).subscribers := by
          intro other isOther
          refine (deliver_other_mem config ev sub other ?_).mpr (rest other isOther)
          intro sameID
          exact unique.1 (sameID ▸ List.mem_map_of_mem isOther)
        rcases ih _ still unique.2 stay with ⟨finally_, more⟩
        exact ⟨finally_, leaves.trans more⟩
  exact all hub.subscribers hub counted counted.unique fun _ mem => mem

theorem counted_unsubscribe (counted : Counted hub) (id : ℕ) :
    Counted (Events.unsubscribe hub id) ∧ HubLeaves hub (Events.unsubscribe hub id) := by
  unfold Events.unsubscribe
  split
  · exact ⟨counted, .refl counted⟩
  · rename_i sub found
    exact counted_closeSubscriber counted (List.mem_of_find?_eq_some found)

theorem counted_emit (counted : Counted hub) :
    Counted (emit config hub ev) ∧ HubLeaves hub (emit config hub ev) := by
  unfold emit
  have same : Counted (appendRing config { hub with seq := hub.seq + 1 } ev) :=
    counted_of_same counted rfl rfl fun _ state isState => ⟨state, isState, rfl⟩
  rcases @counted_broadcast _ config ev same with ⟨still, leaves⟩
  exact ⟨still, leaves⟩

theorem counted_setTopic (counted : Counted hub) {name : String} {state new : TopicState}
    (isState : hub.topics name = some state) (same : new.subCount = state.subCount) :
    Counted (setTopic hub name new) := by
  refine counted_of_same counted rfl rfl ?_
  intro other found isFound
  simp only [setTopic, Function.update_apply] at isFound
  split at isFound
  · rename_i here
    cases isFound
    exact ⟨state, by rw [here, isState], same⟩
  · exact ⟨found, isFound, rfl⟩

end Close

section Record

variable {hub : Hub} {config : Events.Config} {data : Bytes} {ts : ℤ} {name : String}

/-- What recording a fetch does to the topics: the one of the fetch is replaced before the
subscribers that are too slow are closed. -/
structure Records (hub later : Hub) (name : String) (new : TopicState) : Prop where
  counted : Counted later
  own : ∃ left, later.topics name = some left ∧ Leaves new left
  others : ∀ other ≠ name, hub.topics other = none ∧ later.topics other = none ∨
    ∃ state left, hub.topics other = some state ∧ later.topics other = some left ∧
      Leaves state left

theorem records_emit (counted : Counted hub) {state new : TopicState}
    (isState : hub.topics name = some state) (same : new.subCount = state.subCount) (ev : Event) :
    Records hub (emit config (setTopic hub name new) ev) name new := by
  rcases @counted_emit _ config ev (counted_setTopic counted isState same) with ⟨still, leaves⟩
  refine ⟨still, ?_, ?_⟩
  · rcases leaves name with ⟨none, -⟩ | ⟨old, left, isOld, isLeft, leaves⟩
    · simp [setTopic] at none
    · simp only [setTopic, Function.update_self] at isOld
      cases isOld
      exact ⟨left, isLeft, leaves⟩
  · intro other differ
    have kept := leaves other
    simp only [setTopic, Function.update_of_ne differ] at kept
    exact kept

theorem records_setTopic (counted : Counted hub) {state new : TopicState}
    (isState : hub.topics name = some state) (same : new.subCount = state.subCount) :
    Records hub (setTopic hub name new) name new := by
  have still := counted_setTopic counted isState same
  refine ⟨still, ?_, ?_⟩
  · refine ⟨new, by simp [setTopic], .refl ?_⟩
    rw [same]
    exact counted.nonneg isState
  · intro other differ
    have kept := HubLeaves.refl still other
    simp only [setTopic, Function.update_of_ne differ] at kept ⊢
    exact kept

/-- A recorded payload: the topic has it and waits for none. -/
structure Renewed (state new : TopicState) (data : Bytes) : Prop where
  historyFetch : new.historyFetch = state.historyFetch
  subCount : new.subCount = state.subCount
  hasData : new.hasData = true
  lastData : new.lastData = data
  fullPending : new.fullPending = false

theorem recordFetchSuccess_records (counted : Counted hub) :
    hub.topics name = none ∧ (Events.recordFetchSuccess config hub name data ts).1 = hub ∨
      ∃ state new, hub.topics name = some state ∧ Renewed state new data ∧
        Records hub (Events.recordFetchSuccess config hub name data ts).1 name new := by
  unfold Events.recordFetchSuccess
  cases isState : hub.topics name with
  | none => exact Or.inl ⟨rfl, rfl⟩
  | some state =>
      refine Or.inr ?_
      simp only
      split
      · rename_i same
        rw [Bool.and_eq_true] at same
        split
        · refine ⟨state, _, rfl, ?_, @records_emit hub config name counted state _ isState ?_ _⟩
          · exact ⟨rfl, rfl, same.1, rfl, rfl⟩
          · rfl
        · refine ⟨state, _, rfl, ?_, @records_setTopic hub name counted state _ isState ?_⟩
          · exact ⟨rfl, rfl, same.1, rfl, rfl⟩
          · rfl
      · refine ⟨state, _, rfl, ?_, @records_emit hub config name counted state _ isState ?_ _⟩
        · exact ⟨rfl, rfl, rfl, rfl, rfl⟩
        · rfl

end Record
end TelemtPanel.Polling
