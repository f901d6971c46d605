import TelemtPanel.Polling.Lifecycle

/-!
# A poller for every subscribed topic

A topic that is polled and has a subscriber has a running poller, whose stop channel is open and
to which one of the goroutines listens.  A subscription starts it, the function of a grace timer
stops it only when there is no subscriber, and no other step does either.
-/

namespace TelemtPanel.Polling

open Library Events

section Subscribe

variable {hub : Hub}

/-- The topics that have been joined so far. -/
structure Enters (hub : Hub) (progress : Hub × List String × List Event) : Prop where
  topics : ∀ name, progress.1.topics name =
    if name ∈ progress.2.1 then (hub.topics name).map TopicState.join else hub.topics name
  distinct : progress.2.1.Nodup

theorem Enters.joinTopic {progress : Hub × List String × List Event} (enters : Enters hub progress)
    (name : String) : Enters hub (Events.joinTopic progress name) := by
  unfold Events.joinTopic
  split
  · exact enters
  · rename_i fresh
    split
    · exact enters
    · rename_i state found
      rw [enters.topics, if_neg fresh] at found
      constructor
      · intro other
        simp only [setTopic, Function.update_apply, List.mem_append, List.mem_singleton]
        by_cases here : other = name
        · rw [if_pos here, if_pos (Or.inr here), here, found]
          rfl
        · simp only [here, or_false]
          exact enters.topics other
      · exact List.nodup_append.mpr ⟨enters.distinct, List.nodup_singleton _,
          fun one mem other isName same => fresh (by
            rw [List.mem_singleton.mp isName] at same
            exact same ▸ mem)⟩

theorem Enters.foldl {progress : Hub × List String × List Event} (enters : Enters hub progress)
    (names : List String) : Enters hub (names.foldl Events.joinTopic progress) := by
  induction names generalizing progress with
  | nil => exact enters
  | cons name names ih => exact ih (enters.joinTopic name)

/-- A subscription joins each of its topics once. -/
theorem enters_subscribe {names : List String} {result : Hub × ℕ × List String × List Event}
    (accepted : Events.subscribe hub names = some result) :
    (∀ name, result.1.topics name =
      if name ∈ result.2.2.1 then (hub.topics name).map TopicState.join else hub.topics name) ∧
      result.2.2.1.Nodup := by
  have enters : Enters hub (names.foldl Events.joinTopic (hub, [], [])) := by
    refine Enters.foldl ⟨?_, List.nodup_nil⟩ names
    intro name
    simp
  unfold Events.subscribe at accepted
  split at accepted
  · cases accepted
  · cases accepted
    exact ⟨enters.topics, enters.distinct⟩

theorem counted_subscribe {names : List String} {result : Hub × ℕ × List String × List Event}
    (counted : Counted hub) (accepted : Events.subscribe hub names = some result) :
    Counted result.1 := by
  have spec := subscribe_spec accepted
  rcases enters_subscribe accepted with ⟨topics, -⟩
  refine ⟨?_, ?_, ?_⟩
  · rw [spec.subscribers, List.map_append, List.nodup_append]
    refine ⟨counted.unique, List.nodup_singleton _, ?_⟩
    intro id member other isNew same
    rcases List.mem_map.mp member with ⟨sub, isSub, rfl⟩
    rw [List.map_singleton, List.mem_singleton, spec.id] at isNew
    exact absurd (same.trans isNew) (counted.below sub isSub).ne
  · rw [spec.subscribers, spec.nextSubID]
    intro sub member
    rcases List.mem_append.mp member with old | isNew
    · exact (counted.below sub old).trans (Nat.lt_succ_self _)
    · rw [List.mem_singleton.mp isNew, spec.id]
      exact Nat.lt_succ_self _
  · intro name state isState
    rw [topics] at isState
    rw [spec.subscribers, List.filter_append, List.length_append]
    split at isState
    · rename_i joined
      rcases Option.map_eq_some_iff.mp isState with ⟨old, isOld, rfl⟩
      simp only [TopicState.join, counted.count name old isOld, List.filter_cons, joined,
        decide_true, if_true, List.filter_nil, List.length_singleton]
      push_cast
      rfl
    · rename_i apart
      simp only [counted.count name state isState, List.filter_cons, apart, decide_false,
        Bool.false_eq_true, if_false, List.filter_nil, List.length_nil, Nat.add_zero]

end Subscribe

theorem Poll.Steady.trans {poll middle last : Poll} (one : Steady poll middle)
    (two : Steady middle last) : Steady poll last where
  fetch := two.fetch.trans one.fetch
  running := two.running.trans one.running
  stop := two.stop.trans one.stop
  closed := two.closed.trans one.closed
  fullVersion := two.fullVersion.trans one.fullVersion
  fullFresh isFresh := one.fullFresh (two.fullFresh isFresh)

namespace Topics

/-- A step in which no topic gains a subscriber and no poller is started or stopped. -/
structure Calm (topics later : Topics) : Prop where
  counted : Counted later.hub
  lowers : ∀ name, topics.Lowers later name

variable {topics : Topics} {name : String}

/-- Only pollers are touched. -/
theorem calm_of_steady {later : Topics} (counted : Counted topics.hub)
    (hub : later.hub = topics.hub)
    (steady : ∀ name, (topics.polls name).Steady (later.polls name)) : topics.Calm later := by
  constructor
  · rw [hub]
    exact counted
  · intro name
    exact lowers_of_hub counted (by rw [hub]) (steady name)

theorem Calm.refl (counted : Counted topics.hub) : topics.Calm topics :=
  calm_of_steady counted rfl fun _ => .refl _

theorem calm_modify (counted : Counted topics.hub) (name : String) {change : Poll → Poll}
    (steady : (topics.polls name).Steady (change (topics.polls name))) :
    topics.Calm (topics.modify name change) :=
  calm_of_steady counted rfl (steady_modify steady)

end Topics

section Advance

variable {config : Config} {topics : Topics} {now : ℤ} {contextDone : Bool} {name : String}

theorem calm_wakeSection (counted : Counted topics.hub) (stop : ℕ) :
    topics.Calm (wakeSection config topics now name stop).1 := by
  unfold wakeSection
  simp only
  split
  · exact .refl counted
  split
  · dsimp only
    refine Topics.calm_modify counted name ?_
    exact ⟨rfl, rfl, rfl, rfl, rfl, id⟩
  · dsimp only
    refine Topics.calm_modify counted name ?_
    exact ⟨rfl, rfl, rfl, rfl, rfl, id⟩

theorem calm_ownedSection (counted : Counted topics.hub) (caller : Caller) (profile : Profile)
    (recheck : Recheck) (previousVersion : ℕ) :
    topics.Calm (ownedSection topics caller name profile recheck previousVersion).1 := by
  have stales : ∀ chosen other,
      (topics.polls other).Steady ((staled topics name chosen).polls other) := by
    intro chosen other
    unfold staled
    split
    · refine steady_modify ?_ other
      exact ⟨rfl, rfl, rfl, rfl, rfl, fun impossible => Bool.noConfusion impossible⟩
    · exact .refl _
  have hub : ∀ chosen, (staled topics name chosen).hub = topics.hub := by
    intro chosen
    unfold staled
    split
    · rfl
    · rfl
  simp only [ownedSection]
  split
  · exact Topics.calm_of_steady counted (hub _) (stales _)
  split
  · exact Topics.calm_of_steady counted (hub _) (stales _)
  · refine Topics.calm_of_steady counted (hub _) ?_
    intro other
    refine (stales _ other).trans (steady_modify ?_ other)
    exact ⟨rfl, rfl, rfl, rfl, rfl, id⟩

/-- No step of a goroutine starts or stops a poller. -/
theorem calm_advance (counted : Counted topics.hub) (choice : Choice) (thread : Thread) :
    topics.Calm (advance config topics now contextDone choice thread).1 := by
  cases thread with
  | starting other => exact .refl counted
  | waiting other stop =>
      simp only [advance]
      split
      · exact .refl counted
      · split
        · dsimp only
          refine Topics.calm_modify counted other ?_
          exact ⟨rfl, rfl, rfl, rfl, rfl, id⟩
        · exact .refl counted
      · split
        · exact .refl counted
        · exact .refl counted
      · exact .refl counted
  | ticked other stop => exact .refl counted
  | woken other stop => exact calm_wakeSection counted stop
  | poll caller other phase =>
      cases phase with
      | gate profile recheck previousVersion =>
          simp only [advance]
          split
          · split
            · dsimp only
              refine Topics.calm_modify counted other ?_
              exact ⟨rfl, rfl, rfl, rfl, rfl, id⟩
            · exact .refl counted
          · split
            · exact .refl counted
            · exact .refl counted
          · exact .refl counted
      | owned profile recheck previousVersion => exact calm_ownedSection counted caller profile _ _
      | fetching profile number =>
          simp only [advance]
          split
          · exact .refl counted
          · exact .refl counted
      | record number data =>
          simp only [advance]
          split
          · split
            · rcases @Topics.lowers_recordFetchSuccess topics config.events _ _ (some number)
                counted other with ⟨still, lowers⟩
              exact ⟨still, lowers⟩
            · rcases @Topics.lowers_recordFetchError topics config.events _ counted other
                with ⟨still, lowers⟩
              exact ⟨still, lowers⟩
          · exact .refl counted
      | release result =>
          simp only [advance]
          refine Topics.calm_modify counted other ?_
          exact ⟨rfl, rfl, rfl, rfl, rfl, id⟩
  | look todo out =>
      cases todo with
      | nil => exact .refl counted
      | cons other todo => exact .refl counted
  | read other version result todo out => exact .refl counted
  | wakeUp other =>
      simp only [advance]
      refine Topics.calm_modify counted other ?_
      exact ⟨rfl, rfl, rfl, rfl, rfl, id⟩
  | finished out => exact .refl counted

end Advance

/-- The poller of a topic, which listens to a stop channel once it has begun to run. -/
def Thread.Listens (name : String) (stop : ℕ) : Thread → Prop
  | .starting other => other = name
  | .waiting other own => other = name ∧ own = stop
  | .ticked other own => other = name ∧ own = stop
  | .woken other own => other = name ∧ own = stop
  | .poll (.poller own) other _ => other = name ∧ own = stop
  | _ => False

section Listens

variable {config : Config} {topics : Topics} {now : ℤ} {contextDone : Bool} {name : String}
  {stop : ℕ}

/-- A goroutine in the middle of a poll goes on with it, or it returns to its caller. -/
theorem advance_poll (choice : Choice) (caller : Caller) (phase : PollPhase) :
    (∃ next, (advance config topics now contextDone choice (.poll caller name phase)).2 =
        .poll caller name next) ∨
      ∃ result, (advance config topics now contextDone choice (.poll caller name phase)).2 =
        returned name result caller := by
  cases phase with
  | gate profile recheck previousVersion =>
      simp only [advance]
      split
      · split
        · exact Or.inl ⟨_, rfl⟩
        · exact Or.inl ⟨_, rfl⟩
      · split
        · exact Or.inr ⟨_, rfl⟩
        · exact Or.inl ⟨_, rfl⟩
      · exact Or.inl ⟨_, rfl⟩
  | owned profile recheck previousVersion =>
      left
      simp only [advance, ownedSection]
      split
      · exact ⟨_, rfl⟩
      split
      · exact ⟨_, rfl⟩
      · exact ⟨_, rfl⟩
  | fetching profile number =>
      left
      simp only [advance, fetchReturned]
      split
      · split
        · exact ⟨_, rfl⟩
        · split
          · exact ⟨_, rfl⟩
          · exact ⟨_, rfl⟩
          · exact ⟨_, rfl⟩
          · exact ⟨_, rfl⟩
      · exact ⟨_, rfl⟩
  | record number data =>
      left
      simp only [advance]
      split
      · split
        · exact ⟨_, rfl⟩
        · exact ⟨_, rfl⟩
      · exact ⟨_, rfl⟩
  | release result => exact Or.inr ⟨result, rfl⟩

/-- A poller goes on until its stop channel is closed. -/
theorem listens_advance {thread : Thread} (listens : thread.Listens name stop)
    (isStop : (topics.polls name).stop = stop) (isOpen : stop ∉ (topics.polls name).closed)
    (choice : Choice) :
    (advance config topics now contextDone choice thread).2.Listens name stop := by
  cases thread with
  | starting other =>
      cases listens
      exact ⟨rfl, isStop⟩
  | waiting other own =>
      rcases listens with ⟨rfl, rfl⟩
      cases choice with
      | wake =>
          simp only [advance]
          split
          · exact ⟨rfl, rfl⟩
          · exact ⟨rfl, rfl⟩
      | stop =>
          simp only [advance, if_neg isOpen]
          exact ⟨rfl, rfl⟩
      | _ => exact ⟨rfl, rfl⟩
  | ticked other own => exact listens
  | woken other own =>
      rcases listens with ⟨rfl, rfl⟩
      simp only [advance, wakeSection]
      split
      · exact ⟨rfl, rfl⟩
      split
      · exact ⟨rfl, rfl⟩
      · exact ⟨rfl, rfl⟩
  | poll caller other phase =>
      cases caller with
      | poller own =>
          rcases listens with ⟨rfl, rfl⟩
          rcases @advance_poll config topics now contextDone other choice (.poller own) phase with
            ⟨next, same⟩ | ⟨result, same⟩
          · rw [same]
            exact ⟨rfl, rfl⟩
          · rw [same]
            exact ⟨rfl, rfl⟩
      | _ => cases listens
  | _ => cases listens

end Listens

section Polls

variable {poll : Poll}

theorem join_spec (first historyFetch : Bool) :
    (poll.join first historyFetch).running = (poll.running || poll.fetch) ∧
      (poll.join first historyFetch).stop = (if poll.starts then poll.stop + 1 else poll.stop) ∧
        (poll.join first historyFetch).closed = poll.closed := by
  have stopped : poll.stopTimer.running = poll.running ∧ poll.stopTimer.fetch = poll.fetch ∧
      poll.stopTimer.stop = poll.stop ∧ poll.stopTimer.closed = poll.closed := by
    unfold Poll.stopTimer
    split
    · exact ⟨rfl, rfl, rfl, rfl⟩
    · exact ⟨rfl, rfl, rfl, rfl⟩
  have starts : (!poll.stopTimer.running && poll.stopTimer.fetch) = poll.starts := by
    rw [stopped.1, stopped.2.1]
    rfl
  unfold Poll.join
  simp only [starts]
  cases isRunning : poll.running with
  | true =>
      have isStill : poll.starts = false := by simp [Poll.starts, isRunning]
      simp only [isStill, Bool.false_eq_true, if_false, Bool.true_or]
      split
      · exact ⟨stopped.1.trans isRunning, stopped.2.2⟩
      · exact ⟨stopped.1.trans isRunning, stopped.2.2⟩
  | false =>
      cases isFetch : poll.fetch with
      | true =>
          have isStart : poll.starts = true := by simp [Poll.starts, isRunning, isFetch]
          simp only [isStart, if_true, Bool.or_true, stopped.2.2.1]
          split
          · exact ⟨rfl, rfl, stopped.2.2.2⟩
          · exact ⟨rfl, rfl, stopped.2.2.2⟩
      | false =>
          have isStill : poll.starts = false := by simp [Poll.starts, isFetch]
          simp only [isStill, Bool.false_eq_true, if_false, Bool.or_false]
          split
          · exact ⟨stopped.1.trans isRunning, stopped.2.2⟩
          · exact ⟨stopped.1.trans isRunning, stopped.2.2⟩

/-- The function of a grace timer does nothing, or it stops the poller of an idle topic. -/
theorem stopIfIdle_cases (subCount : ℤ) :
    poll.stopIfIdle subCount = poll ∨
      subCount = 0 ∧ (poll.stopIfIdle subCount).running = false ∧
        (poll.stopIfIdle subCount).stop = poll.stop ∧
          (poll.stopIfIdle subCount).closed = insert poll.stop poll.closed := by
  unfold Poll.stopIfIdle
  split
  · exact Or.inl rfl
  · rename_i idle
    simp only [not_or, Decidable.not_not] at idle
    exact Or.inr ⟨idle.1, rfl, rfl, rfl⟩

theorem shut_spec : poll.shut.running = false ∧ poll.shut.stop = poll.stop ∧
    ∀ stop ∈ poll.shut.closed, stop ∈ poll.closed ∨ stop = poll.stop := by
  have stopped : poll.stopTimer.stop = poll.stop ∧ poll.stopTimer.closed = poll.closed := by
    unfold Poll.stopTimer
    split
    · exact ⟨rfl, rfl⟩
    · exact ⟨rfl, rfl⟩
  unfold Poll.shut
  simp only
  split
  · refine ⟨rfl, stopped.1, ?_⟩
    intro stop mem
    rw [stopped.1, stopped.2] at mem
    exact (Finset.mem_insert.mp mem).symm
  · rename_i idle
    refine ⟨Bool.eq_false_of_not_eq_true idle, stopped.1, ?_⟩
    intro stop mem
    rw [stopped.2] at mem
    exact Or.inl mem

end Polls

namespace Machine

variable {machine : Machine} {config : Config}

/-- The hub counts the subscribers of its topics, and a topic with a subscriber has a poller, if it
is one that is polled. -/
structure Alive (machine : Machine) : Prop where
  counted : Counted machine.topics.hub
  closed : ∀ name, ∀ stop ∈ (machine.topics.polls name).closed,
    stop ≤ (machine.topics.polls name).stop
  running : ∀ name, (machine.topics.polls name).running = true →
    (machine.topics.polls name).stop ∉ (machine.topics.polls name).closed ∧
      ∃ thread, machine.threads (.poller name (machine.topics.polls name).stop) = some thread ∧
        thread.Listens name (machine.topics.polls name).stop
  polled : ∀ name, machine.topics.subCount name ≠ 0 →
    (machine.topics.polls name).fetch = true → (machine.topics.polls name).running = true

/-- No step ends a poller whose stop channel is open. -/
theorem listens_step {name : String} {thread : Thread} (action : Action)
    (found : machine.threads (.poller name (machine.topics.polls name).stop) = some thread)
    (listens : thread.Listens name (machine.topics.polls name).stop)
    (isOpen : (machine.topics.polls name).stop ∉ (machine.topics.polls name).closed) :
    ∃ next, (machine.step config action).threads
        (.poller name (machine.topics.polls name).stop) = some next ∧
      next.Listens name (machine.topics.polls name).stop := by
  have called : ∀ (other : Machine) (call : Thread),
      other.threads (.poller name (machine.topics.polls name).stop) = some thread →
      (other.call call).threads (.poller name (machine.topics.polls name).stop) = some thread := by
    intro other call isThread
    simp only [Machine.call, setThread]
    rw [Function.update_of_ne (by simp), isThread]
  cases action with
  | subscribe names =>
      simp only [step, subscribe]
      split
      · exact ⟨thread, found, listens⟩
      · refine ⟨thread, ?_, listens⟩
        simp only
        rw [if_neg, found]
        rintro ⟨-, -, impossible⟩
        exact absurd impossible (Nat.ne_of_lt (Nat.lt_succ_self _))
  | unsubscribe id => exact ⟨thread, found, listens⟩
  | receive id => exact ⟨thread, found, listens⟩
  | launch other timer =>
      simp only [step]
      split
      · exact ⟨thread, found, listens⟩
      · exact ⟨thread, found, listens⟩
  | stopIfIdle other timer =>
      simp only [step]
      split
      · exact ⟨thread, found, listens⟩
      · exact ⟨thread, found, listens⟩
  | poke other =>
      simp only [step, poke]
      split
      · exact ⟨thread, found, listens⟩
      split
      · exact ⟨thread, found, listens⟩
      split
      · exact ⟨thread, called machine _ found, listens⟩
      · refine ⟨thread, called _ _ ?_, listens⟩
        exact found
  | snapshot names =>
      simp only [step, snapshot]
      split
      · exact ⟨thread, found, listens⟩
      · exact ⟨thread, called machine _ found, listens⟩
  | cancelCaller number => exact ⟨thread, found, listens⟩
  | publishUpdate data ts => exact ⟨thread, found, listens⟩
  | cancel => exact ⟨thread, found, listens⟩
  | close =>
      simp only [step]
      split
      · exact ⟨thread, found, listens⟩
      · exact ⟨thread, found, listens⟩
  | wait elapsed => exact ⟨thread, found, listens⟩
  | proceed tid choice =>
      simp only [step, proceed]
      split
      · exact ⟨thread, found, listens⟩
      · rename_i own isOwn
        simp only [setThread, Function.update_apply]
        split
        · rename_i here
          rw [← here, found] at isOwn
          cases isOwn
          exact ⟨_, rfl, listens_advance listens rfl isOpen choice⟩
        · exact ⟨thread, found, listens⟩

/-- A step is calm, unless it is a subscription, the function of a grace timer or `Close`. -/
theorem step_calm (counted : Counted machine.topics.hub) (action : Action) :
    machine.topics.Calm (machine.step config action).topics ∨
      (∃ names, action = .subscribe names) ∨ (∃ name timer, action = .stopIfIdle name timer) ∨
        action = .close := by
  cases action with
  | subscribe names => exact Or.inr (Or.inl ⟨names, rfl⟩)
  | stopIfIdle name timer => exact Or.inr (Or.inr (Or.inl ⟨name, timer, rfl⟩))
  | close => exact Or.inr (Or.inr (Or.inr rfl))
  | unsubscribe id =>
      rcases Topics.lowers_unsubscribe counted id with ⟨still, lowers⟩
      exact Or.inl ⟨still, lowers⟩
  | receive id =>
      left
      refine ⟨?_, ?_⟩
      · exact counted_of_same counted rfl rfl fun _ state isState => ⟨state, isState, rfl⟩
      · intro name
        exact Topics.lowers_of_hub counted rfl (.refl _)
  | launch name timer =>
      left
      simp only [step]
      split
      · dsimp only
        refine Topics.calm_modify counted name ?_
        exact ⟨rfl, rfl, rfl, rfl, rfl, id⟩
      · exact .refl counted
  | poke name =>
      left
      simp only [step, poke]
      split
      · exact .refl counted
      split
      · exact .refl counted
      split
      · exact .refl counted
      · simp only [call, setThread]
        refine Topics.calm_modify counted name ?_
        exact ⟨rfl, rfl, rfl, rfl, rfl, id⟩
  | snapshot names =>
      left
      simp only [step, snapshot]
      split
      · exact .refl counted
      · exact .refl counted
  | cancelCaller number => exact Or.inl (.refl counted)
  | publishUpdate data ts =>
      rcases @Topics.lowers_recordFetchSuccess machine.topics config.events data ts none counted
        updateTopic with ⟨still, lowers⟩
      exact Or.inl ⟨still, lowers⟩
  | cancel => exact Or.inl (.refl counted)
  | wait elapsed => exact Or.inl (.refl counted)
  | proceed tid choice =>
      left
      simp only [step, proceed]
      split
      · exact .refl counted
      · exact calm_advance counted choice _

/-- A calm step keeps the pollers. -/
theorem Alive.calm (alive : Alive machine) {action : Action}
    (calm : machine.topics.Calm (machine.step config action).topics) :
    Alive (machine.step config action) := by
  refine ⟨calm.counted, ?_, ?_, ?_⟩
  · intro name stop mem
    rw [(calm.lowers name).closed] at mem
    rw [(calm.lowers name).stop]
    exact alive.closed name stop mem
  · intro name isRunning
    rw [(calm.lowers name).running] at isRunning
    rcases alive.running name isRunning with ⟨isOpen, thread, found, listens⟩
    rw [(calm.lowers name).stop, (calm.lowers name).closed]
    exact ⟨isOpen, listens_step action found listens isOpen⟩
  · intro name subscribed isFetch
    rw [(calm.lowers name).fetch] at isFetch
    rw [(calm.lowers name).running]
    refine alive.polled name ?_ isFetch
    have nonneg := (calm.lowers name).nonneg
    have le := (calm.lowers name).le
    omega

/-- A subscription starts the pollers that are not running. -/
theorem Alive.subscribe (alive : Alive machine) (names : List String) :
    Alive (machine.step config (.subscribe names)) := by
  have kept := fun name thread found listens isOpen =>
    @listens_step machine config name thread (.subscribe names) found listens isOpen
  revert kept
  simp only [step, Machine.subscribe]
  cases accepted : machine.topics.subscribe names with
  | none => exact fun _ => alive
  | some result =>
      rcases result with ⟨later, joined⟩
      intro kept
      dsimp only at kept ⊢
      rcases Option.map_eq_some_iff.mp accepted with ⟨own, isSubscribed, same⟩
      cases same
      rcases enters_subscribe isSubscribed with ⟨topics, -⟩
      have polls : ∀ name, name ∉ own.2.2.1 ∨ name ∈ own.2.2.1 := fun name =>
        (Decidable.em _).symm
      refine ⟨counted_subscribe alive.counted isSubscribed, ?_, ?_, ?_⟩
      · intro name stop mem
        simp only at mem ⊢
        split at mem
        · rename_i isJoined
          rcases @join_spec (machine.topics.polls name) (machine.topics.subCount name == 0)
            (machine.topics.historyFetch name) with ⟨-, isStop, isClosed⟩
          rw [isClosed] at mem
          rw [if_pos isJoined, isStop]
          have below := alive.closed name stop mem
          split
          · exact below.trans (Nat.le_succ _)
          · exact below
        · rename_i apart
          rw [if_neg apart]
          exact alive.closed name stop mem
      · intro name isRunning
        rcases polls name with apart | isJoined
        · simp only [if_neg apart] at isRunning ⊢
          rcases alive.running name isRunning with ⟨isOpen, thread, found, listens⟩
          exact ⟨isOpen, kept name thread found listens isOpen⟩
        · rcases @join_spec (machine.topics.polls name) (machine.topics.subCount name == 0)
            (machine.topics.historyFetch name) with ⟨running, isStop, isClosed⟩
          simp only [if_pos isJoined] at isRunning ⊢
          rw [running] at isRunning
          rw [isStop, isClosed]
          by_cases isStart : (machine.topics.polls name).starts = true
          · simp only [if_pos isStart]
            refine ⟨?_, .starting name, ?_, rfl⟩
            · intro mem
              exact absurd (alive.closed name _ mem) (Nat.not_succ_le_self _)
            · exact if_pos ⟨isJoined, isStart, trivial⟩
          · have wasRunning : (machine.topics.polls name).running = true := by
              cases before : (machine.topics.polls name).running with
              | true => rfl
              | false =>
                  rw [before, Bool.false_or] at isRunning
                  rw [Poll.starts, before, isRunning] at isStart
                  exact absurd rfl isStart
            rcases alive.running name wasRunning with ⟨isOpen, thread, found, listens⟩
            simp only [if_neg isStart]
            exact ⟨isOpen, kept name thread found listens isOpen⟩
      · intro name subscribed isFetch
        rcases polls name with apart | isJoined
        · simp only [if_neg apart] at isFetch ⊢
          refine alive.polled name ?_ isFetch
          intro none
          apply subscribed
          simp only [Topics.subCount, topics, if_neg apart] at none ⊢
          exact none
        · rcases @join_spec (machine.topics.polls name) (machine.topics.subCount name == 0)
            (machine.topics.historyFetch name) with ⟨running, -, -⟩
          simp only [if_pos isJoined] at isFetch ⊢
          rw [(@Poll.same_join (machine.topics.polls name) _ _).fetch] at isFetch
          rw [running, isFetch, Bool.or_true]

theorem Alive.stopIfIdle (alive : Alive machine) (name : String) (timer : ℕ) :
    Alive (machine.step config (.stopIfIdle name timer)) := by
  have kept := fun other thread found listens isOpen =>
    @listens_step machine config other thread (.stopIfIdle name timer) found listens isOpen
  revert kept
  simp only [step]
  split
  · intro kept
    have others : ∀ other ≠ name, (machine.topics.modify name fun poll =>
        { poll.stopIfIdle (machine.topics.subCount name) with
          timers := Function.update poll.timers timer none }).polls other =
          machine.topics.polls other := by
      intro other differ
      simp only [Topics.modify, Function.update_of_ne differ]
    have own : (machine.topics.modify name fun poll =>
        { poll.stopIfIdle (machine.topics.subCount name) with
          timers := Function.update poll.timers timer none }).polls name =
          { (machine.topics.polls name).stopIfIdle (machine.topics.subCount name) with
            timers := Function.update (machine.topics.polls name).timers timer none } := by
      simp only [Topics.modify, Function.update_self]
    have cases_ := @stopIfIdle_cases (machine.topics.polls name) (machine.topics.subCount name)
    refine ⟨alive.counted, ?_, ?_, ?_⟩
    · intro other stop mem
      by_cases here : other = name
      · subst here
        rw [own] at mem ⊢
        rcases cases_ with same | ⟨-, -, isStop, isClosed⟩
        · simp only [same] at mem ⊢
          exact alive.closed other stop mem
        · simp only [isStop, isClosed] at mem ⊢
          rcases Finset.mem_insert.mp mem with rfl | mem
          · exact le_rfl
          · exact alive.closed other stop mem
      · rw [others other here] at mem ⊢
        exact alive.closed other stop mem
    · intro other isRunning
      by_cases here : other = name
      · subst here
        rw [own] at isRunning ⊢
        rcases cases_ with same | ⟨-, stopped, -⟩
        · simp only [same] at isRunning ⊢
          rcases alive.running other isRunning with ⟨isOpen, thread, found, listens⟩
          exact ⟨isOpen, kept other thread found listens isOpen⟩
        · simp only [stopped] at isRunning
          cases isRunning
      · rw [others other here] at isRunning ⊢
        rcases alive.running other isRunning with ⟨isOpen, thread, found, listens⟩
        exact ⟨isOpen, kept other thread found listens isOpen⟩
    · intro other subscribed isFetch
      by_cases here : other = name
      · subst here
        rw [own] at isFetch ⊢
        rcases cases_ with same | ⟨none, -⟩
        · simp only [same] at isFetch ⊢
          exact alive.polled other subscribed isFetch
        · exact absurd none subscribed
      · rw [others other here] at isFetch ⊢
        exact alive.polled other subscribed isFetch
  · exact fun _ => alive

theorem Alive.close (alive : Alive machine) : Alive (machine.step config .close) := by
  simp only [step]
  split
  · refine ⟨?_, ?_, ?_, ?_⟩
    · refine ⟨List.nodup_nil, ?_, ?_⟩
      · intro sub mem
        cases mem
      · intro name state isState
        simp only [Topics.close] at isState ⊢
        rcases Option.map_eq_some_iff.mp isState with ⟨old, -, rfl⟩
        rfl
    · intro name stop mem
      rcases @shut_spec (machine.topics.polls name) with ⟨-, isStop, isClosed⟩
      simp only [Topics.close] at mem ⊢
      rw [isStop]
      rcases isClosed stop mem with old | rfl
      · exact alive.closed name stop old
      · exact le_rfl
    · intro name isRunning
      simp only [Topics.close, (@shut_spec (machine.topics.polls name)).1] at isRunning
      cases isRunning
    · intro name subscribed
      refine absurd ?_ subscribed
      simp only [Topics.subCount, Topics.close, Option.map_map]
      cases machine.topics.hub.topics name with
      | none => rfl
      | some state => rfl
  · exact alive

theorem Alive.step (alive : Alive machine) (action : Action) :
    Alive (machine.step config action) := by
  rcases @step_calm machine config alive.counted action with
    calm | ⟨names, rfl⟩ | ⟨name, timer, rfl⟩ | rfl
  · exact alive.calm calm
  · exact alive.subscribe names
  · exact alive.stopIfIdle name timer
  · exact alive.close

/-- Only a topic with a history fetch waits for a full projection, as long as it has a
subscriber. -/
def Hydrates (machine : Machine) : Prop :=
  ∀ name, machine.topics.fullPending name = true →
    machine.topics.historyFetch name = true ∧ machine.topics.subCount name ≠ 0

theorem Hydrates.step (hydrates : Hydrates machine) (alive : Alive machine) {action : Action}
    (notClose : action ≠ .close) : Hydrates (machine.step config action) := by
  rcases @step_calm machine config alive.counted action with
    calm | ⟨names, rfl⟩ | ⟨name, timer, rfl⟩ | rfl
  · intro name pending
    rcases (calm.lowers name).pending pending with ⟨before, stays⟩
    rcases hydrates name before with ⟨history, some⟩
    rw [(calm.lowers name).historyFetch]
    exact ⟨history, fun none => stays ⟨history, some, none⟩⟩
  · simp only [Machine.step, Machine.subscribe]
    cases accepted : machine.topics.subscribe names with
    | none => exact hydrates
    | some result =>
        rcases result with ⟨later, joined⟩
        rcases Option.map_eq_some_iff.mp accepted with ⟨own, isSubscribed, same⟩
        cases same
        rcases enters_subscribe isSubscribed with ⟨topics, -⟩
        intro name pending
        have nonneg := Topics.subCount_nonneg alive.counted name
        have before := hydrates name
        simp only [Topics.fullPending, Topics.historyFetch, Topics.subCount, topics]
          at pending before nonneg ⊢
        by_cases isJoined : name ∈ own.2.2.1
        · simp only [if_pos isJoined] at pending ⊢
          cases isState : machine.topics.hub.topics name with
          | none =>
              rw [isState] at pending
              cases pending
          | some state =>
              rw [isState] at pending before nonneg
              simp only [Option.map_some, Option.getD_some, TopicState.join, Bool.or_eq_true,
                Bool.and_eq_true, beq_iff_eq] at pending before nonneg ⊢
              refine ⟨?_, by omega⟩
              rcases pending with old | ⟨-, history⟩
              · exact (before old).1
              · exact history
        · simp only [if_neg isJoined] at pending ⊢
          exact before pending
  · intro other pending
    simp only [Machine.step] at pending ⊢
    split at pending
    · rename_i launched
      rw [if_pos launched]
      exact hydrates other pending
    · rename_i launched
      rw [if_neg launched]
      exact hydrates other pending
  · exact absurd rfl notClose

end Machine

end TelemtPanel.Polling
