import TelemtPanel.Web.LogStream.Listeners

/-!
# Steps of the client

Every event and every call that meets its condition keeps the invariant.  An event finds nothing
on the stack; a call finds functions that survive it; a function that goes on finds what it
relies on.
-/

namespace TelemtPanel.Web.LogStream

open TelemtPanel.Library

namespace State

variable {s : State}

section Invariant

/-- A pending reconnect of a visible page has its timer or sets it next. -/
def Armed (s : State) : Prop :=
  s.hidden = false → s.reconnectPending = true →
    (∃ timer ∈ s.timers.pending, timer.callback = .reconnect) ∨
      ∃ delay, .armReconnect delay ∈ s.stack

structure Steady (s : State) : Prop where
  coherent : s.Coherent
  told : s.Told
  sound : ∀ frame ∈ s.stack, frame.Sound s
  nested : s.stack.Pairwise (Frame.Over s)

structure Sound (s : State) : Prop extends s.Steady where
  armed : s.Armed

theorem armed_of_notPending (notPending : s.reconnectPending = false) : s.Armed := by
  intro _ pending
  simp [notPending] at pending

theorem armed_of_hidden (hidden : s.hidden = true) : s.Armed := by
  intro visible
  simp [hidden] at visible

/-- Nothing is left to do. -/
theorem steady_of_empty (empty : s.stack = []) (coherent : s.Coherent) (told : s.Told) :
    s.Steady where
  coherent := coherent
  told := told
  sound := by simp [empty]
  nested := by simp [empty]

end Invariant

section Notification

theorem Steady.push (steady : s.Steady) {frame : Frame} (here : frame.Sound s)
    (above : ∀ below ∈ s.stack, frame.Over s below) :
    State.Steady { s with stack := frame :: s.stack } where
  coherent := { steady.coherent with }
  told := { steady.told with }
  sound := List.forall_mem_cons.mpr ⟨here, steady.sound⟩
  nested := List.pairwise_cons.mpr ⟨above, steady.nested⟩

theorem Sound.notifyFrom (sound : s.Sound) {position : ℕ}
    (here : Frame.Sound s (.listeners position)) : (s.notifyFrom position).Sound := by
  unfold State.notifyFrom
  split
  · exact sound
  · rename_i stamp listener next
    have free : s.closed = false := by
      by_contra closed
      have ended := here (Bool.eq_true_of_not_eq_false closed)
      simp [ended] at next
    have recorded : (s.record (.called listener)).Steady :=
      ⟨{ sound.coherent with }, sound.told.called free listener, sound.sound, sound.nested⟩
    refine ⟨@Steady.push _ recorded (.listeners (stamp + 1)) ?_ fun _ _ => ⟨rfl, nofun⟩, ?_⟩
    · intro closed
      rw [show s.closed = true from closed] at free
      cases free
    · intro visible pending
      rcases sound.armed visible pending with set | ⟨delay, mem⟩
      · exact Or.inl set
      · exact Or.inr ⟨delay, List.mem_cons_of_mem _ mem⟩

theorem Sound.setSnapshot (sound : s.Sound) (free : s.closed = false)
    (next : LogStreamSnapshot) : (s.setSnapshot next).Sound := by
  unfold State.setSnapshot
  split
  · exact sound
  · apply Sound.notifyFrom
    · exact ⟨⟨{ sound.coherent with }, { sound.told with }, sound.sound, sound.nested⟩, sound.armed⟩
    · intro closed
      rw [show s.closed = true from closed] at free
      cases free

theorem Steady.setSnapshotThen (steady : s.Steady) (free : s.closed = false) {rest : Frame}
    (here : rest.Sound s) (above : ∀ below ∈ s.stack, rest.Over s below)
    (armed : State.Armed { s with stack := rest :: s.stack }) (next : LogStreamSnapshot) :
    (s.setSnapshotThen next rest).Sound :=
  Sound.setSnapshot ⟨steady.push here above, armed⟩ free next

theorem Steady.setSnapshotLast (steady : s.Steady) (empty : s.stack = [])
    (free : s.closed = false) {rest : Frame} (here : rest.Sound s)
    (notPending : s.reconnectPending = false) (next : LogStreamSnapshot) :
    (s.setSnapshotThen next rest).Sound := by
  apply steady.setSnapshotThen free here
  · simp [empty]
  · exact armed_of_notPending notPending

end Notification

section Functions

theorem Steady.scheduleReconnect (steady : s.Steady) (empty : s.stack = [])
    (free : s.closed = false) (idle : s.Idle) : s.scheduleReconnect.Sound := by
  have pending := steady.coherent.pending free idle.unconnected idle.notAwaited
  apply Steady.setSnapshotThen
  · exact steady_of_empty empty { pending with } { steady.told with }
  · exact free
  · exact fun _ => ⟨free, idle⟩
  · simp [empty]
  · exact fun _ _ => Or.inr ⟨_, List.mem_cons_self⟩

/-- A connecting source is stopped while the page is hidden. -/
theorem paused (coherent : s.Coherent) (told : s.Told) (free : s.closed = false)
    (hidden : s.hidden = true) (nested : s.stack.Pairwise (Frame.Over s))
    (sound : ∀ frame ∈ s.stack,
      frame.Sound { s.stopConnection with reconnectPending := true })
    (next : LogStreamSnapshot) :
    (State.setSnapshot { s.stopConnection with reconnectPending := true } next).Sound := by
  have stopped := coherent.stopConnection
  have pending := stopped.pending free rfl coherent.notAwaited_stopConnection
  apply Sound.setSnapshot
  · exact ⟨⟨pending, { told with }, sound, nested⟩, armed_of_hidden hidden⟩
  · exact free

theorem Steady.pauseConnecting (steady : s.Steady) (empty : s.stack = [])
    (hidden : s.hidden = true) : s.pauseConnecting.Sound := by
  unfold State.pauseConnecting
  split
  · rename_i connecting
    have free : s.closed = false := by
      match here : s.es with
      | none => simp [here] at connecting
      | some source => exact steady.coherent.open_of_es here
    apply paused steady.coherent steady.told free hidden steady.nested
    simp [empty]
  · exact ⟨steady, armed_of_hidden hidden⟩

/-- A source that has just been created is connecting. -/
theorem pauseConnecting_createSource :
    s.createSource.pauseConnecting =
      { s.createSource.stopConnection with reconnectPending := true }.setSnapshot
        { s.snapshot with status := .reconnecting, stale := false } := by
  have connecting : (s.createSource.es.bind fun source => s.createSource.sources[source]?) =
      some .connecting := by
    simp [State.createSource]
  rw [State.pauseConnecting, if_pos connecting]
  rfl

theorem Steady.openConnection (steady : s.Steady)
    (ready : Frame.Sound s .openConnection)
    (survives : ∀ frame ∈ s.stack, frame.survivesRetry s = true) : s.openConnection.Sound := by
  unfold State.openConnection
  split
  · rename_i closed
    exact ⟨steady, armed_of_notPending (steady.coherent.shut closed).2.2⟩
  · rename_i notClosed
    have free := Bool.eq_false_iff.mpr notClosed
    rcases ready free with ⟨idle, waited, notPending⟩
    have told := steady.told.opened free waited
    have settled := steady.coherent.notPending
    have created := settled.createSource free idle ⟨rfl, idle.noTimer, waited⟩
    split
    · rename_i hidden
      rw [pauseConnecting_createSource]
      -- the pause sets the flag in any case
      apply paused (s := State.createSource { s with reconnectPending := false }) created
        { told with } free hidden steady.nested
      intro frame mem
      apply (steady.sound frame mem).replaced (survives frame mem) <;> try rfl
      intro _
      exact created.idle_stopConnection idle.noTimer
    · rename_i visible
      have pending := notPending (Bool.eq_false_iff.mpr visible)
      have coherent := steady.coherent.createSource free idle ⟨pending, idle.noTimer, waited⟩
      refine ⟨⟨coherent, { told with }, ?_, steady.nested⟩, armed_of_notPending pending⟩
      intro frame mem
      apply (steady.sound frame mem).replaced (survives frame mem) <;> try rfl
      intro hidden
      exact absurd hidden visible

theorem Steady.reconnect (steady : s.Steady) (empty : s.stack = []) : s.reconnect.Sound := by
  have coherent := steady.coherent.clearReconnectTimer
  have silent := steady.coherent.silent_clearReconnectTimer
  have cleared : s.clearReconnectTimer.Steady :=
    steady_of_empty empty coherent { steady.told with }
  unfold State.reconnect State.reconnectNow
  split
  · rename_i idle
    refine ⟨cleared, ?_⟩
    rcases idle with closed | notPending | hidden
    · exact armed_of_notPending (coherent.shut closed).2.2
    · exact armed_of_notPending notPending
    · exact armed_of_hidden hidden
  · rename_i active
    simp only [not_or, Bool.not_eq_false, Bool.not_eq_true] at active
    rcases active with ⟨free, pending, visible⟩
    rcases coherent.of_pending pending with ⟨unconnected, notAwaited⟩
    split
    · have set := coherent.setReconnectTimer free ⟨unconnected, silent, notAwaited⟩
        (s.clearReconnectTimer.retryNotBefore - s.clearReconnectTimer.now)
      refine ⟨steady_of_empty empty set { steady.told with }, ?_⟩
      intro _ _
      exact Or.inl ⟨_, Timers.mem_set.mpr (Or.inr rfl), rfl⟩
    · rename_i waited
      apply Steady.openConnection
      · exact steady_of_empty empty coherent.notPending { steady.told with }
      · intro _
        exact ⟨⟨unconnected, silent, notAwaited⟩, not_lt.mp waited, fun _ => rfl⟩
      · intro frame mem
        simp [State.clearReconnectTimer, empty] at mem

end Functions

section Events

theorem Sound.steady (sound : s.Sound) : s.Steady := sound.toSteady

/-- A connection that is stopped leaves nothing behind. -/
theorem Sound.stopped (sound : s.Sound) (empty : s.stack = []) {source : ℕ}
    (here : s.es = some source) :
    s.stopConnection.Steady ∧ s.stopConnection.Idle ∧ s.stopConnection.Ready := by
  have coherent := sound.coherent
  have ready := coherent.connected (by simp [here])
  refine ⟨?_, ?_, ready.notPending, ready.noTimer.clearSlot _, ready.waited⟩
  · exact steady_of_empty empty coherent.stopConnection { sound.told with }
  · exact coherent.idle_stopConnection ready.noTimer

/-- `onFrame` up to its notification keeps the connection. -/
theorem Sound.frameReceived (sound : s.Sound) {source : ℕ} (here : s.es = some source) :
    s.frameReceived.Coherent ∧ s.frameReceived.Told ∧ s.frameReceived.Ready := by
  have coherent := sound.coherent
  have free := coherent.open_of_es here
  have ready := coherent.connected (by simp [here])
  refine ⟨?_, ?_, ready.resetStaleWatchdog.waitOver⟩
  · exact { (coherent.resetStaleWatchdog free).waitOver with }
  · exact { sound.told.rewait ready.waited 0 with }

theorem Sound.onOpen (sound : s.Sound) (empty : s.stack = []) (source : ℕ) :
    (s.onOpen source).Sound := by
  unfold State.onOpen
  split
  · rename_i here
    have coherent := sound.coherent
    have ready := coherent.connected (by simp [here])
    have steady : State.Steady { s with retryNotBefore := 0 } :=
      steady_of_empty empty coherent.waitOver (sound.told.rewait ready.waited 0)
    apply steady.setSnapshotLast empty
    · exact coherent.open_of_es here
    · exact coherent.open_of_es here
    · exact ready.notPending
  · exact sound

theorem Sound.onLog (sound : s.Sound) (empty : s.stack = []) (source : ℕ)
    (data : Option Value) : (s.onLog source data).Sound := by
  unfold State.onLog
  split
  · rename_i here
    rcases sound.frameReceived here with ⟨coherent, told, ready⟩
    have steady : State.Steady
        { s.frameReceived with messages := s.messages ++ [(source, data)] } :=
      steady_of_empty empty { coherent with } (told.message _)
    apply steady.setSnapshotLast empty
    · exact sound.coherent.open_of_es here
    · intro line isLine
      refine ⟨⟨?_, data, ?_, isLine⟩, Or.inl here⟩
      · simp
      · simp
    · exact ready.notPending
  · exact sound

theorem Sound.onHeartbeat (sound : s.Sound) (empty : s.stack = []) (source : ℕ) :
    (s.onHeartbeat source).Sound := by
  unfold State.onHeartbeat
  split
  · rename_i here
    rcases sound.frameReceived here with ⟨coherent, told, ready⟩
    apply Sound.setSnapshot
    · exact ⟨steady_of_empty empty coherent told, armed_of_notPending ready.notPending⟩
    · exact sound.coherent.open_of_es here
  · exact sound

theorem Sound.onSourceError (sound : s.Sound) (empty : s.stack = []) (source : ℕ)
    (data : Option Value) : (s.onSourceError source data).Sound := by
  unfold State.onSourceError
  split
  · rename_i here
    split
    · exact sound
    · rename_i diagnostic _
      split
      · exact sound
      · rcases sound.stopped empty here with ⟨steady, idle, ready⟩
        have free := sound.coherent.open_of_es here
        have counted : State.Steady
            { s.stopConnection with diagnostics := s.diagnostics + 1 } :=
          steady_of_empty empty { steady.coherent with } { steady.told with }
        apply counted.setSnapshotLast empty free
        · exact fun _ => ⟨free, idle⟩
        · exact ready.notPending
  · exact sound

theorem Sound.onLogEnd (sound : s.Sound) (empty : s.stack = []) (source : ℕ) :
    (s.onLogEnd source).Sound := by
  unfold State.onLogEnd
  split
  · rename_i here
    rcases sound.stopped empty here with ⟨steady, idle, -⟩
    exact steady.scheduleReconnect empty (sound.coherent.open_of_es here) idle
  · exact sound

theorem Sound.onError (sound : s.Sound) (empty : s.stack = []) (source : ℕ) :
    (s.onError source).Sound := by
  unfold State.onError
  split
  · rename_i here
    have free := sound.coherent.open_of_es here
    split
    · rcases sound.stopped empty here with ⟨steady, idle, ready⟩
      apply steady.setSnapshotLast empty free
      · exact fun _ => ⟨idle, ready⟩
      · exact ready.notPending
    · apply sound.steady.setSnapshotLast empty free
      · trivial
      · exact (sound.coherent.connected (by simp [here])).notPending
  · exact sound

theorem Sound.settle (sound : s.Sound) (empty : s.stack = []) (number : ℕ)
    (probeAbort : Option ℕ) : State.Sound { s.settle number with probeAbort } :=
  ⟨steady_of_empty empty (sound.coherent.settle number probeAbort) { sound.told with },
    sound.armed⟩

theorem Steady.probeAnswered (steady : s.Steady) (empty : s.stack = [])
    (free : s.closed = false) (idle : s.Idle) (ready : s.Ready) (result : LogCapacityProbe) :
    ((s.record (.answered result)).probeAnswered result).Sound := by
  unfold State.probeAnswered
  split
  · rename_i limited
    have coherent := steady.coherent.waitUntil idle.unconnected idle.notAwaited
      (s.now + s.settings.reading.retryAfterMilliseconds result.retryAfter s.now)
    have told := steady.told.takeRetryAfter free ready.waited limited
    have taken : ((s.record (.answered result)).takeRetryAfter result.retryAfter).Steady :=
      steady_of_empty empty { coherent with } told
    apply taken.setSnapshotLast empty free
    · exact ⟨free, idle⟩
    · exact ready.notPending
  · rename_i other
    have answered : (s.record (.answered result)).Steady :=
      steady_of_empty empty { steady.coherent with }
        (steady.told.notLimited free ready.waited other)
    split
    · exact answered.scheduleReconnect empty free idle
    · have sound : (s.record (.answered result)).Sound :=
        ⟨answered, armed_of_notPending ready.notPending⟩
      split
      · exact sound
      · split
        · exact sound
        · exact sound.setSnapshot free _

theorem Sound.onProbeAnswer (sound : s.Sound) (empty : s.stack = []) (number : ℕ)
    (result : LogCapacityProbe) : (s.onProbeAnswer number result).Sound := by
  unfold State.onProbeAnswer
  split
  · exact sound
  · rename_i probe known
    split
    · exact sound
    · rename_i unsettled
      split
      · exact sound.settle empty number s.probeAbort
      · rename_i counts
        simp only [not_or, Bool.not_eq_true, not_not] at counts unsettled
        rcases counts with ⟨free, ticket, notAborted⟩
        have awaited : s.Awaited number := by
          rw [Awaited, known, ticket]
          rcases probe with ⟨_, aborted, settled⟩
          rw [show aborted = false from notAborted, show settled = false from unsettled]
        have settled := sound.settle empty number none
        apply settled.steady.probeAnswered empty free
        · exact sound.coherent.idle_settle free awaited none
        · exact (sound.coherent.awaiting free number awaited).2

theorem Sound.onProbeFailure (sound : s.Sound) (empty : s.stack = []) (number : ℕ) :
    (s.onProbeFailure number).Sound := by
  unfold State.onProbeFailure
  split
  · exact sound
  · split
    · exact sound
    · split
      · exact sound.settle empty number none
      · exact sound.settle empty number s.probeAbort

theorem Sound.onTimer (sound : s.Sound) (empty : s.stack = []) (id : ℕ) :
    (s.onTimer id).Sound := by
  unfold State.onTimer
  split
  · exact sound
  · rename_i timer found
    have mem := List.mem_of_find?_eq_some found
    have same : timer.id = id := by simpa using List.find?_some found
    have coherent := sound.coherent.fired id
    have fired : State.Steady { s with timers := s.timers.clear id } :=
      steady_of_empty empty coherent { sound.told with }
    split
    · rename_i isStale
      apply Sound.setSnapshot
      · refine ⟨fired, ?_⟩
        intro visible pending
        rcases sound.armed visible pending with ⟨other, otherMem, isReconnect⟩ | ⟨_, left⟩
        · have holds := sound.coherent.stale
          rw [holds.known timer mem isStale, same] at holds
          refine Or.inl ⟨other, holds.mem_clearSlot otherMem ?_, isReconnect⟩
          simp [isReconnect]
        · simp [empty] at left
      · exact sound.coherent.open_of_timer mem
    · exact fired.reconnect empty

theorem Sound.setVisibility (sound : s.Sound) (empty : s.stack = []) (hidden : Bool) :
    (s.setVisibility hidden).Sound := by
  have changed : State.Steady { s with hidden } :=
    steady_of_empty empty { sound.coherent with } { sound.told with }
  unfold State.setVisibility
  split
  · unfold State.onVisibilityChange
    split
    · rename_i isHidden
      have cleared : State.Steady (State.clearReconnectTimer { s with hidden }) :=
        steady_of_empty empty changed.coherent.clearReconnectTimer { sound.told with }
      exact cleared.pauseConnecting empty isHidden
    · split
      · exact changed.reconnect empty
      · rename_i notPending
        exact ⟨changed, armed_of_notPending (Bool.eq_false_iff.mpr notPending)⟩
  · rename_i detached
    refine ⟨changed, armed_of_notPending ?_⟩
    have closed : s.closed = true := by
      by_contra free
      exact detached (sound.coherent.attached (Bool.eq_false_iff.mpr free))
    exact (sound.coherent.shut closed).2.2

theorem Sound.setReadyState (sound : s.Sound) (empty : s.stack = []) (source : ℕ)
    (state : ReadyState) : (s.setReadyState source state).Sound := by
  have coherent := sound.coherent.setReadyState source state
  unfold State.setReadyState at coherent ⊢
  split
  · exact sound
  · rename_i notClosed
    rw [if_neg notClosed] at coherent
    exact ⟨steady_of_empty empty coherent { sound.told with }, sound.armed⟩

theorem Sound.event (sound : s.Sound) (empty : s.stack = []) (event : Event) :
    (s.event event).Sound := by
  cases event with
  | readyState source state => exact sound.setReadyState empty source state
  | opened source => exact sound.onOpen empty source
  | log source data => exact sound.onLog empty source data
  | heartbeat source => exact sound.onHeartbeat empty source
  | logSourceError source data => exact sound.onSourceError empty source data
  | logEnd source => exact sound.onLogEnd empty source
  | error source => exact sound.onError empty source
  | timer id => exact sound.onTimer empty id
  | visibility hidden => exact sound.setVisibility empty hidden
  | probeAnswer number result => exact sound.onProbeAnswer empty number result
  | probeFailure number => exact sound.onProbeFailure empty number

end Events

section Calls

/-- A state whose stack the functions survive. -/
theorem Steady.replace {t : State} (steady : s.Steady)
    (survives : ∀ frame ∈ s.stack, frame.survivesRetry s = true) (coherent : t.Coherent)
    (told : t.Told) (stack : t.stack = s.stack) (closed : t.closed = s.closed)
    (hidden : t.hidden = s.hidden) (listeners : t.listeners = s.listeners)
    (lineListeners : t.lineListeners = s.lineListeners) (messages : t.messages = s.messages)
    (wait : t.retryNotBefore = s.retryNotBefore) (now : t.now = s.now)
    (idle : s.hidden = true → t.Idle) : t.Steady where
  coherent := coherent
  told := told
  sound := by
    intro frame mem
    rw [stack] at mem
    exact (steady.sound frame mem).replaced (survives frame mem) closed hidden listeners
      lineListeners messages wait now idle
  nested := by
    rw [stack]
    apply steady.nested.imp
    rintro above below ⟨nests, opening⟩
    refine ⟨nests, fun isOpen => ?_⟩
    rw [Frame.survivesRetry_congr hidden lineListeners]
    exact opening isOpen

theorem Sound.retryLater (sound : s.Sound) (free : s.closed = false)
    (waiting : s.now < s.retryNotBefore)
    (survives : ∀ frame ∈ s.stack, frame.survivesRetry s = true) : s.retryLater.Sound := by
  rcases sound.coherent.of_waiting free waiting with ⟨unconnected, notAwaited⟩
  have silent := sound.coherent.silent_clearReconnectTimer
  have idle : s.clearReconnectTimer.Idle := ⟨unconnected, silent, notAwaited⟩
  have coherent := sound.coherent.clearReconnectTimer.pending free unconnected notAwaited
  unfold State.retryLater
  dsimp only
  split
  · rename_i hidden
    refine ⟨?_, armed_of_hidden hidden⟩
    apply sound.steady.replace survives coherent { sound.told with } <;> try rfl
    exact fun _ => idle
  · rename_i visible
    have set := coherent.setReconnectTimer free idle (s.retryNotBefore - s.now)
    refine ⟨?_, fun _ _ => Or.inl ⟨_, Timers.mem_set.mpr (Or.inr rfl), rfl⟩⟩
    apply sound.steady.replace survives set { sound.told with } <;> try rfl
    intro hidden
    exact absurd hidden visible

theorem Sound.retry (sound : s.Sound)
    (survives : s.closed = false → ∀ frame ∈ s.stack, frame.survivesRetry s = true) :
    s.retry.Sound := by
  unfold State.retry
  split
  · exact sound
  · rename_i notClosed
    have free := Bool.eq_false_iff.mpr notClosed
    split
    · rename_i waiting
      exact sound.retryLater free waiting (survives free)
    · rename_i waited
      have cleared := sound.coherent.clearReconnectTimer
      have silent := sound.coherent.silent_clearReconnectTimer
      have idle := cleared.idle_stopConnection silent
      have coherent : s.retryStopped.Coherent := { cleared.stopConnection.notPending with }
      have steady : s.retryStopped.Steady := by
        apply sound.steady.replace (survives free) coherent { sound.told with } <;> try rfl
        exact fun _ => idle
      apply steady.setSnapshotThen free
      · exact fun _ => ⟨idle, not_lt.mp waited, fun _ => rfl⟩
      · exact fun frame mem => ⟨rfl, fun _ => survives free frame mem⟩
      · exact armed_of_notPending rfl

theorem Sound.close (sound : s.Sound)
    (survives : s.closed = false → ∀ frame ∈ s.stack, frame.survivesClose s = true) :
    s.close.Sound := by
  refine ⟨⟨sound.coherent.close, { sound.told with }, ?_, sound.nested⟩, armed_of_notPending rfl⟩
  intro frame mem
  have here := sound.sound frame mem
  have survived : frame.survivesClose s = true := by
    by_cases closed : s.closed = true
    · exact here.survivesClose closed (sound.coherent.shut closed).1
    · exact survives (Bool.eq_false_iff.mpr closed) frame mem
  exact here.shut survived rfl rfl rfl rfl rfl

theorem Sound.subscribe (sound : s.Sound) (heeds : s.closed = true → s.stack = [])
    (listener : ℕ) : State.Sound { s with listeners := s.listeners.add listener } := by
  refine ⟨⟨{ sound.coherent with }, { sound.told with }, ?_, sound.nested⟩, sound.armed⟩
  intro frame mem
  have here := sound.sound frame mem
  cases frame with
  | listeners position =>
      intro closed
      change Frame.listeners position ∈ s.stack at mem
      rw [heeds closed] at mem
      cases mem
  | _ => exact here

theorem Sound.unsubscribe (sound : s.Sound) (listener : ℕ) :
    State.Sound { s with listeners := s.listeners.delete listener } := by
  refine ⟨⟨{ sound.coherent with }, { sound.told with }, ?_, sound.nested⟩, sound.armed⟩
  intro frame mem
  have here := sound.sound frame mem
  cases frame with
  | listeners position => exact fun closed => InsertionSet.following_delete (here closed) listener
  | _ => exact here

/-- The lines that are being delivered are those of the connection, so that no opening is left. -/
theorem Sound.onLine (sound : s.Sound) (heeds : ∀ frame ∈ s.stack, frame.ofConnection s = true)
    (listener : ℕ) : State.Sound { s with lineListeners := s.lineListeners.add listener } := by
  refine ⟨⟨{ sound.coherent with }, { sound.told with }, ?_, ?_⟩, sound.armed⟩
  · intro frame mem
    have here := sound.sound frame mem
    have current := heeds frame mem
    cases frame with
    | lines number source line position => exact ⟨here.1, Or.inl (of_decide_eq_true current)⟩
    | deliver number source data =>
        intro line isLine
        refine ⟨(here line isLine).1, Or.inl ?_⟩
        simpa [Frame.ofConnection, isLine] using current
    | _ => exact here
  · apply sound.nested.imp_of_mem
    rintro above below aboveMem belowMem ⟨nests, opening⟩
    refine ⟨nests, fun isOpen => ?_⟩
    have survived := opening isOpen
    have current := heeds below belowMem
    have unconnected : s.es = none := by
      by_cases closed : s.closed = true
      · exact (sound.coherent.shut closed).1
      · have here := sound.sound above aboveMem
        rw [isOpen] at here
        exact (here (Bool.eq_false_iff.mpr closed)).1.unconnected
    cases below with
    | lines number source line position =>
        simp [Frame.ofConnection, unconnected] at current
    | deliver number source data =>
        simp only [Frame.ofConnection, unconnected, Bool.or_eq_true] at current
        simp only [Frame.survivesRetry, Bool.or_eq_true]
        exact Or.inl (current.resolve_right (by simp))
    | _ => exact survived

theorem Sound.offLine (sound : s.Sound) (listener : ℕ) :
    State.Sound { s with lineListeners := s.lineListeners.delete listener } := by
  refine ⟨⟨{ sound.coherent with }, { sound.told with }, ?_, ?_⟩, sound.armed⟩
  · intro frame mem
    have here := sound.sound frame mem
    cases frame with
    | lines number source line position =>
        exact ⟨here.1, here.2.imp_right fun ended => InsertionSet.following_delete ended listener⟩
    | deliver number source data =>
        intro line isLine
        rcases here line isLine with ⟨received, current⟩
        exact ⟨received, current.imp_right fun ended =>
          InsertionSet.following_delete ended listener⟩
    | _ => exact here
  · apply sound.nested.imp
    rintro above below ⟨nests, opening⟩
    refine ⟨nests, fun isOpen => ?_⟩
    have survived := opening isOpen
    cases below with
    | lines number source line position =>
        have ended := Option.isNone_iff_eq_none.mp survived
        exact Option.isNone_iff_eq_none.mpr (InsertionSet.following_delete ended listener)
    | deliver number source data =>
        simp only [Frame.survivesRetry, Bool.or_eq_true, Option.isNone_iff_eq_none] at survived ⊢
        exact survived.imp_right fun ended => InsertionSet.following_delete ended listener
    | _ => exact survived

theorem Sound.call (sound : s.Sound) {call : Call} (heeds : s.heeds call = true) :
    (s.call call).Sound := by
  cases call with
  | retry =>
      apply sound.retry
      intro free
      simpa [heeds, State.heeds, free] using heeds
  | close =>
      apply sound.close
      intro free
      simpa [State.heeds, free] using heeds
  | subscribe listener =>
      apply sound.subscribe
      intro closed
      simpa [State.heeds, closed] using heeds
  | unsubscribe listener => exact sound.unsubscribe listener
  | onLine listener =>
      apply sound.onLine
      simpa [State.heeds] using heeds
  | offLine listener => exact sound.offLine listener

end Calls

section Resuming

theorem Steady.pop (steady : s.Steady) {frame : Frame} {rest : List Frame}
    (left : s.stack = frame :: rest) : State.Steady { s with stack := rest } where
  coherent := { steady.coherent with }
  told := { steady.told with }
  sound below mem := steady.sound below (by simp [left, mem])
  nested := (List.pairwise_cons.mp (left ▸ steady.nested)).2

theorem Steady.deliverFrom (steady : s.Steady) (empty : s.stack = []) (armed : s.Armed)
    {number source : ℕ} {line : Value} {position : ℕ}
    (here : Frame.Sound s (.lines number source line position)) :
    (s.deliverFrom number source line position).Sound := by
  unfold State.deliverFrom
  split
  · exact ⟨steady, armed⟩
  · rename_i stamp listener next
    have current : s.es = some source := by
      apply here.2.resolve_right
      simp [next]
    have free := steady.coherent.open_of_es current
    have ready := steady.coherent.connected (by simp [current])
    have recorded : (s.record (.delivered listener number source line)).Steady :=
      steady_of_empty empty { steady.coherent with }
        (steady.told.delivered free here.1 current listener)
    refine ⟨recorded.push ⟨here.1, Or.inl current⟩ ?_, armed_of_notPending ready.notPending⟩
    simp [State.record, empty]

/-- A function goes on after it has notified. -/
theorem Sound.resume (sound : s.Sound) : s.resume.Sound := by
  unfold State.resume
  split
  · exact sound
  · rename_i frame rest left
    have here := sound.sound frame (by simp [left])
    have above := (List.pairwise_cons.mp (left ▸ sound.nested)).1
    have popped := sound.steady.pop left
    have alone : frame.nests = false → rest = [] := by
      intro bottom
      apply List.eq_nil_iff_forall_not_mem.mpr
      intro below mem
      have nests := (above below mem).1
      simp [bottom] at nests
    have armed : (∀ delay, frame ≠ .armReconnect delay) → State.Armed { s with stack := rest } := by
      intro other visible pending
      rcases sound.armed visible pending with set | ⟨delay, mem⟩
      · exact Or.inl set
      · rw [left] at mem
        rcases List.mem_cons.mp mem with same | below
        · exact absurd same.symm (other delay)
        · exact Or.inr ⟨delay, below⟩
    cases frame with
    | listeners position =>
        exact Sound.notifyFrom ⟨popped, armed (by simp)⟩ here
    | lines number source line position =>
        exact popped.deliverFrom (alone rfl) (armed (by simp)) here
    | deliver number source data =>
        simp only [State.proceed, State.deliver]
        split
        · exact ⟨popped, armed (by simp)⟩
        · rename_i line isLine
          exact popped.deliverFrom (alone rfl) (armed (by simp)) (here line isLine)
    | armReconnect delay =>
        simp only [State.proceed, State.armReconnect]
        split
        · rename_i hidden
          exact ⟨popped, armed_of_hidden hidden⟩
        · rename_i visible
          rcases here (Bool.eq_false_iff.mpr visible) with ⟨free, idle⟩
          have set := popped.coherent.setReconnectTimer free idle delay
          refine ⟨steady_of_empty (alone rfl) set { sound.told with }, ?_⟩
          intro _ _
          exact Or.inl ⟨_, Timers.mem_set.mpr (Or.inr rfl), rfl⟩
    | resetStaleWatchdog =>
        have coherent := popped.coherent.resetStaleWatchdog here
        refine ⟨steady_of_empty (alone rfl) coherent { sound.told with }, ?_⟩
        intro visible pending
        rcases armed (by simp) visible pending with ⟨timer, mem, isReconnect⟩ | ⟨delay, mem⟩
        · have spared := sound.coherent.stale.mem_clearSlot mem (by simp [isReconnect])
          exact Or.inl ⟨timer, Timers.mem_set.mpr (Or.inl spared), isReconnect⟩
        · exact Or.inr ⟨delay, mem⟩
    | diagnosed reason =>
        simp only [State.proceed, State.diagnosed]
        split
        · rename_i transient
          rcases here transient with ⟨free, idle⟩
          exact popped.scheduleReconnect (alone rfl) free idle
        · exact ⟨popped, armed (by simp)⟩
    | startProbe =>
        have coherent := popped.coherent.startProbe here
        exact ⟨steady_of_empty (alone rfl) coherent { sound.told with }, armed (by simp)⟩
    | pauseIfHidden =>
        simp only [State.proceed, State.pauseIfHidden]
        split
        · rename_i hidden
          exact popped.pauseConnecting (alone rfl) hidden
        · exact ⟨popped, armed (by simp)⟩
    | scheduleReconnect =>
        exact popped.scheduleReconnect (alone rfl) here.1 here.2
    | openConnection =>
        apply popped.openConnection here
        exact fun below mem => (above below mem).2 rfl

theorem Sound.later (sound : s.Sound) (milliseconds : ℕ) :
    State.Sound { s with now := s.now + milliseconds } := by
  refine ⟨⟨sound.coherent.later milliseconds, sound.told.later milliseconds, ?_, sound.nested⟩,
    sound.armed⟩
  intro frame mem
  have here := sound.sound frame mem
  cases frame with
  | startProbe => exact fun free => (here free).imp_right (·.later milliseconds)
  | openConnection =>
      intro free
      rcases here free with ⟨idle, waited, notPending⟩
      exact ⟨idle, waited.trans (by simp), notPending⟩
  | _ => exact here

end Resuming

/-- A step that meets its condition keeps the invariant. -/
theorem Sound.step (sound : s.Sound) {input : Input} (allowed : s.allows input = true) :
    (s.step input).Sound := by
  cases input with
  | event event =>
      simp only [State.step]
      split
      · rename_i empty
        exact sound.event (List.isEmpty_iff.mp empty) event
      · exact sound
  | call call =>
      simp only [State.step]
      split
      · exact sound.call allowed
      · exact sound
  | resume => exact sound.resume
  | wait milliseconds => exact sound.later milliseconds

end State

end TelemtPanel.Web.LogStream
