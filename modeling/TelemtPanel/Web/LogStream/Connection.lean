import TelemtPanel.Web.LogStream.Promises

/-!
# Connections, timers and probes

The variables of the client agree with the page: a source that is not closed is the current one,
a pending timer is known to its variable, and while there is a connection or an awaited probe no
reconnect is under way.  Each function of the client keeps this where it is called.
-/

namespace TelemtPanel.Web.LogStream

open TelemtPanel.Library

namespace State

variable {s : State}

section Definitions

/-- A probe whose answer counts. -/
def Awaited (s : State) (probe : ℕ) : Prop :=
  s.probes[probe]? = some ⟨s.generation, false, false⟩

/-- Nothing is connected, about to reconnect by itself or to be answered. -/
def Idle (s : State) : Prop :=
  s.es = none ∧ s.timers.Silent .reconnect ∧ ∀ probe, ¬ s.Awaited probe

/-- No reconnect is under way, and a connection may be opened. -/
def Ready (s : State) : Prop :=
  s.reconnectPending = false ∧ s.timers.Silent .reconnect ∧ s.retryNotBefore ≤ s.now

structure Coherent (s : State) : Prop where
  live : ∀ source, s.Live source → s.es = some source
  stale : s.timers.Holds s.staleTimer .stale
  reconnect : s.timers.Holds s.reconnectTimer .reconnect
  shut : s.closed = true →
    s.es = none ∧ s.timers.pending = [] ∧ s.reconnectPending = false
  connected : s.es ≠ none → s.Ready
  awaiting : s.closed = false → ∀ probe, s.Awaited probe → s.es = none ∧ s.Ready
  awaitedOnce : s.closed = false → ∀ first second,
    s.Awaited first → s.Awaited second → first = second
  tickets : ∀ probe ∈ s.probes, probe.ticket ≤ s.generation
  attached : s.closed = false → s.attached = true

end Definitions

section Rules

theorem Ready.notPending (ready : s.Ready) : s.reconnectPending = false := ready.1

theorem Ready.noTimer (ready : s.Ready) : s.timers.Silent .reconnect := ready.2.1

theorem Ready.waited (ready : s.Ready) : s.retryNotBefore ≤ s.now := ready.2.2

theorem Idle.unconnected (idle : s.Idle) : s.es = none := idle.1

theorem Idle.noTimer (idle : s.Idle) : s.timers.Silent .reconnect := idle.2.1

theorem Idle.notAwaited (idle : s.Idle) (probe : ℕ) : ¬ s.Awaited probe := idle.2.2 probe

theorem Coherent.open_of_es (coherent : s.Coherent) {source : ℕ} (here : s.es = some source) :
    s.closed = false := by
  by_contra closed
  have none_ := (coherent.shut (Bool.eq_true_of_not_eq_false closed)).1
  simp [here] at none_

theorem Coherent.open_of_pending (coherent : s.Coherent) (pending : s.reconnectPending = true) :
    s.closed = false := by
  by_contra closed
  have notPending := (coherent.shut (Bool.eq_true_of_not_eq_false closed)).2.2
  simp [pending] at notPending

theorem Coherent.open_of_timer (coherent : s.Coherent) {timer : Timer Callback}
    (mem : timer ∈ s.timers.pending) : s.closed = false := by
  by_contra closed
  have noTimers := (coherent.shut (Bool.eq_true_of_not_eq_false closed)).2.1
  simp [noTimers] at mem

/-- While a reconnect is pending nothing is connected or awaited. -/
theorem Coherent.of_pending (coherent : s.Coherent) (pending : s.reconnectPending = true) :
    s.es = none ∧ ∀ probe, ¬ s.Awaited probe := by
  have notReady : ¬ s.Ready := by
    intro ready
    simp [pending, Ready] at ready
  constructor
  · by_contra connected
    exact notReady (coherent.connected connected)
  · intro probe awaited
    exact notReady (coherent.awaiting (coherent.open_of_pending pending) probe awaited).2

/-- A connection has no awaited probe. -/
theorem Coherent.notAwaited (coherent : s.Coherent) {source : ℕ} (here : s.es = some source)
    (probe : ℕ) : ¬ s.Awaited probe := by
  intro awaited
  have none_ := (coherent.awaiting (coherent.open_of_es here) probe awaited).1
  simp [here] at none_

/-- While the wait is not over, nothing is connected or awaited. -/
theorem Coherent.of_waiting (coherent : s.Coherent) (free : s.closed = false)
    (waiting : s.now < s.retryNotBefore) : s.es = none ∧ ∀ probe, ¬ s.Awaited probe := by
  have notReady : ¬ s.Ready := fun ready => absurd ready.waited (not_le.mpr waiting)
  constructor
  · by_contra connected
    exact notReady (coherent.connected connected)
  · intro probe awaited
    exact notReady (coherent.awaiting free probe awaited).2

end Rules

section Timers

theorem Ready.resetStaleWatchdog (ready : s.Ready) : s.resetStaleWatchdog.Ready :=
  ⟨ready.notPending, (ready.noTimer.clearSlot _).set (by decide) _, ready.waited⟩

theorem Coherent.resetStaleWatchdog (coherent : s.Coherent) (free : s.closed = false) :
    s.resetStaleWatchdog.Coherent := { coherent with
  stale := coherent.stale.silent_clearSlot.set_holds _
  reconnect := (coherent.reconnect.clearSlot _).set (by decide) _
  shut closed := absurd closed (by simp [State.resetStaleWatchdog, free])
  connected connected := (coherent.connected connected).resetStaleWatchdog
  awaiting _ probe awaited :=
    (coherent.awaiting free probe awaited).imp_right Ready.resetStaleWatchdog }

theorem Ready.clearReconnectTimer (ready : s.Ready) : s.clearReconnectTimer.Ready :=
  ⟨ready.notPending, ready.noTimer.clearSlot _, ready.waited⟩

theorem Coherent.clearReconnectTimer (coherent : s.Coherent) :
    s.clearReconnectTimer.Coherent := { coherent with
  stale := coherent.stale.clearSlot _
  reconnect := coherent.reconnect.silent_clearSlot.holds
  shut closed :=
    have ⟨none_, noTimers, notPending⟩ := coherent.shut closed
    ⟨none_, Timers.pending_eq_nil fun _ => (Timers.silent_of_nil noTimers).clearSlot _, notPending⟩
  connected connected := (coherent.connected connected).clearReconnectTimer
  awaiting free probe awaited :=
    (coherent.awaiting free probe awaited).imp_right Ready.clearReconnectTimer }

theorem Coherent.silent_clearReconnectTimer (coherent : s.Coherent) :
    s.clearReconnectTimer.timers.Silent .reconnect :=
  coherent.reconnect.silent_clearSlot

theorem Coherent.setReconnectTimer (coherent : s.Coherent) (free : s.closed = false)
    (idle : s.Idle) (delay : ℚ) : (s.setReconnectTimer delay).Coherent := { coherent with
  stale := coherent.stale.set (by decide) _
  reconnect := idle.noTimer.set_holds _
  shut closed := absurd closed (by simp [State.setReconnectTimer, free])
  connected connected := absurd idle.unconnected connected
  awaiting _ probe awaited := absurd awaited (idle.notAwaited probe) }

theorem Ready.fired (ready : s.Ready) (id : ℕ) :
    State.Ready { s with timers := s.timers.clear id } :=
  ⟨ready.notPending, ready.noTimer.clear _, ready.waited⟩

theorem Coherent.fired (coherent : s.Coherent) (id : ℕ) :
    State.Coherent { s with timers := s.timers.clear id } := { coherent with
  stale := coherent.stale.clear _
  reconnect := coherent.reconnect.clear _
  shut closed :=
    have ⟨none_, noTimers, notPending⟩ := coherent.shut closed
    ⟨none_, Timers.pending_eq_nil fun _ => (Timers.silent_of_nil noTimers).clear _, notPending⟩
  connected connected := (coherent.connected connected).fired id
  awaiting free probe awaited := (coherent.awaiting free probe awaited).imp_right (·.fired id) }

end Timers

section Waits

/-- A reconnect becomes pending. -/
theorem Coherent.pending (coherent : s.Coherent) (free : s.closed = false)
    (unconnected : s.es = none) (notAwaited : ∀ probe, ¬ s.Awaited probe) :
    State.Coherent { s with reconnectPending := true } := { coherent with
  shut closed := absurd closed (by simp [free])
  connected connected := absurd unconnected connected
  awaiting _ probe awaited := absurd awaited (notAwaited probe) }

theorem Ready.settled (ready : s.Ready) : State.Ready { s with reconnectPending := false } :=
  ⟨rfl, ready.noTimer, ready.waited⟩

theorem Coherent.notPending (coherent : s.Coherent) :
    State.Coherent { s with reconnectPending := false } := { coherent with
  shut closed := ⟨(coherent.shut closed).1, (coherent.shut closed).2.1, rfl⟩
  connected connected := (coherent.connected connected).settled
  awaiting free probe awaited := (coherent.awaiting free probe awaited).imp_right Ready.settled }

theorem Ready.waitOver (ready : s.Ready) : State.Ready { s with retryNotBefore := 0 } :=
  ⟨ready.notPending, ready.noTimer, Nat.cast_nonneg _⟩

/-- A frame, or an opened connection, ends the wait. -/
theorem Coherent.waitOver (coherent : s.Coherent) :
    State.Coherent { s with retryNotBefore := 0 } := { coherent with
  connected connected := (coherent.connected connected).waitOver
  awaiting free probe awaited := (coherent.awaiting free probe awaited).imp_right Ready.waitOver }

theorem Coherent.waitUntil (coherent : s.Coherent) (unconnected : s.es = none)
    (notAwaited : ∀ probe, ¬ s.Awaited probe) (retryNotBefore : ℚ) :
    State.Coherent { s with retryNotBefore } := { coherent with
  connected connected := absurd unconnected connected
  awaiting _ probe awaited := absurd awaited (notAwaited probe) }

theorem Ready.later (ready : s.Ready) (milliseconds : ℕ) :
    State.Ready { s with now := s.now + milliseconds } :=
  ⟨ready.notPending, ready.noTimer, ready.waited.trans (by simp)⟩

theorem Coherent.later (coherent : s.Coherent) (milliseconds : ℕ) :
    State.Coherent { s with now := s.now + milliseconds } := { coherent with
  connected connected := (coherent.connected connected).later milliseconds
  awaiting free probe awaited :=
    (coherent.awaiting free probe awaited).imp_right (·.later milliseconds) }

end Waits

section Sources

theorem live_closeSource {sources : List ReadyState} {closed source : ℕ} {state : ReadyState}
    (known : (sources.set closed .closed)[source]? = some state) (ne : state ≠ .closed) :
    source ≠ closed ∧ sources[source]? = some state := by
  rw [List.getElem?_set] at known
  split at known
  · split at known
    · exact absurd (Option.some.inj known).symm ne
    · cases known
  · rename_i other
    exact ⟨fun same => other same.symm, known⟩

theorem ticket_le_modify {probes : List Probe} {bound : ℕ}
    (within : ∀ probe ∈ probes, probe.ticket ≤ bound) (number : ℕ) {change : Probe → Probe}
    (kept : ∀ probe, (change probe).ticket = probe.ticket) :
    ∀ probe ∈ probes.modify number change, probe.ticket ≤ bound := by
  intro probe mem
  rcases List.mem_iff_getElem?.mp mem with ⟨index, known⟩
  rw [List.getElem?_modify] at known
  rcases Option.map_eq_some_iff.mp known with ⟨old, oldKnown, rfl⟩
  have le := within old (List.mem_of_getElem? oldKnown)
  split
  · rw [kept]
    exact le
  · exact le

theorem tickets_stopConnection (coherent : s.Coherent) :
    ∀ probe ∈ s.stopConnection.probes, probe.ticket ≤ s.generation := by
  simp only [State.stopConnection]
  split
  · exact coherent.tickets
  · exact ticket_le_modify coherent.tickets _ fun _ => rfl

theorem Coherent.notAwaited_stopConnection (coherent : s.Coherent) (probe : ℕ) :
    ¬ s.stopConnection.Awaited probe := by
  intro awaited
  have le := tickets_stopConnection coherent _ (List.mem_of_getElem? awaited)
  exact Nat.not_succ_le_self _ le

theorem Coherent.notLive_stopConnection (coherent : s.Coherent) (source : ℕ) :
    ¬ s.stopConnection.Live source := by
  rintro ⟨state, known, ne⟩
  simp only [State.stopConnection] at known
  split at known
  · rename_i unconnected
    have current := coherent.live source ⟨state, known, ne⟩
    simp [unconnected] at current
  · rename_i closed here
    rcases live_closeSource known ne with ⟨other, old⟩
    have current := coherent.live source ⟨state, old, ne⟩
    rw [here] at current
    exact other (Option.some.inj current).symm

theorem Coherent.stopConnection (coherent : s.Coherent) : s.stopConnection.Coherent where
  live source live := absurd live (coherent.notLive_stopConnection source)
  stale := coherent.stale.silent_clearSlot.holds
  reconnect := coherent.reconnect.clearSlot _
  shut closed :=
    have ⟨_, noTimers, notPending⟩ := coherent.shut closed
    ⟨rfl, Timers.pending_eq_nil fun _ => (Timers.silent_of_nil noTimers).clearSlot _, notPending⟩
  connected connected := absurd rfl connected
  awaiting _ probe awaited := absurd awaited (coherent.notAwaited_stopConnection probe)
  awaitedOnce _ first _ awaited := absurd awaited (coherent.notAwaited_stopConnection first)
  tickets probe mem := (tickets_stopConnection coherent probe mem).trans (Nat.le_succ _)
  attached := coherent.attached

/-- A connection that is stopped leaves nothing to wait for. -/
theorem Coherent.idle_stopConnection (coherent : s.Coherent)
    (noTimer : s.timers.Silent .reconnect) : s.stopConnection.Idle :=
  ⟨rfl, noTimer.clearSlot _, coherent.notAwaited_stopConnection⟩

theorem Coherent.createSource (coherent : s.Coherent) (free : s.closed = false) (idle : s.Idle)
    (ready : s.Ready) : s.createSource.Coherent := { coherent with
  live := by
    rintro source ⟨state, known, ne⟩
    simp only [State.createSource, State.record] at known ⊢
    rw [List.getElem?_append] at known
    split at known
    · have current := coherent.live source ⟨state, known, ne⟩
      simp [idle.unconnected] at current
    · rw [List.getElem?_singleton] at known
      split at known
      · congr
        omega
      · cases known
  shut closed := absurd closed (by simp [State.createSource, State.record, free])
  connected _ := ready
  awaiting _ probe awaited := absurd awaited (idle.notAwaited probe) }

theorem Coherent.setReadyState (coherent : s.Coherent) (source : ℕ) (state : ReadyState) :
    (s.setReadyState source state).Coherent := by
  unfold State.setReadyState
  split
  · exact coherent
  · rename_i notClosed
    refine { coherent with live := ?_ }
    rintro other ⟨now, known, ne⟩
    rw [List.getElem?_set] at known
    split at known
    · rename_i same
      subst same
      split at known
      · rename_i lt
        exact coherent.live source ⟨_, List.getElem?_eq_getElem lt, fun closed =>
          notClosed (by rw [List.getElem?_eq_getElem lt, closed])⟩
      · cases known
    · exact coherent.live other ⟨now, known, ne⟩

end Sources

section Probes

/-- A probe is started when nothing is connected and no reconnect is under way. -/
theorem Coherent.startProbe (coherent : s.Coherent)
    (quiet : s.closed = false → s.Idle ∧ s.Ready) : s.startProbe.Coherent := { coherent with
  awaiting free _ _ := ⟨(quiet free).1.unconnected, (quiet free).2⟩
  awaitedOnce free := by
    have onlyNew : ∀ probe, s.startProbe.Awaited probe → probe = s.probes.length := by
      intro probe awaited
      simp only [Awaited, State.startProbe, List.getElem?_append, List.getElem?_singleton] at awaited
      split at awaited
      · exact absurd awaited ((quiet free).1.notAwaited probe)
      · split at awaited
        · omega
        · cases awaited
    intro first second firstAwaited secondAwaited
    rw [onlyNew first firstAwaited, onlyNew second secondAwaited]
  tickets := by
    intro probe mem
    rcases List.mem_append.mp mem with old | new
    · exact coherent.tickets probe old
    · rw [List.mem_singleton.mp new]
      exact Nat.le_refl _ }

theorem awaited_settle {number probe : ℕ} (awaited : (s.settle number).Awaited probe) :
    probe ≠ number ∧ s.Awaited probe := by
  simp only [Awaited, State.settle, List.getElem?_modify] at awaited
  rcases Option.map_eq_some_iff.mp awaited with ⟨old, oldKnown, same⟩
  split at same
  · simp at same
  · rename_i other
    exact ⟨fun eq => other eq.symm, by rw [Awaited, oldKnown]; exact congrArg some same⟩

theorem Coherent.settle (coherent : s.Coherent) (number : ℕ) (probeAbort : Option ℕ) :
    State.Coherent { s.settle number with probeAbort } := { coherent with
  awaiting free probe awaited := coherent.awaiting free probe (awaited_settle awaited).2
  awaitedOnce free first second firstAwaited secondAwaited :=
    coherent.awaitedOnce free first second (awaited_settle firstAwaited).2
      (awaited_settle secondAwaited).2
  tickets := ticket_le_modify coherent.tickets _ fun _ => rfl }

/-- The answered probe was the only one that was awaited. -/
theorem Coherent.idle_settle (coherent : s.Coherent) (free : s.closed = false) {number : ℕ}
    (awaited : s.Awaited number) (probeAbort : Option ℕ) :
    State.Idle { s.settle number with probeAbort } := by
  rcases coherent.awaiting free number awaited with ⟨unconnected, ready⟩
  refine ⟨unconnected, ready.noTimer, ?_⟩
  intro probe other
  rcases awaited_settle (s := s) other with ⟨ne, old⟩
  exact ne (coherent.awaitedOnce free probe number old awaited)

end Probes

theorem Coherent.close (coherent : s.Coherent) : s.close.Coherent where
  live source live := absurd live (coherent.clearReconnectTimer.notLive_stopConnection source)
  stale := coherent.clearReconnectTimer.stopConnection.stale
  reconnect := coherent.clearReconnectTimer.stopConnection.reconnect
  shut _ := by
    refine ⟨rfl, Timers.pending_eq_nil ?_, rfl⟩
    intro callback
    cases callback with
    | stale => exact coherent.clearReconnectTimer.stale.silent_clearSlot
    | reconnect => exact coherent.silent_clearReconnectTimer.clearSlot _
  connected connected := absurd rfl connected
  awaiting free := absurd free (by simp [State.close])
  awaitedOnce free := absurd free (by simp [State.close])
  tickets := coherent.clearReconnectTimer.stopConnection.tickets
  attached free := absurd free (by simp [State.close])

end State

end TelemtPanel.Web.LogStream
