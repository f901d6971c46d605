import TelemtPanel.Web.LogStream.Steps

/-!
# Runs of the client

The invariant holds when the client is created and is kept by every step whose condition is met.
In every state of such a run the promises are kept, whatever the page does and in whatever order.
A listener that closes the client while a transient source error is handled shows that the
condition is needed.
-/

namespace TelemtPanel.Web.LogStream

open TelemtPanel.Library

namespace State

variable {s : State}

theorem Sound.promises (sound : s.Sound) : s.Promises where
  oneConnection first second firstLive secondLive := by
    have firstCurrent := sound.coherent.live first firstLive
    have secondCurrent := sound.coherent.live second secondLive
    rw [firstCurrent] at secondCurrent
    exact Option.some.inj secondCurrent
  oneTimer := sound.coherent.reconnect.atMostOne
  waited := sound.told.waited
  armed := sound.armed
  current := sound.told.current
  inOrder := sound.told.inOrder
  silent := sound.told.silent
  noTimers closed := (sound.coherent.shut closed).2.1

end State

theorem sound_createLogStream (settings : Settings) (hidden : Bool) (now : ℕ) :
    (createLogStream settings hidden now).Sound := by
  apply State.Steady.openConnection
  · refine ⟨?_, ?_, by simp, List.Pairwise.nil⟩
    · refine ⟨?_, Timers.silent_empty.holds, Timers.silent_empty.holds, by simp, by simp, ?_, ?_,
        by simp, by simp⟩
      · rintro source ⟨state, known, -⟩
        cases known
      · intro _ probe awaited
        cases awaited
      · intro _ first second awaited
        cases awaited
    · exact ⟨by simp, by simp, List.Pairwise.nil, by simp, List.Pairwise.nil⟩
  · intro _
    refine ⟨⟨rfl, Timers.silent_empty, ?_⟩, Nat.cast_nonneg now, fun _ => rfl⟩
    intro probe awaited
    cases awaited
  · intro frame mem
    cases mem

/-- In every state of a run whose calls meet their condition the promises are kept. -/
theorem promises_after (settings : Settings) (hidden : Bool) (now : ℕ) (inputs : List Input)
    (heeded : Permitted State.step (fun s input => s.allows input = true)
      (createLogStream settings hidden now) inputs) :
    (after State.step (createLogStream settings hidden now) inputs).Promises := by
  apply State.Sound.promises
  exact invariant_after (fun _ _ sound allowed => sound.step allowed)
    (sound_createLogStream settings hidden now) heeded

/-- The viewer of the proxy's log, which is told to wait for seven seconds. -/
def viewer : Settings where
  service := "telemt"
  staleMs := 40000
  reading := ⟨fun text => if text = "7" then some 7 else none, fun _ => none⟩

def logLine : Value :=
  .table [("ts", .leaf (.string "2026-10-03T12:00:00Z")), ("msg", .leaf (.string "started"))]

/-- A listener calls `retry` while the client reports the connection and a line is delivered.
Then the source is refused, the probe is told to wait, and the client reconnects afterwards and is
closed. -/
def retryingRun : List Input :=
  [.call (.subscribe 1), .call (.onLine 2), .event (.opened 0), .call .retry, .resume, .resume,
    .resume, .resume, .event (.opened 1), .resume, .resume, .event (.log 1 (some logLine)),
    .resume, .resume, .event (.readyState 1 .closed), .event (.error 1), .resume, .resume,
    .event (.probeAnswer 0 ⟨429, some "7", none⟩), .resume, .resume, .resume, .resume, .wait 7000,
    .event (.timer 3), .call .close]

theorem promises_after_retryingRun :
    (after State.step (createLogStream viewer false 0) retryingRun).Promises :=
  promises_after viewer false 0 retryingRun (by decide +kernel)

def sourceTimeout : Value :=
  .table [("code", .leaf (.string "log_source_error")),
    ("message", .leaf (.string "log source timed out")), ("source", .leaf (.string "journald")),
    ("service", .leaf (.string "telemt")), ("reason", .leaf (.string "source_timeout"))]

/-- A listener closes the client when it learns of a transient source error. -/
def closingRun : List Input :=
  [.call (.subscribe 1), .event (.logSourceError 0 (some sourceTimeout)), .call .close, .resume,
    .resume, .resume, .resume]

/-- The listener is called once more after `close`, and a timer remains. -/
theorem not_promises_after_closingRun :
    ¬ (after State.step (createLogStream viewer false 0) closingRun).Promises := by
  intro promises
  have called : ∃ entry ∈ (after State.step (createLogStream viewer false 0) closingRun).log,
      entry.closed = true := by
    decide +kernel
  rcases called with ⟨entry, mem, closed⟩
  have silent := promises.silent entry mem
  simp [closed] at silent

end TelemtPanel.Web.LogStream
