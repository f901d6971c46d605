import TelemtPanel.Library.Run
import TelemtPanel.Web.LogStream.Basic

/-!
# What the client promises

The client keeps one connection, waits as long as it is asked to, delivers the lines of its
connection in order and is silent after it has been closed.  A function that notifies goes on
afterwards as if no listener had called the client; the promises are kept when the listeners call
only where nothing is left to do that the call overtakes.
-/

namespace TelemtPanel.Web.LogStream

open TelemtPanel.Library

namespace State

section Promised

/-- A source that was created and is not closed. -/
def Live (s : State) (source : ℕ) : Prop :=
  ∃ state, s.sources[source]? = some state ∧ state ≠ .closed

end Promised

end State

/-- The number of the message of which a line is delivered. -/
def Effect.number : Effect → Option ℕ
  | .delivered _ number _ _ => some number
  | _ => none

/-- The moment before which an answer allows no connection: that of the `Retry-After` of a 429,
from its arrival on. -/
def Entry.notBefore (reading : Reading) (entry : Entry) : Option ℚ :=
  match entry.effect with
  | .answered result =>
      if result.status = 429 then
        (reading.asked result.retryAfter entry.now).map fun milliseconds => entry.now + milliseconds
      else none
  | _ => none

/-- The promises of the client, in a state with its history. -/
structure State.Promises (s : State) : Prop where
  /-- At most one source is not closed. -/
  oneConnection : ∀ first second, s.Live first → s.Live second → first = second
  oneTimer : (s.timers.pending.filter fun timer => timer.callback = .reconnect).length ≤ 1
  /-- No connection is opened before a `Retry-After` that was received is over. -/
  waited : s.log.Pairwise fun later earlier => ∀ deadline, later.effect = .opened →
    earlier.notBefore s.settings.reading = some deadline → deadline ≤ later.now
  /-- A pending reconnect has its timer, or is about to set it when its notification is over. -/
  armed : s.hidden = false → s.reconnectPending = true →
    (∃ timer ∈ s.timers.pending, timer.callback = .reconnect) ∨
      ∃ delay, .armReconnect delay ∈ s.stack
  /-- A line is a message of the connection at the moment of its delivery. -/
  current : ∀ entry ∈ s.log, ∀ listener number source line,
    entry.effect = .delivered listener number source line → entry.es = some source ∧
      ∃ data, s.messages[number]? = some (source, data) ∧ lineOf data = some line
  inOrder : s.log.Pairwise fun later earlier => ∀ number before,
    later.effect.number = some number → earlier.effect.number = some before → before ≤ number
  /-- Nothing is opened, called or delivered once the client is closed. -/
  silent : ∀ entry ∈ s.log, entry.closed = false
  noTimers : s.closed = true → s.timers.pending = []

section Conditions

/-- What is left to do is not overtaken by a new connection. -/
def Frame.survivesRetry (s : State) : Frame → Bool
  | .lines _ _ _ position => (s.lineListeners.following position).isNone
  | .deliver _ _ data => (lineOf data).isNone || (s.lineListeners.following 0).isNone
  | .armReconnect _ => s.hidden
  | .diagnosed reason => s.hidden || reason ∉ transientSourceReasons
  | .startProbe => false
  | .scheduleReconnect => s.hidden
  | .openConnection => s.hidden
  | .listeners _ => true
  | .resetStaleWatchdog => true
  | .pauseIfHidden => true

/-- What is left to do is nothing for a client that is closed. -/
def Frame.survivesClose (s : State) : Frame → Bool
  | .listeners position => (s.listeners.following position).isNone
  | .lines _ _ _ position => (s.lineListeners.following position).isNone
  | .deliver _ _ data => (lineOf data).isNone || (s.lineListeners.following 0).isNone
  | .armReconnect _ => s.hidden
  | .resetStaleWatchdog => false
  | .diagnosed reason => reason ∉ transientSourceReasons
  | .scheduleReconnect => false
  | .startProbe => true
  | .pauseIfHidden => true
  | .openConnection => true

/-- The lines that are being delivered are those of the connection. -/
def Frame.ofConnection (s : State) : Frame → Bool
  | .lines _ source _ _ => s.es = some source
  | .deliver _ source data => (lineOf data).isNone || s.es = some source
  | _ => true

/-- The condition on a call, in the state in which it is made.  Without a listener that is
running there is none. -/
def State.heeds (s : State) : Call → Bool
  | .retry => s.closed || s.stack.all (Frame.survivesRetry s)
  | .close => s.closed || s.stack.all (Frame.survivesClose s)
  | .subscribe _ => !s.closed || s.stack.isEmpty
  | .onLine _ => s.stack.all (Frame.ofConnection s)
  | .unsubscribe _ => true
  | .offLine _ => true

/-- The condition on a step: only calls have one. -/
def State.allows (s : State) : Input → Bool
  | .call call => s.heeds call
  | _ => true

end Conditions

end TelemtPanel.Web.LogStream
