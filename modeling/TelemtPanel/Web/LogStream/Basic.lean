import TelemtPanel.Library.Binary64
import TelemtPanel.Library.Doc
import TelemtPanel.Library.InsertionSet
import TelemtPanel.Library.Timers

/-!
# The log stream client

The client of one log viewer keeps an `EventSource` open and reconnects it.  Its functions notify
listeners in the middle of what they do, and a listener may call the client again.  A function
that notifies therefore leaves on a stack what it does afterwards: the top of the stack is the
loop whose listener is running, or the rest of a function that goes on as soon as the loop above
it has ended.

Several things stand for their outside: a source is the number of the `EventSource` that was
created, a listener is a number, and the data of a message is the value that `JSON.parse` makes
of it, if it does not throw.  Times are exact.
-/

namespace TelemtPanel.Web.LogStream

open TelemtPanel.Library

section Messages

/-- A JSON value that is no array and no object; a number that no finite double is near to is
infinite. -/
inductive Scalar where
  | null
  | bool (value : Bool)
  | number (finite : Option ℚ)
  | string (value : String)
deriving DecidableEq

abbrev Value := Doc Scalar

/-- A value that a condition takes for true. -/
def truthy : Value → Bool
  | .leaf .null => false
  | .leaf (.bool value) => value
  | .leaf (.number finite) => finite ≠ some 0
  | .leaf (.string value) => value ≠ ""
  | .list _ => true
  | .table _ => true

/-- The property of an object; the last field of a name counts. -/
def property (value : Value) (name : String) : Option Value :=
  (Doc.fieldsOf (some value)).reverse.lookup name

/-- A property that has to be a string. -/
def textOf (value : Value) (name : String) : Option String :=
  match property value name with
  | some (.leaf (.string text)) => some text
  | _ => none

/-- A property that may be missing. -/
def optionalText (value : Value) (name : String) : Option (Option String) :=
  match property value name with
  | none => some none
  | some (.leaf (.string text)) => some (some text)
  | some _ => none

def optionalInteger (value : Value) (name : String) : Option (Option ℤ) :=
  match property value name with
  | none => some none
  | some (.leaf (.number (some number))) => if number.isInt then some (some number.num) else none
  | some _ => none

/-- `LogSourceDiagnostic`; its `code` is always `log_source_error`. -/
structure LogSourceDiagnostic where
  message : String
  source : String
  service : String
  reason : String
  target : Option String
  exitCode : Option ℤ
deriving DecidableEq

def reasons : List String :=
  ["file_missing", "permission_denied", "command_missing", "target_missing",
    "daemon_unavailable", "source_timeout", "read_failed", "command_failed"]

/-- `logSourceDiagnostic` of a parsed message. -/
def logSourceDiagnostic (data : Option Value) : Option LogSourceDiagnostic := do
  let value ← data
  let code ← textOf value "code"
  let message ← textOf value "message"
  let source ← textOf value "source"
  let service ← textOf value "service"
  let reason ← textOf value "reason"
  let target ← optionalText value "target"
  let exitCode ← optionalInteger value "exit_code"
  if code = "log_source_error" ∧ (service = "telemt" ∨ service = "panel") ∧ reason ∈ reasons then
    some ⟨message, source, service, reason, target, exitCode⟩
  else none

def transientSourceReasons : List String :=
  ["source_timeout", "read_failed", "command_failed", "daemon_unavailable", "target_missing",
    "file_missing"]

/-- The line of a `log` message, unless it is dropped. -/
def lineOf (data : Option Value) : Option Value :=
  data.filter truthy

/-- `LogCapacityProbe`. -/
structure LogCapacityProbe where
  status : ℤ
  retryAfter : Option String
  code : Option String
deriving DecidableEq

/-- How the host reads a `Retry-After`: `Number`, if it is finite, and `Date.parse`. -/
structure Reading where
  number : String → Option ℚ
  date : String → Option ℚ

/-- The wait that a `Retry-After` asks for, when it can be read as a finite number of
milliseconds. -/
def Reading.asked (reading : Reading) (value : Option String) (now : ℕ) : Option ℚ :=
  match value with
  | none => none
  | some text =>
      if text = "" then none
      else match reading.number text with
        | some seconds => Binary64.nearest (seconds * 1000)
        | none => (reading.date text).map fun date => date - now

/-- `retryAfterMilliseconds`. -/
def Reading.retryAfterMilliseconds (reading : Reading) (value : Option String) (now : ℕ) : ℚ :=
  match reading.asked value now with
  | some milliseconds => max 5000 milliseconds
  | none => 5000

/-- The client never waits less than it is asked to. -/
theorem Reading.le_retryAfterMilliseconds {reading : Reading} {value : Option String} {now : ℕ}
    {milliseconds : ℚ} (asked : reading.asked value now = some milliseconds) :
    milliseconds ≤ reading.retryAfterMilliseconds value now := by
  simp [retryAfterMilliseconds, asked]

end Messages

section Data

inductive LogStreamStatus where
  | connecting
  | opened
  | reconnecting
  | closed
  | error
  | ended
deriving DecidableEq

/-- A diagnostic as an object: two objects are the same when they have one identity. -/
structure Reference where
  identity : ℕ
  diagnostic : LogSourceDiagnostic
deriving DecidableEq

structure LogStreamSnapshot where
  status : LogStreamStatus
  stale : Bool
  error : Option Reference
  errorCode : Option String
deriving DecidableEq

/-- `EventSource.readyState`. -/
inductive ReadyState where
  | connecting
  | opened
  | closed
deriving DecidableEq

/-- What a timer calls. -/
inductive Callback where
  | stale
  | reconnect
deriving DecidableEq

/-- A capacity probe that was started: the generation it belongs to, whether its signal is
aborted and whether it was answered. -/
structure Probe where
  ticket : ℕ
  aborted : Bool
  settled : Bool
deriving DecidableEq

/-- What is left to do: the two loops, with the position from which they go on when the running
listener returns, and what a function does after it has notified. -/
inductive Frame where
  | listeners (position : ℕ)
  | lines (number source : ℕ) (line : Value) (position : ℕ)
  | deliver (number source : ℕ) (data : Option Value)
  | armReconnect (delay : ℚ)
  | resetStaleWatchdog
  | diagnosed (reason : String)
  | startProbe
  | pauseIfHidden
  | scheduleReconnect
  | openConnection

/-- What can be seen from outside.  The answer of a probe is seen when it arrives and the client
still waits for it: it is not closed, has opened no connection since and has not aborted it. -/
inductive Effect where
  | opened
  | called (listener : ℕ)
  | delivered (listener number source : ℕ) (line : Value)
  | answered (result : LogCapacityProbe)

/-- An effect with the moment at which it happened. -/
structure Entry where
  closed : Bool
  es : Option ℕ
  now : ℕ
  effect : Effect

structure Settings where
  service : String
  staleMs : ℚ
  reading : Reading

/-- The variables of the client, then the page around it: its event sources, timers, probes,
clock and visibility, what is left to do, and what has happened, the newest first. -/
structure State where
  settings : Settings
  listeners : InsertionSet ℕ
  lineListeners : InsertionSet ℕ
  snapshot : LogStreamSnapshot
  staleTimer : Option ℕ
  reconnectTimer : Option ℕ
  reconnectPending : Bool
  reconnectStep : ℕ
  closed : Bool
  es : Option ℕ
  generation : ℕ
  probeAbort : Option ℕ
  retryNotBefore : ℚ
  sources : List ReadyState
  timers : Timers Callback
  probes : List Probe
  now : ℕ
  hidden : Bool
  attached : Bool
  diagnostics : ℕ
  messages : List (ℕ × Option Value)
  stack : List Frame
  log : List Entry

end Data

namespace State

section Functions

def record (s : State) (effect : Effect) : State :=
  { s with log := ⟨s.closed, s.es, s.now, effect⟩ :: s.log }

/-- The loop of `notify` from a position on: it calls the next listener. -/
def notifyFrom (s : State) (position : ℕ) : State :=
  match s.listeners.following position with
  | none => s
  | some (stamp, listener) =>
      { s.record (.called listener) with stack := .listeners (stamp + 1) :: s.stack }

def notify (s : State) : State := s.notifyFrom 0

/-- `setSnapshot`, with the patched snapshot. -/
def setSnapshot (s : State) (next : LogStreamSnapshot) : State :=
  if next = s.snapshot then s
  else { s with snapshot := next }.notify

/-- Calls `setSnapshot` and leaves what follows on the stack. -/
def setSnapshotThen (s : State) (next : LogStreamSnapshot) (rest : Frame) : State :=
  { s with stack := rest :: s.stack }.setSnapshot next

def resetStaleWatchdog (s : State) : State :=
  { s with
    staleTimer := some (s.timers.clearSlot s.staleTimer).next
    timers := (s.timers.clearSlot s.staleTimer).set .stale s.settings.staleMs }

/-- `onFrame` up to its notification. -/
def frameReceived (s : State) : State :=
  { s.resetStaleWatchdog with reconnectStep := 0, retryNotBefore := 0 }

/-- The snapshot that `onFrame` sets. -/
def frameSnapshot (s : State) : LogStreamSnapshot :=
  { s.snapshot with stale := false, error := none, errorCode := none }

def stopConnection (s : State) : State :=
  { s with
    generation := s.generation + 1
    probes := match s.probeAbort with
      | none => s.probes
      | some probe => s.probes.modify probe fun probe => { probe with aborted := true }
    probeAbort := none
    timers := s.timers.clearSlot s.staleTimer
    staleTimer := none
    sources := match s.es with
      | none => s.sources
      | some source => s.sources.set source .closed
    es := none }

def clearReconnectTimer (s : State) : State :=
  { s with timers := s.timers.clearSlot s.reconnectTimer, reconnectTimer := none }

def setReconnectTimer (s : State) (delay : ℚ) : State :=
  { s with reconnectTimer := some s.timers.next, timers := s.timers.set .reconnect delay }

def pauseConnecting (s : State) : State :=
  if (s.es.bind fun source => s.sources[source]?) = some .connecting then
    { s.stopConnection with reconnectPending := true }.setSnapshot
      { s.snapshot with status := .reconnecting, stale := false }
  else s

/-- The new `EventSource` of `open`. -/
def createSource (s : State) : State :=
  { s.record .opened with
    sources := s.sources ++ [.connecting]
    es := some s.sources.length }

/-- `open`. -/
def openConnection (s : State) : State :=
  if s.closed then s
  else if s.hidden then s.createSource.pauseConnecting
  else s.createSource

/-- `reconnect` after it has cleared its timer. -/
def reconnectNow (s : State) : State :=
  if s.closed ∨ s.reconnectPending = false ∨ s.hidden then s
  else if s.now < s.retryNotBefore then s.setReconnectTimer (s.retryNotBefore - s.now)
  else { s with reconnectPending := false }.openConnection

def reconnect (s : State) : State := s.clearReconnectTimer.reconnectNow

/-- `RECONNECT_DELAYS_MS`. -/
def reconnectDelays : List ℚ := [1000, 2000, 5000, 10000, 30000]

def reconnectDelay (s : State) : ℚ :=
  max (reconnectDelays.getD (min s.reconnectStep (reconnectDelays.length - 1)) 0)
    (s.retryNotBefore - s.now)

def scheduleReconnect (s : State) : State :=
  { s with
    reconnectPending := true
    reconnectStep := min (s.reconnectStep + 1) (reconnectDelays.length - 1) }.setSnapshotThen
      { s.snapshot with status := .reconnecting, stale := false } (.armReconnect s.reconnectDelay)

def armReconnect (s : State) (delay : ℚ) : State :=
  if s.hidden then s else s.setReconnectTimer delay

def onVisibilityChange (s : State) : State :=
  if s.hidden then s.clearReconnectTimer.pauseConnecting
  else if s.reconnectPending then s.reconnect
  else s

end Functions

section Handlers

def onOpen (s : State) (source : ℕ) : State :=
  if s.es = some source then
    { s with retryNotBefore := 0 }.setSnapshotThen
      { s.snapshot with status := .opened, stale := false, errorCode := none } .resetStaleWatchdog
  else s

def onLog (s : State) (source : ℕ) (data : Option Value) : State :=
  if s.es = some source then
    { s.frameReceived with messages := s.messages ++ [(source, data)] }.setSnapshotThen
      s.frameSnapshot (.deliver s.messages.length source data)
  else s

/-- The loop over the line listeners from a position on. -/
def deliverFrom (s : State) (number source : ℕ) (line : Value) (position : ℕ) : State :=
  match s.lineListeners.following position with
  | none => s
  | some (stamp, listener) =>
      { s.record (.delivered listener number source line) with
        stack := .lines number source line (stamp + 1) :: s.stack }

/-- What the `log` handler does after `onFrame`. -/
def deliver (s : State) (number source : ℕ) (data : Option Value) : State :=
  match lineOf data with
  | none => s
  | some line => s.deliverFrom number source line 0

def onHeartbeat (s : State) (source : ℕ) : State :=
  if s.es = some source then s.frameReceived.setSnapshot s.frameSnapshot else s

def onSourceError (s : State) (source : ℕ) (data : Option Value) : State :=
  if s.es = some source then
    match logSourceDiagnostic data with
    | none => s
    | some diagnostic =>
        if diagnostic.service ≠ s.settings.service then s
        else { s.stopConnection with diagnostics := s.diagnostics + 1 }.setSnapshotThen
          { s.snapshot with
            status := .error
            stale := false
            error := some ⟨s.diagnostics, diagnostic⟩ }
          (.diagnosed diagnostic.reason)
  else s

/-- What the handler of a source error does after it has notified. -/
def diagnosed (s : State) (reason : String) : State :=
  if reason ∈ transientSourceReasons then s.scheduleReconnect else s

def onLogEnd (s : State) (source : ℕ) : State :=
  if s.es = some source then s.stopConnection.scheduleReconnect else s

def onError (s : State) (source : ℕ) : State :=
  if s.es = some source then
    if s.sources[source]? = some .closed then
      s.stopConnection.setSnapshotThen { s.snapshot with status := .closed } .startProbe
    else
      s.setSnapshotThen { s.snapshot with status := .reconnecting } .pauseIfHidden
  else s

def startProbe (s : State) : State :=
  { s with
    probeAbort := some s.probes.length
    probes := s.probes ++ [⟨s.generation, false, false⟩] }

def pauseIfHidden (s : State) : State :=
  if s.hidden then s.pauseConnecting else s

/-- Takes over the wait that a `Retry-After` asks for. -/
def takeRetryAfter (s : State) (value : Option String) : State :=
  { s with retryNotBefore := s.now + s.settings.reading.retryAfterMilliseconds value s.now }

/-- The answer of a probe that still counts. -/
def probeAnswered (s : State) (result : LogCapacityProbe) : State :=
  if result.status = 429 then
    (s.takeRetryAfter result.retryAfter).setSnapshotThen
      { s.snapshot with errorCode := some "logs_stream_limit" } .scheduleReconnect
  else if result.status = 204 then s.scheduleReconnect
  else match result.code with
    | none => s
    | some code => if code = "" then s else s.setSnapshot { s.snapshot with errorCode := some code }

def settle (s : State) (number : ℕ) : State :=
  { s with probes := s.probes.modify number fun probe => { probe with settled := true } }

def onProbeAnswer (s : State) (number : ℕ) (result : LogCapacityProbe) : State :=
  match s.probes[number]? with
  | none => s
  | some probe =>
      if probe.settled then s
      else if s.closed ∨ s.generation ≠ probe.ticket ∨ probe.aborted then s.settle number
      else
        ({ s.settle number with probeAbort := none }.record (.answered result)).probeAnswered result

def onProbeFailure (s : State) (number : ℕ) : State :=
  match s.probes[number]? with
  | none => s
  | some probe =>
      if probe.settled then s
      else if s.generation = probe.ticket then { s.settle number with probeAbort := none }
      else s.settle number

def onTimer (s : State) (id : ℕ) : State :=
  match s.timers.pending.find? fun timer => timer.id = id with
  | none => s
  | some timer =>
      let fired := { s with timers := s.timers.clear id }
      match timer.callback with
      | .stale => fired.setSnapshot { s.snapshot with stale := true }
      | .reconnect => fired.reconnect

end Handlers

section Interface

/-- `retry` before the earliest moment of a connection. -/
def retryLater (s : State) : State :=
  let waiting := { s.clearReconnectTimer with reconnectPending := true }
  if s.hidden then waiting else waiting.setReconnectTimer (s.retryNotBefore - s.now)

/-- `retry` up to its notification. -/
def retryStopped (s : State) : State :=
  { s.clearReconnectTimer.stopConnection with reconnectPending := false, reconnectStep := 0 }

def retry (s : State) : State :=
  if s.closed then s
  else if s.now < s.retryNotBefore then s.retryLater
  else s.retryStopped.setSnapshotThen
    { s.snapshot with status := .connecting, stale := false, error := none, errorCode := none }
    .openConnection

def close (s : State) : State :=
  { s.clearReconnectTimer.stopConnection with
    closed := true
    reconnectPending := false
    attached := false }

end Interface

end State

section Steps

/-- What the page does with the client while no callback is running. -/
inductive Event where
  | readyState (source : ℕ) (state : ReadyState)
  | opened (source : ℕ)
  | log (source : ℕ) (data : Option Value)
  | heartbeat (source : ℕ)
  | logSourceError (source : ℕ) (data : Option Value)
  | logEnd (source : ℕ)
  | error (source : ℕ)
  | timer (id : ℕ)
  | visibility (hidden : Bool)
  | probeAnswer (number : ℕ) (result : LogCapacityProbe)
  | probeFailure (number : ℕ)

/-- What is called from anywhere, also by a listener that is running. -/
inductive Call where
  | retry
  | close
  | subscribe (listener : ℕ)
  | unsubscribe (listener : ℕ)
  | onLine (listener : ℕ)
  | offLine (listener : ℕ)

inductive Input where
  | event (event : Event)
  | call (call : Call)
  | resume
  | wait (milliseconds : ℕ)

namespace State

/-- A source that is closed stays closed. -/
def setReadyState (s : State) (source : ℕ) (state : ReadyState) : State :=
  if s.sources[source]? = some .closed then s
  else { s with sources := s.sources.set source state }

def setVisibility (s : State) (hidden : Bool) : State :=
  if s.attached then { s with hidden }.onVisibilityChange else { s with hidden }

def event (s : State) : Event → State
  | .readyState source state => s.setReadyState source state
  | .opened source => s.onOpen source
  | .log source data => s.onLog source data
  | .heartbeat source => s.onHeartbeat source
  | .logSourceError source data => s.onSourceError source data
  | .logEnd source => s.onLogEnd source
  | .error source => s.onError source
  | .timer id => s.onTimer id
  | .visibility hidden => s.setVisibility hidden
  | .probeAnswer number result => s.onProbeAnswer number result
  | .probeFailure number => s.onProbeFailure number

def call (s : State) : Call → State
  | .retry => s.retry
  | .close => s.close
  | .subscribe listener => { s with listeners := s.listeners.add listener }
  | .unsubscribe listener => { s with listeners := s.listeners.delete listener }
  | .onLine listener => { s with lineListeners := s.lineListeners.add listener }
  | .offLine listener => { s with lineListeners := s.lineListeners.delete listener }

/-- The running listener returns, or a function goes on after its notification. -/
def proceed (s : State) : Frame → State
  | .listeners position => s.notifyFrom position
  | .lines number source line position => s.deliverFrom number source line position
  | .deliver number source data => s.deliver number source data
  | .armReconnect delay => s.armReconnect delay
  | .resetStaleWatchdog => s.resetStaleWatchdog
  | .diagnosed reason => s.diagnosed reason
  | .startProbe => s.startProbe
  | .pauseIfHidden => s.pauseIfHidden
  | .scheduleReconnect => s.scheduleReconnect
  | .openConnection => s.openConnection

def resume (s : State) : State :=
  match s.stack with
  | [] => s
  | frame :: rest => { s with stack := rest }.proceed frame

/-- No code of the client is running: nothing is left to do, or a listener has been called. -/
def callable (s : State) : Bool :=
  match s.stack with
  | [] => true
  | .listeners _ :: _ => true
  | .lines _ _ _ _ :: _ => true
  | _ => false

def step (s : State) : Input → State
  | .event event => if s.stack.isEmpty then s.event event else s
  | .call call => if s.callable then s.call call else s
  | .resume => s.resume
  | .wait milliseconds => { s with now := s.now + milliseconds }

end State

/-- `createLogStream` on a page. -/
def createLogStream (settings : Settings) (hidden : Bool) (now : ℕ) : State :=
  { settings
    listeners := .empty
    lineListeners := .empty
    snapshot := ⟨.connecting, false, none, none⟩
    staleTimer := none
    reconnectTimer := none
    reconnectPending := false
    reconnectStep := 0
    closed := false
    es := none
    generation := 0
    probeAbort := none
    retryNotBefore := 0
    sources := []
    timers := .empty
    probes := []
    now
    hidden
    attached := true
    diagnostics := 0
    messages := []
    stack := []
    log := [] : State }.openConnection

end Steps

end TelemtPanel.Web.LogStream
