import TelemtPanel.Library.History

/-!
# Capabilities of a Telemt build

Four flags are probed and cached for a while, two are marked absent when a mutation meets a
missing route.  All of them, and the version that was seen last, are guarded by one mutex; a
generation counts the changes of the version, and what was begun in an older generation is
not recorded.  Only the caller that took the token of a gate probes.

A call of `Capabilities` advances by one section under the mutex, one operation on the gate, or
one round of probes at a time, and any number of calls, version observations and mutations is
under way.  The rest of the client is not modelled.
-/

namespace TelemtPanel.Telemt

/-- Nanoseconds. -/
abbrev Time := ℤ

/-- `capabilityCacheTTL`. -/
def capabilityCacheTTL : ℤ := 5 * 60 * 1000000000

/-- `Caps`. -/
structure Caps where
  quota : Bool
  runtimeEdge : Bool
  reloadAPI : Bool
  configAPI : Bool
  userEnableDisable : Bool
  rotateSecret : Bool
  deriving DecidableEq, Repr

/-- `negativeCapabilityObservation`; the zero time is none. -/
structure NegativeCapabilityObservation where
  observedAt : Option Time
  version : String
  deriving DecidableEq, Repr

/-- The zero value. -/
def NegativeCapabilityObservation.zero : NegativeCapabilityObservation := ⟨none, ""⟩

/-- The mutations whose routes an older build may lack. -/
inductive Route where
  | setEnabled
  | rotateSecret
  deriving DecidableEq, Repr

/-- An error of a request: an `*APIError`, or another one. -/
inductive CallError where
  | api (status : ℕ) (code : String)
  | other
  deriving DecidableEq, Repr

/-- `isRouteAbsent`. -/
def CallError.isRouteAbsent : CallError → Bool
  | .api status code => code ≠ "not_found" && (status = 404 || status = 405)
  | .other => false

/-- What the requests of a round of probes return: the quota list, the gate of the connection
summary (absent when it cannot be decoded), the reload and the configuration. -/
structure Probes where
  quotaList : Except CallError Unit
  connections : Except CallError (Option Bool)
  reload : Except CallError Unit
  config : Except CallError Unit

/-- `probeCaps`. -/
def probeCaps (probes : Probes) : Caps where
  quota :=
    match probes.quotaList with
    | .ok _ => true
    | .error _ => false
  runtimeEdge :=
    match probes.connections with
    | .ok (some enabled) => enabled
    | _ => false
  reloadAPI :=
    match probes.reload with
    | .error (.api 404 code) => code ≠ "http_error"
    | _ => true
  configAPI :=
    match probes.config with
    | .error (.api 404 _) => false
    | .error (.api 405 _) => false
    | _ => true
  userEnableDisable := false
  rotateSecret := false

/-- The fields of `Client` that the mutex guards, and whether the token is in the gate. -/
structure Client where
  caps : Caps
  capsAt : Time
  capsValid : Bool
  telemtVersion : String
  capsGeneration : ℕ
  userEnableDisableAbsent : NegativeCapabilityObservation
  rotateSecretAbsent : NegativeCapabilityObservation
  capabilityProbeGate : Bool
  deriving DecidableEq, Repr

namespace Client

/-- `newClient`. -/
def new : Client :=
  ⟨⟨false, false, false, false, false, false⟩, 0, false, "", 0, .zero, .zero, true⟩

/-- `cachedCaps`. -/
def cachedCaps (c : Client) (now : Time) : Option Caps :=
  if c.capsValid ∧ now < c.capsAt + capabilityCacheTTL then some c.caps else none

/-- `storeCaps`. -/
def storeCaps (c : Client) (caps : Caps) (generation : ℕ) (now : Time) : Bool × Client :=
  if generation ≠ c.capsGeneration then (false, c)
  else (true, { c with caps, capsAt := now, capsValid := true })

/-- `observeTelemtVersion` changes something. -/
def NewVersion (c : Client) (version : String) (generation : ℕ) : Prop :=
  version ≠ "" ∧ generation = c.capsGeneration ∧ version ≠ c.telemtVersion

instance decidableNewVersion (c : Client) (version : String) (generation : ℕ) :
    Decidable (c.NewVersion version generation) := inferInstanceAs (Decidable (_ ∧ _))

/-- `observeTelemtVersion`. -/
def observeTelemtVersion (c : Client) (version : String) (generation : ℕ) : Client :=
  if c.NewVersion version generation then
    { c with
      telemtVersion := version
      capsGeneration := c.capsGeneration + 1
      capsValid := false
      userEnableDisableAbsent := .zero
      rotateSecretAbsent := .zero }
  else c

/-- The observation of a route. -/
def absent (c : Client) : Route → NegativeCapabilityObservation
  | .setEnabled => c.userEnableDisableAbsent
  | .rotateSecret => c.rotateSecretAbsent

/-- Writes the observation of a route. -/
def setAbsent (c : Client) (observation : NegativeCapabilityObservation) : Route → Client
  | .setEnabled => { c with userEnableDisableAbsent := observation }
  | .rotateSecret => { c with rotateSecretAbsent := observation }

/-- `observeMutation`. -/
def observeMutation (c : Client) (route : Route) (generation : ℕ) (err : Option CallError)
    (now : Time) : Client :=
  if generation ≠ c.capsGeneration then c
  else
    match err with
    | none => c.setAbsent .zero route
    | some err =>
        if err.isRouteAbsent then c.setAbsent ⟨some now, c.telemtVersion⟩ route else c

/-- The answer of `negativeObservationActive`. -/
def negativeObservationActive (c : Client) (route : Route) (now : Time) : Bool :=
  match (c.absent route).observedAt with
  | none => false
  | some observedAt =>
      (c.absent route).version = c.telemtVersion && now < observedAt + capabilityCacheTTL

/-- What `negativeObservationActive` leaves: an observation that is not active is cleared. -/
def afterObservation (c : Client) (route : Route) (now : Time) : Client :=
  match (c.absent route).observedAt with
  | none => c
  | some _ => if c.negativeObservationActive route now then c else c.setAbsent .zero route

/-- The last section of `Capabilities`. -/
def readObservations (c : Client) (caps : Caps) (now : Time) : Caps × Client :=
  let disabled := c.negativeObservationActive .setEnabled now
  let c := c.afterObservation .setEnabled now
  let unrotated := c.negativeObservationActive .rotateSecret now
  ({ caps with userEnableDisable := !disabled, rotateSecret := !unrotated },
    c.afterObservation .rotateSecret now)

end Client

/-- Flags that a call has taken, with the generation they were probed in and the moment they were
stored, which no step reads. -/
structure Drawn where
  caps : Caps
  probedIn : ℕ
  storedAt : Time
  deriving DecidableEq, Repr

/-- Where a call of `Capabilities` is.  From `owning` to `releasing` it has the token. -/
inductive Phase where
  | entered
  | looking
  | waiting
  | owning
  | reading
  | probing (generation : ℕ)
  | probed (generation : ℕ) (caps : Caps)
  | storing (generation : ℕ) (caps : Caps)
  | releasing (result : Option Drawn)
  | taking (drawn : Drawn)
  | returned
  deriving DecidableEq, Repr

/-- What a goroutine does: a call of `Capabilities`, of `SystemInfo`, or of a mutation; the latter
two read the generation before their request. -/
inductive Work where
  | capabilities (phase : Phase)
  | systemInfo (generation : Option ℕ)
  | mutation (route : Route) (generation : Option ℕ)
  | finished
  deriving DecidableEq, Repr

/-- A goroutine, whether its context is done, and the generation when it began, which no step
reads. -/
structure Thread where
  work : Work
  done : Bool
  begun : ℕ
  deriving DecidableEq, Repr

/-- A value that `Capabilities` returned: the generations its four probed flags and its two other
flags belong to, the generations when the call began and ended, and the age of the flags. -/
structure Answer where
  caps : Caps
  probedIn : ℕ
  enableIn : ℕ
  rotateIn : ℕ
  begun : ℕ
  ended : ℕ
  age : ℤ
  deriving DecidableEq, Repr

/-- Generations in which the cached flags were probed and the mutations were begun that the
observations are of.  No step reads them. -/
structure Origin where
  caps : ℕ
  absent : Route → ℕ

/-- The client, the goroutines and the clock, and the values returned so far. -/
structure System where
  client : Client
  origin : Origin
  threads : ℕ → Option Thread
  next : ℕ
  now : Time
  answers : List Answer

/-- What comes from outside in a step of a goroutine: which case of the `select` is taken, what
the requests return. -/
inductive Choice where
  | token
  | context
  | probes (probes : Probes)
  | version (info : Except CallError String)
  | mutated (err : Option CallError)

/-- What happens next. -/
inductive Action where
  | call
  | systemInfo
  | mutate (route : Route)
  | cancel (tid : ℕ)
  | wait (elapsed : ℕ)
  | proceed (tid : ℕ) (choice : Choice)

/-- What a step of a goroutine makes: its next work, the client, and the value it returns. -/
structure Effect where
  work : Work
  client : Client
  origin : Origin
  answer : Option Answer

namespace System

/-- A new goroutine. -/
def spawn (s : System) (work : Work) : System :=
  { s with
    threads := Function.update s.threads s.next (some ⟨work, false, s.client.capsGeneration⟩)
    next := s.next + 1 }

/-- The flags of the cache with where they come from. -/
def drawn (s : System) (caps : Caps) : Drawn := ⟨caps, s.origin.caps, s.client.capsAt⟩

/-- The generation that a flag read in the last section belongs to. -/
def flagIn (s : System) (route : Route) : ℕ :=
  if s.client.negativeObservationActive route s.now then s.origin.absent route
  else s.client.capsGeneration

/-- A step that leaves the client. -/
def goesTo (s : System) (work : Work) : Effect := ⟨work, s.client, s.origin, none⟩

/-- The last section of a call. -/
def take (s : System) (begun : ℕ) (drawn : Drawn) : Effect :=
  let (caps, client) := s.client.readObservations drawn.caps s.now
  ⟨.capabilities .returned, client, s.origin,
    some ⟨caps, drawn.probedIn, s.flagIn .setEnabled, s.flagIn .rotateSecret, begun,
      s.client.capsGeneration, s.now - drawn.storedAt⟩⟩

/-- The next step of a call of `Capabilities`. -/
def advance (s : System) (done : Bool) (begun : ℕ) (choice : Choice) : Phase → Effect
  | .entered => s.goesTo (.capabilities (if done then .returned else .looking))
  | .looking =>
      match s.client.cachedCaps s.now with
      | some caps => s.goesTo (.capabilities (.taking (s.drawn caps)))
      | none => s.goesTo (.capabilities .waiting)
  | .waiting =>
      match choice with
      | .context => s.goesTo (.capabilities (if done then .returned else .waiting))
      | .token =>
          if s.client.capabilityProbeGate then
            { s.goesTo (.capabilities .owning) with
              client := { s.client with capabilityProbeGate := false } }
          else s.goesTo (.capabilities .waiting)
      | _ => s.goesTo (.capabilities .waiting)
  | .owning =>
      match s.client.cachedCaps s.now with
      | some caps => s.goesTo (.capabilities (.releasing (some (s.drawn caps))))
      | none => s.goesTo (.capabilities .reading)
  | .reading => s.goesTo (.capabilities (.probing s.client.capsGeneration))
  | .probing generation =>
      match choice with
      | .probes probes => s.goesTo (.capabilities (.probed generation (probeCaps probes)))
      | _ => s.goesTo (.capabilities (.probing generation))
  | .probed generation caps =>
      s.goesTo (.capabilities (if done then .releasing none else .storing generation caps))
  | .storing generation caps =>
      let (stored, client) := s.client.storeCaps caps generation s.now
      if stored then
        ⟨.capabilities (.releasing (some ⟨caps, generation, s.now⟩)), client,
          { s.origin with caps := generation }, none⟩
      else s.goesTo (.capabilities .owning)
  | .releasing result =>
      let phase :=
        match result with
        | none => .returned
        | some drawn => .taking drawn
      { s.goesTo (.capabilities phase) with
        client := { s.client with capabilityProbeGate := true } }
  | .taking drawn => s.take begun drawn
  | .returned => s.goesTo (.capabilities .returned)

/-- The next step of a goroutine. -/
def effect (s : System) (thread : Thread) (choice : Choice) : Effect :=
  match thread.work with
  | .capabilities phase => s.advance thread.done thread.begun choice phase
  | .systemInfo none => s.goesTo (.systemInfo (some s.client.capsGeneration))
  | .systemInfo (some generation) =>
      match choice with
      | .version (.ok version) =>
          { s.goesTo .finished with client := s.client.observeTelemtVersion version generation }
      | .version (.error _) => s.goesTo .finished
      | _ => s.goesTo (.systemInfo (some generation))
  | .mutation route none => s.goesTo (.mutation route (some s.client.capsGeneration))
  | .mutation route (some generation) =>
      match choice with
      | .mutated err =>
          { s.goesTo .finished with
            client := s.client.observeMutation route generation err s.now
            origin := { s.origin with
              absent := if generation = s.client.capsGeneration then
                  Function.update s.origin.absent route generation
                else s.origin.absent } }
      | _ => s.goesTo (.mutation route (some generation))
  | .finished => s.goesTo .finished

/-- A goroutine makes a step. -/
def proceed (s : System) (tid : ℕ) (thread : Thread) (effect : Effect) : System :=
  { s with
    client := effect.client
    origin := effect.origin
    threads := Function.update s.threads tid (some { thread with work := effect.work })
    answers := s.answers ++ effect.answer.toList }

/-- The system after an action. -/
def step (s : System) : Action → System
  | .call => s.spawn (.capabilities .entered)
  | .systemInfo => s.spawn (.systemInfo none)
  | .mutate route => s.spawn (.mutation route none)
  | .cancel tid =>
      { s with
        threads := fun other =>
          if other = tid then (s.threads tid).map fun thread => { thread with done := true }
          else s.threads other }
  | .wait elapsed => { s with now := s.now + elapsed }
  | .proceed tid choice =>
      match s.threads tid with
      | none => s
      | some thread => s.proceed tid thread (s.effect thread choice)

/-- A client that was just made, with no goroutine. -/
def start (now : Time) : System :=
  ⟨.new, ⟨0, fun _ => 0⟩, fun _ => none, 0, now, []⟩

end System

end TelemtPanel.Telemt
