import Mathlib
import TelemtPanel.Library.Run

/-!
# The quota reset manager

One slot is shared by four entry points: preparing a confirmation, starting a confirmed
run, executing a scheduled run and resetting a single user.  Its mutex is held only for
short sections.  Between them a call waits for the upstream API, and any other call may
take its sections.

Every step of the system below is one such section.  What the API answers, what time it
is and what a reservation returns is up to the environment.  Random tokens are drawn
from a sequence.
-/

namespace TelemtPanel.QuotaReset

inductive Failure where
  | busy
  | confirmation
  | revision
  | empty
  | closed
  | missing
  | api (status : ℤ) (code : String)
  | other
  deriving DecidableEq

inductive Outcome where
  | unknown
  | rejected
  deriving DecidableEq

structure Issue where
  username : String
  outcome : Outcome
  code : String
  deriving DecidableEq

inductive JobState where
  | running
  | completed
  | stopped
  deriving DecidableEq

structure Job where
  trigger : String
  id : String
  state : JobState
  total : ℕ
  processed : ℕ
  confirmed : ℕ
  rejected : ℕ
  unknown : ℕ
  reason : String
  startedAt : ℤ
  finishedAt : Option ℤ
  deriving DecidableEq

/-- What a client sees of the job: one page of its issues. -/
structure Status where
  job : Job
  remaining : ℤ
  issues : List Issue
  issuesTotal : ℕ
  nextOffset : Option ℕ
  deriving DecidableEq

structure Prepared where
  token : String
  total : ℕ
  expiresAt : ℤ
  names : List String
  revision : String
  deriving DecidableEq

structure Manager where
  closed : Bool
  checking : Bool
  single : Bool
  prepared : Option Prepared
  job : Option Job
  issues : List Issue
  deriving DecidableEq

section Snapshot

/-- Answers of the API to the three reads of a snapshot. -/
structure Answers where
  health : Except Failure Bool
  quotaList : Except Failure Bool
  usersWithRevision : Except Failure (List String × String)

/-- Leaves one copy of equal neighbours. -/
def compact : List String → List String
  | [] => []
  | [name] => [name]
  | name :: next :: rest =>
      if name = next then compact (next :: rest) else name :: compact (next :: rest)

def sortNames (names : List String) : List String :=
  compact (names.mergeSort fun left right => decide (left ≤ right))

/-- The users to reset, in order, and the revision of the configuration. -/
def snapshot (answers : Answers) : List String × String × Option Failure :=
  match answers.health with
  | .error failure => ([], "", some failure)
  | .ok readOnly =>
      if readOnly then ([], "", some (.api 403 "read_only"))
      else
        match answers.quotaList with
        | .error failure => ([], "", some failure)
        | .ok supported =>
            if !supported then ([], "", some (.api 501 "capability_absent"))
            else
              match answers.usersWithRevision with
              | .error failure => ([], "", some failure)
              | .ok (users, revision) =>
                  if revision = "" then ([], "", some (.api 503 "capability_unavailable"))
                  else if "" ∈ users then ([], "", some .revision)
                  else if sortNames users = [] then ([], revision, some .empty)
                  else (sortNames users, revision, none)

end Snapshot

section Sections

def Manager.running (manager : Manager) : Bool :=
  manager.job.any fun job => decide (job.state = .running)

def Manager.busy (manager : Manager) : Bool :=
  manager.checking || manager.single || manager.running

/-- The refusal that every entry point begins with. -/
def Manager.refusal (manager : Manager) : Option Failure :=
  if manager.closed then some .closed else if manager.busy then some .busy else none

def statusLocked (job : Job) (issues : List Issue) (offset : ℤ) : Status :=
  let start := (max 0 (min offset issues.length)).toNat
  let stop := min (start + 50) issues.length
  { job := job
    remaining := job.total - job.processed
    issues := (issues.drop start).take (stop - start)
    issuesTotal := issues.length
    nextOffset := if stop < issues.length then some stop else none }

def Manager.status (manager : Manager) (id : String) (offset : ℤ) :
    Except Failure (Option Status) :=
  match manager.job with
  | none => if id ≠ "" then .error .missing else .ok none
  | some job =>
      if id ≠ "" ∧ id ≠ job.id then .error .missing
      else .ok (some (statusLocked job manager.issues offset))

/-- Two minutes, in nanoseconds. -/
def confirmationLifetime : ℤ := 120000000000

/-- Keeps a new confirmation. -/
def Manager.store (manager : Manager) (prepared : Prepared) : Manager :=
  if manager.closed then manager else { manager with prepared := some prepared }

inductive Admission where
  | refused (failure : Failure)
  | current (status : Status)
  | checking (prepared : Prepared)
  deriving DecidableEq

/-- The first section of a start. -/
def Manager.admission (manager : Manager) (token : String) (now : ℤ) : Admission :=
  if manager.closed then .refused .closed
  else
    match manager.job.filter fun job => decide (job.id = token) with
    | some job => .current (statusLocked job manager.issues 0)
    | none =>
        if manager.busy then .refused .busy
        else
          match manager.prepared with
          | none => .refused .confirmation
          | some prepared =>
              if token = "" ∨ prepared.token ≠ token ∨ ¬now < prepared.expiresAt then
                .refused .confirmation
              else .checking prepared

def newJob (trigger id : String) (total : ℕ) (now : ℤ) : Job where
  trigger := trigger
  id := id
  state := .running
  total := total
  processed := 0
  confirmed := 0
  rejected := 0
  unknown := 0
  reason := ""
  startedAt := now
  finishedAt := none

/-- Replaces the confirmation and the last result by a running job. -/
def Manager.begin (manager : Manager) (trigger id : String) (total : ℕ) (now : ℤ) : Manager :=
  { manager with
    checking := false
    prepared := none
    issues := []
    job := some (newJob trigger id total now) }

/-- The second section of a start: the users to reset, or why there are none. -/
def Manager.confirm (manager : Manager) (prepared : Prepared)
    (fresh : List String × String × Option Failure) (now : ℤ) :
    Manager × Except Failure (List String) :=
  let released := { manager with checking := false }
  match fresh with
  | (_, _, some failure) => (released, .error failure)
  | (names, revision, none) =>
      if manager.closed then (released, .error .closed)
      else if ¬now < prepared.expiresAt then (released, .error .confirmation)
      else if revision ≠ prepared.revision ∨ names ≠ prepared.names then
        ({ released with prepared := none }, .error .revision)
      else (manager.begin "" prepared.token names.length now, .ok names)

/-- The second section of a scheduled run, with the reservation made under the lock. -/
def Manager.reserve (manager : Manager) (fresh : List String × String × Option Failure)
    (done : Bool) (token : String)
    (reservation : List String → String → Except Failure (List String)) (now : ℤ) :
    Manager × Except Failure (List String) :=
  let released := { manager with checking := false }
  match fresh with
  | (names, _, failure) =>
      if failure ≠ none ∧ failure ≠ some .empty then (released, .error (failure.getD .other))
      else if manager.closed ∨ done then (released, .error .closed)
      else
        match reservation names token with
        | .error failure => (released, .error failure)
        | .ok selected =>
            if selected = [] then (released, .error .empty)
            else (manager.begin "schedule" token selected.length now, .ok selected)

/-- Only known refusals before any change count as rejected, and only an unknown user lets
the run go on. -/
def classify (name : String) (failure : Failure) : Issue × Bool :=
  match failure with
  | .api status code =>
      if status = 404 ∧ code = "not_found" then
        ({ username := name, outcome := .rejected, code := "not_found" }, false)
      else if status = 403 ∧ code = "read_only" then
        ({ username := name, outcome := .rejected, code := "read_only" }, true)
      else if status = 409 ∧ code = "revision_conflict" then
        ({ username := name, outcome := .rejected, code := "revision_conflict" }, true)
      else if status = 401 ∨ status = 403 then
        ({ username := name, outcome := .rejected, code := "telemt_auth_failed" }, true)
      else if status = 404 ∨ status = 405 then
        ({ username := name, outcome := .rejected, code := "capability_absent" }, true)
      else ({ username := name, outcome := .unknown, code := "reset_unconfirmed" }, true)
  | _ => ({ username := name, outcome := .unknown, code := "reset_unconfirmed" }, true)

def Manager.modifyJob (manager : Manager) (change : Job → Job) : Manager :=
  { manager with job := manager.job.map change }

/-- Counts one answer; the flag tells the run to stop. -/
def Manager.count (manager : Manager) (name : String) (result : Option Failure) :
    Manager × Bool :=
  match result with
  | none =>
      (manager.modifyJob fun job =>
        { job with processed := job.processed + 1, confirmed := job.confirmed + 1 }, false)
  | some failure =>
      let (issue, stop) := classify name failure
      ({ manager.modifyJob fun job =>
          { job with
            processed := job.processed + 1
            unknown := if issue.outcome = .unknown then job.unknown + 1 else job.unknown
            rejected := if issue.outcome = .unknown then job.rejected else job.rejected + 1
            reason := if stop then issue.code else job.reason } with
        issues := manager.issues ++ [issue] }, stop)

/-- The last section of a run. -/
def Manager.complete (manager : Manager) (now : ℤ) : Manager :=
  manager.modifyJob fun job =>
    { job with
      finishedAt := some now
      state := if job.reason ≠ "" then .stopped else .completed }

end Sections

section System

/-- Where a call stands that has entered the slot. -/
inductive Call where
  | preparing
  | releasing
  | starting (prepared : Prepared)
  | scheduling
  | looping (names : List String)
  | waiting (name : String) (names : List String)
  | stopping
  | resetting (name : String)
  deriving DecidableEq

/-- The history of one run: what it was started from, and what it has sent and learnt. -/
structure Run where
  id : String
  confirmed : Option Prepared
  fresh : List String × String
  selected : List String
  sent : List (String × String)
  results : List (String × Option Failure)
  deriving DecidableEq

/-- The manager and the calls in its slot; `runs` is a ghost, the latest run first. -/
structure System where
  manager : Manager
  calls : ℕ → Option Call
  draws : ℕ
  runs : List Run

inductive Action where
  | prepare (id : ℕ)
  | prepared (id : ℕ) (answers : Answers) (now : ℤ)
  | release (id : ℕ)
  | start (id : ℕ) (token : String) (now : ℤ)
  | confirm (id : ℕ) (answers : Answers) (now : ℤ)
  | schedule (id : ℕ)
  | reserve (id : ℕ) (answers : Answers) (done : Bool)
      (reservation : List String → String → Except Failure (List String)) (now : ℤ)
  | dispatch (id : ℕ)
  | answer (id : ℕ) (result : Option Failure)
  | finish (id : ℕ) (now : ℤ)
  | resetSingle (id : ℕ) (name : String)
  | singleDone (id : ℕ)
  | close

def System.set (system : System) (id : ℕ) (call : Option Call) : System :=
  { system with calls := Function.update system.calls id call }

/-- A new call takes the slot, unless it is refused. -/
def System.enter (system : System) (id : ℕ) (call : Call) (manager : Manager) : System :=
  if (system.calls id).isSome ∨ system.manager.refusal.isSome then system
  else { system.set id (some call) with manager := manager }

def System.beginRun (system : System) (id : ℕ) (manager : Manager) (run : Run) : System :=
  { system.set id (some (.looping run.selected)) with
    manager := manager, runs := run :: system.runs }

/-- Changes the history of the latest run. -/
def System.record (system : System) (change : Run → Run) : System :=
  { system with runs := system.runs.modifyHead change }

def step (rand : ℕ → String) (system : System) : Action → System
  | .prepare id => system.enter id .preparing { system.manager with checking := true }
  | .prepared id answers now =>
      match system.calls id with
      | some .preparing =>
          match snapshot answers with
          | (_, _, some _) => system.set id (some .releasing)
          | (names, revision, none) =>
              { system.set id (some .releasing) with
                draws := system.draws + 1
                manager := system.manager.store
                  { token := rand system.draws, total := names.length
                    expiresAt := now + confirmationLifetime, names := names
                    revision := revision } }
      | _ => system
  | .release id =>
      match system.calls id with
      | some .releasing =>
          { system.set id none with manager := { system.manager with checking := false } }
      | _ => system
  | .start id token now =>
      if (system.calls id).isSome then system
      else
        match system.manager.admission token now with
        | .checking prepared =>
            { system.set id (some (.starting prepared)) with
              manager := { system.manager with checking := true } }
        | _ => system
  | .confirm id answers now =>
      match system.calls id with
      | some (.starting prepared) =>
          let fresh := snapshot answers
          match system.manager.confirm prepared fresh now with
          | (manager, .error _) => { system.set id none with manager := manager }
          | (manager, .ok names) =>
              system.beginRun id manager
                { id := prepared.token, confirmed := some prepared
                  fresh := (fresh.1, fresh.2.1), selected := names, sent := [], results := [] }
      | _ => system
  | .schedule id => system.enter id .scheduling { system.manager with checking := true }
  | .reserve id answers done reservation now =>
      match system.calls id with
      | some .scheduling =>
          let fresh := snapshot answers
          let drawn := { system with draws := system.draws + 1 }
          match system.manager.reserve fresh done (rand system.draws) reservation now with
          | (manager, .error _) => { drawn.set id none with manager := manager }
          | (manager, .ok selected) =>
              drawn.beginRun id manager
                { id := rand system.draws, confirmed := none, fresh := (fresh.1, fresh.2.1)
                  selected := selected, sent := [], results := [] }
      | _ => system
  | .dispatch id =>
      match system.calls id with
      | some (.looping []) => system.set id (some .stopping)
      | some (.looping (name :: names)) =>
          if system.manager.closed then
            { system.set id (some .stopping) with
              manager := system.manager.modifyJob fun job =>
                { job with reason := "server_stopped" } }
          else
            (system.set id (some (.waiting name names))).record fun run =>
              { run with sent := run.sent ++ [(name, run.fresh.2)] }
      | _ => system
  | .answer id result =>
      match system.calls id with
      | some (.waiting name names) =>
          let counted := system.manager.count name result
          ({ system.set id (some (if counted.2 then .stopping else .looping names)) with
            manager := counted.1 } : System).record fun run =>
              { run with results := run.results ++ [(name, result)] }
      | _ => system
  | .finish id now =>
      match system.calls id with
      | some .stopping =>
          { system.set id none with manager := system.manager.complete now }
      | _ => system
  | .resetSingle id name =>
      system.enter id (.resetting name) { system.manager with single := true }
  | .singleDone id =>
      match system.calls id with
      | some (.resetting _) =>
          { system.set id none with manager := { system.manager with single := false } }
      | _ => system
  | .close => { system with manager := { system.manager with closed := true } }

def initialSystem : System where
  manager :=
    { closed := false, checking := false, single := false, prepared := none, job := none
      issues := [] }
  calls := fun _ => none
  draws := 0
  runs := []

end System

end TelemtPanel.QuotaReset
