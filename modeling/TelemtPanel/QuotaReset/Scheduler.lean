import TelemtPanel.Library.Table
import TelemtPanel.QuotaReset.BulkReset
import TelemtPanel.QuotaReset.Calendar

/-!
# The quota reset scheduler

The scheduler keeps its policy and one checkpoint for each rule in a durable setting.  A
tick reserves all due checkpoints in one save, and only then lets the manager send reset
requests.  Edits may come in at any time, also while a run is under way.

Each step below is one section under the scheduler's lock, which reads the clock once,
or a step of the run between two of them.  A save can fail before or after the new
setting has been published.  A crash loses everything but the setting.
-/

namespace TelemtPanel.QuotaReset

open Library

structure GlobalSchedule where
  enabled : Bool
  timezone : String
  rule : Rule
  deriving DecidableEq

inductive Mode where
  | inherit
  | off
  | custom
  | other
  deriving DecidableEq

structure UserSchedule where
  mode : Mode
  rule : Rule
  since : ℤ
  deriving DecidableEq

structure Checkpoint where
  next : ℤ
  generation : ℕ
  deriving DecidableEq

/-- Checkpoints of the common rule and of the users' own rules. -/
structure Cursors where
  common : Option Checkpoint
  users : Table String Checkpoint

structure ScheduledRun where
  id : String
  state : String
  started : ℤ
  finished : Option ℤ
  total : ℕ
  confirmed : Option ℕ
  unknown : Option ℕ
  rejected : Option ℕ
  remaining : Option ℤ
  reason : String

/-- The saved setting; `globalSince` is a ghost, the time of the last change of the global
schedule. -/
structure ScheduleRecord where
  revision : ℕ
  global : GlobalSchedule
  users : Table String UserSchedule
  cursors : Cursors
  last : Option ScheduledRun
  globalSince : ℤ

structure Scheduler where
  record : ScheduleRecord
  loadErr : Bool
  pending : Option (ScheduledRun × Cursors)

/-- The zero time: 1 January of year 1. -/
def zeroTime : ℤ := -62135596800 * second

def zeroRule : Rule where
  kind := ""
  days := 0
  start := ""
  time := ""
  cron := ""

/-- What a missing entry of the map of users reads as. -/
def zeroUser : UserSchedule where
  mode := .other
  rule := zeroRule
  since := zeroTime

namespace ScheduleRecord

/-- The common rule, if it is enabled. -/
def commonRule (record : ScheduleRecord) : Option Rule :=
  if record.global.enabled then some record.global.rule else none

/-- A user's own rule. -/
def userRule (record : ScheduleRecord) (name : String) : Option Rule :=
  if name = "" then none
  else
    (record.users[name]?).bind fun policy =>
      if policy.mode = .custom then some policy.rule else none

def policy (record : ScheduleRecord) (name : String) : UserSchedule :=
  (record.users[name]?).getD zeroUser

end ScheduleRecord

section Edits

variable (environment : Environment)

def validate (rule : Rule) (zone : String) (now : ℤ) : Bool :=
  (rule.preview environment now zone).toBool

def nextOrZero (rule : Rule) (now : ℤ) (zone : String) : ℤ :=
  match rule.next environment now zone with
  | .ok next => next
  | .error _ => zeroTime

/-- A user's policy in a new time zone. -/
def rebaseUser (policy : UserSchedule) (now : ℤ) : UserSchedule := { policy with since := now }

/-- Whether every custom rule has a next slot in a time zone. -/
def rebasable (record : ScheduleRecord) (zone : String) (now : ℤ) : Bool :=
  record.users.toList.all fun entry =>
    decide (entry.2.mode ≠ .custom) || (entry.2.rule.next environment now zone).toBool

/-- Checkpoints of the users' own rules in a new time zone. -/
def rebaseCursors (record : ScheduleRecord) (zone : String) (now : ℤ) (generation : ℕ) :
    Table String Checkpoint :=
  record.users.toList.foldl
    (fun cursors entry =>
      if entry.2.mode = .custom then
        cursors.insert entry.1
          { next := nextOrZero environment entry.2.rule now zone, generation := generation }
      else cursors)
    record.cursors.users

/-- The record that an edit of the global schedule saves. -/
def saveGlobal (scheduler : Scheduler) (expected : String) (schedule : GlobalSchedule)
    (durable : Bool) (now : ℤ) : Option ScheduleRecord :=
  let record := scheduler.record
  if scheduler.loadErr || expected != toString record.revision || scheduler.pending.isSome then none
  else
    let global :=
      if schedule.timezone = "server" then
        { schedule with timezone := environment.serverZone }
      else schedule
    if !validate environment global.rule global.timezone now then none
    else if global.enabled && !durable then none
    else
      let moved := record.global.timezone ≠ global.timezone
      if moved ∧ !rebasable environment record global.timezone now then none
      else
        let revision := record.revision + 1
        some
          { record with
            revision := revision
            global := global
            globalSince := if global ≠ record.global then now else record.globalSince
            users :=
              if moved then record.users.map fun _ policy => rebaseUser policy now
              else record.users
            cursors :=
              { common :=
                  if global ≠ record.global then
                    if global.enabled then
                      some { next := nextOrZero environment global.rule now global.timezone
                             generation := revision }
                    else none
                  else record.cursors.common
                users :=
                  if moved then
                    rebaseCursors environment record global.timezone now revision
                  else record.cursors.users } }

/-- The record that an edit of a user's policy saves. -/
def saveUser (scheduler : Scheduler) (expected name : String) (policy : UserSchedule)
    (durable : Bool) (now : ℤ) : Option ScheduleRecord :=
  let record := scheduler.record
  let zone := record.global.timezone
  if scheduler.loadErr || expected != toString record.revision || scheduler.pending.isSome then none
  else if policy.mode = .other then none
  else if policy.mode = .custom ∧ (!durable || !validate environment policy.rule zone now) then none
  else
    let revision := record.revision + 1
    let rule := if policy.mode = .custom then policy.rule else record.global.rule
    let cleared := record.cursors.users.erase name
    some
      { record with
        revision := revision
        users := record.users.insert name { mode := policy.mode, rule := rule, since := now }
        cursors :=
          { record.cursors with
            users :=
              if policy.mode = .custom then
                cleared.insert name
                  { next := nextOrZero environment rule now zone, generation := revision }
              else cleared } }

def forgetUser (scheduler : Scheduler) (name : String) : Option ScheduleRecord :=
  let record := scheduler.record
  if scheduler.loadErr || (record.users[name]?).isNone then none
  else
    some
      { record with
        revision := record.revision + 1
        users := record.users.erase name
        cursors := { record.cursors with users := record.cursors.users.erase name } }

end Edits

section Tick

variable (environment : Environment)

/-- A claimed checkpoint after its run: slots that have elapsed meanwhile are dropped. -/
def settle (record : ScheduleRecord) (rule : Option Rule) (claim : Option Checkpoint) (now : ℤ)
    (current : Checkpoint) : Checkpoint :=
  match rule, claim with
  | some rule, some claim =>
      if current.generation = claim.generation then
        match rule.next environment now record.global.timezone with
        | .ok next => if current.next < next then { current with next := next } else current
        | .error _ => current
      else current
  | _, _ => current

/-- The record that the end of a run saves. -/
def finishRecord (record : ScheduleRecord) (run : ScheduledRun) (claims : Cursors) (now : ℤ) :
    ScheduleRecord :=
  { record with
    last := some run
    cursors :=
      { common := record.cursors.common.map
          (settle environment record record.commonRule claims.common now)
        users := record.cursors.users.map fun name current =>
          settle environment record (record.userRule name) claims.users[name]? now current } }

def Checkpoint.due (checkpoint : Checkpoint) (now : ℤ) : Bool := decide (checkpoint.next ≤ now)

/-- Some checkpoint is due. -/
def anyDue (cursors : Cursors) (now : ℤ) : Bool :=
  cursors.common.any (fun checkpoint => checkpoint.due now) ||
    cursors.users.toList.any fun entry => entry.2.due now

/-- The due checkpoints of rules that are on. -/
def dueClaims (record : ScheduleRecord) (now : ℤ) : Cursors where
  common := record.cursors.common.filter fun checkpoint =>
    checkpoint.due now && record.commonRule.isSome
  users := record.cursors.users.filter fun name checkpoint =>
    checkpoint.due now && (record.userRule name).isSome

/-- Every claimed rule has a slot after this time. -/
def advanceable (record : ScheduleRecord) (claims : Cursors) (now : ℤ) : Bool :=
  let advances (rule : Option Rule) : Bool :=
    rule.all fun rule => (rule.next environment now record.global.timezone).toBool
  (claims.common.isNone || advances record.commonRule) &&
    claims.users.toList.all fun entry => advances (record.userRule entry.1)

/-- A claimed checkpoint moves to its next slot. -/
def advance (record : ScheduleRecord) (rule : Option Rule) (claimed : Bool) (now : ℤ)
    (current : Checkpoint) : Checkpoint :=
  if claimed then
    { current with
      next := nextOrZero environment (rule.getD zeroRule) now record.global.timezone }
  else current

def advanceCursors (record : ScheduleRecord) (claims : Cursors) (now : ℤ) : Cursors where
  common := record.cursors.common.map
    (advance environment record record.commonRule claims.common.isSome now)
  users := record.cursors.users.map fun name current =>
    advance environment record (record.userRule name) (claims.users[name]?).isSome now current

/-- The first slot of a claim that a user takes part in: not one before its own edit. -/
def eligible (record : ScheduleRecord) (rule : Option Rule) (claim : Checkpoint) (since : ℤ) :
    Except String ℤ :=
  if claim.next < since then
    (rule.getD zeroRule).next environment since record.global.timezone
  else .ok claim.next

/-- Whether a claimed rule selects a user. -/
def selects (record : ScheduleRecord) (claims : Cursors) (now : ℤ) (name : String) :
    Except String Bool :=
  let policy := record.policy name
  let custom := decide (policy.mode = .custom)
  if policy.mode = .off then .ok false
  else
    match if custom then claims.users[name]? else claims.common with
    | none => .ok false
    | some claim =>
        match eligible environment record
            (if custom then record.userRule name else record.commonRule) claim policy.since with
        | .error message => .error message
        | .ok slot => .ok (decide (slot ≤ now))

def selectNames (record : ScheduleRecord) (claims : Cursors) (now : ℤ) :
    List String → Except String (List String)
  | [] => .ok []
  | name :: names =>
      match selects environment record claims now name with
      | .error message => .error message
      | .ok selected =>
          match selectNames record claims now names with
          | .error message => .error message
          | .ok rest => .ok (if selected then name :: rest else rest)

structure Reservation where
  record : ScheduleRecord
  claims : Cursors
  selected : List String

/-- Claims the due checkpoints and selects their users. -/
def reserve (record : ScheduleRecord) (names : List String) (id : String) (now : ℤ) :
    Except Failure Reservation :=
  let claims := dueClaims record now
  if !advanceable environment record claims now then .error .other
  else if claims.common.isNone && claims.users.isEmpty then .error .busy
  else
    match selectNames environment record claims now names with
    | .error _ => .error .other
    | .ok selected =>
        .ok
          { claims := claims
            selected := selected
            record :=
              { record with
                cursors := advanceCursors environment record claims now
                last := some
                  { id := id
                    state := if selected = [] then "skipped" else "running"
                    started := now, finished := none, total := selected.length
                    confirmed := none, unknown := none, rejected := none, remaining := none
                    reason := if selected = [] then "no_users" else "" } } }

end Tick

section System

/-- A reservation that has been saved; a ghost. -/
structure Dispatch where
  id : String
  time : ℤ
  users : List String
  record : ScheduleRecord

inductive TickPhase where
  | idle
  | executing
  | running (id : String) (claims : Cursors) (names : List String)

structure ResetRequest where
  id : String
  name : String
  time : ℤ

/-- The scheduler, its setting and its tick; `time`, `dispatches` and `sent` are ghosts. -/
structure ScheduleSystem where
  scheduler : Scheduler
  setting : Option ScheduleRecord
  tick : TickPhase
  time : ℤ
  dispatches : List Dispatch
  sent : List ResetRequest

/-- How a save of the setting ends. -/
inductive SaveResult where
  | ok
  | before
  | after
  deriving DecidableEq

inductive ScheduleAction where
  | saveGlobal (expected : String) (schedule : GlobalSchedule) (durable : Bool)
      (result : SaveResult)
  | saveUser (expected name : String) (policy : UserSchedule) (durable : Bool)
      (result : SaveResult)
  | forgetUser (name : String) (result : SaveResult)
  | tick (durable : Bool) (result : SaveResult)
  | reserve (answers : Answers) (id : String) (result : SaveResult)
  | abandon
  | request
  | finish (run : ScheduledRun) (result : SaveResult)
  | restart (readable : Bool)

/-- The same wall clock time on the next day. -/
def Location.tomorrow (loc : Location) (now : ℤ) : ℤ := loc.date (loc.wall now + 86400)

def defaultGlobal (environment : Environment) (now : ℤ) : GlobalSchedule where
  enabled := false
  timezone := environment.serverZone
  rule :=
    { kind := "interval"
      days := 30
      start := formatDate (environment.localZone.day (environment.localZone.tomorrow now))
      time := "00:00"
      cron := "0 0 1 * *" }

/-- The policy of a panel that has none saved. -/
def defaultRecord (environment : Environment) (now : ℤ) : ScheduleRecord where
  revision := 1
  global := defaultGlobal environment now
  users := ∅
  cursors := { common := none, users := ∅ }
  last := none
  globalSince := now

/-- The checks of a saved record. -/
def readableRecord (environment : Environment) (record : ScheduleRecord) (now : ℤ) : Bool :=
  let zone := record.global.timezone
  decide (record.revision ≠ 0) && validate environment record.global.rule zone now &&
    (record.users.toList.all fun entry =>
      decide (entry.1 ≠ "") && decide (entry.2.mode ≠ .other) &&
        (decide (entry.2.mode ≠ .custom) ||
          validate environment entry.2.rule zone now &&
            (record.cursors.users[entry.1]?).isSome)) &&
    (!record.global.enabled || record.cursors.common.isSome) &&
    (record.cursors.common.all fun checkpoint =>
      record.commonRule.isSome && decide (checkpoint.next ≠ zeroTime) &&
        decide (checkpoint.generation ≠ 0)) &&
    record.cursors.users.toList.all fun entry =>
      (record.userRule entry.1).isSome && decide (entry.2.next ≠ zeroTime) &&
        decide (entry.2.generation ≠ 0)

/-- A run that was under way when the panel stopped. -/
def interrupt (run : ScheduledRun) : ScheduledRun :=
  if run.state = "running" then { run with state := "interrupted", reason := "panel_restarted" }
  else run

/-- A rule read into another one: fields that are zero have been left out of the text, and keep
the values that are there. -/
def unmarshalRule (saved known : Rule) : Rule where
  kind := saved.kind
  days := if saved.days = 0 then known.days else saved.days
  start := if saved.start = "" then known.start else saved.start
  time := if saved.time = "" then known.time else saved.time
  cron := if saved.cron = "" then known.cron else saved.cron

/-- A saved record read into the default one; other fields than those of the common rule are
never left out, or not shared with the default. -/
def unmarshalRecord (environment : Environment) (record : ScheduleRecord) (now : ℤ) :
    ScheduleRecord :=
  { record with
    global :=
      { record.global with
        rule := unmarshalRule record.global.rule (defaultGlobal environment now).rule } }

/-- A scheduler that reads its setting. -/
def newScheduler (environment : Environment) (setting : Option ScheduleRecord)
    (readable : Bool) (now : ℤ) : Scheduler :=
  match setting with
  | none =>
      { record := defaultRecord environment now, loadErr := !readable, pending := none }
  | some saved =>
      let record := unmarshalRecord environment saved now
      { record := { record with last := record.last.map interrupt }
        loadErr := !readable || !readableRecord environment record now
        pending := none }

variable (environment : Environment)

/-- Saves a record; memory follows only a save that succeeds. -/
def ScheduleSystem.save (system : ScheduleSystem) (record : ScheduleRecord) :
    SaveResult → ScheduleSystem
  | .ok =>
      { system with
        scheduler := { system.scheduler with record := record }, setting := some record }
  | .before => system
  | .after => { system with setting := some record }

def ScheduleSystem.edit (system : ScheduleSystem) (record : Option ScheduleRecord)
    (result : SaveResult) : ScheduleSystem :=
  match record with
  | none => system
  | some record => system.save record result

/-- The end of a run, which stays pending if it cannot be saved. -/
def ScheduleSystem.finish (system : ScheduleSystem) (run : ScheduledRun) (claims : Cursors)
    (result : SaveResult) : ScheduleSystem :=
  let saved := system.save
    (finishRecord environment system.scheduler.record run claims system.time) result
  let pending := if result = .ok then none else some (run, claims)
  { saved with scheduler := { saved.scheduler with pending := pending } }

/-- The first section of a tick. -/
def ScheduleSystem.beginTick (system : ScheduleSystem) (durable : Bool) (result : SaveResult) :
    ScheduleSystem :=
  if system.scheduler.loadErr then system
  else
    let settled :=
      match system.scheduler.pending with
      | none => system
      | some (run, claims) => system.finish environment run claims result
    if settled.scheduler.pending.isSome || !durable then settled
    else if anyDue settled.scheduler.record.cursors system.time then
      { settled with tick := .executing }
    else settled

/-- The reservation of a tick. -/
def ScheduleSystem.reserveTick (system : ScheduleSystem) (names : List String) (id : String)
    (result : SaveResult) : ScheduleSystem :=
  match reserve environment system.scheduler.record names id system.time with
  | .error _ => { system with tick := .idle }
  | .ok reservation =>
      let saved := system.save reservation.record result
      if result = .ok then
        { saved with
          tick := if reservation.selected = [] then .idle
            else .running id reservation.claims reservation.selected
          dispatches := system.dispatches ++
            [{ id := id, time := system.time, users := reservation.selected
               record := system.scheduler.record }] }
      else { saved with tick := .idle }

def scheduleStep (system : ScheduleSystem) (call : ℤ × ScheduleAction) : ScheduleSystem :=
  let system := { system with time := call.1 }
  match call.2 with
  | .saveGlobal expected schedule durable result =>
      system.edit (saveGlobal environment system.scheduler expected schedule durable call.1) result
  | .saveUser expected name policy durable result =>
      system.edit (saveUser environment system.scheduler expected name policy durable call.1) result
  | .forgetUser name result => system.edit (forgetUser system.scheduler name) result
  | .tick durable result =>
      match system.tick with
      | .idle => system.beginTick environment durable result
      | _ => system
  | .reserve answers id result =>
      match system.tick with
      | .executing =>
          match snapshot answers with
          | (names, _, failure) =>
              if failure ≠ none ∧ failure ≠ some .empty then { system with tick := .idle }
              else system.reserveTick environment names id result
      | _ => system
  | .abandon =>
      match system.tick with
      | .executing => { system with tick := .idle }
      | _ => system
  | .request =>
      match system.tick with
      | .running id claims (name :: names) =>
          { system with
            tick := .running id claims names
            sent := system.sent ++ [{ id := id, name := name, time := call.1 }] }
      | _ => system
  | .finish run result =>
      match system.tick with
      | .running _ claims _ =>
          { system.finish environment run claims result with tick := .idle }
      | _ => system
  | .restart readable =>
      { system with
        scheduler := newScheduler environment system.setting readable call.1
        tick := .idle }

/-- A panel that starts without a setting. -/
def initialSchedule (now : ℤ) : ScheduleSystem where
  scheduler := newScheduler environment none true now
  setting := none
  tick := .idle
  time := now
  dispatches := []
  sent := []

end System

end TelemtPanel.QuotaReset
