import TelemtPanel.Library.Run
import TelemtPanel.Library.Sorter
import TelemtPanel.Store.UserIP.Basic

/-!
# The collector of user addresses

Every periodic response about the users is summed up in memory, and what has been collected is
passed to the store in batches.  A batch that the store does not take is kept and passed again
before a new one is built.

The lists of a response are unbounded, and what is kept is not: addresses beyond a limit are left
out, and the collection is marked as limited.  The collector runs under one lock, so that its steps
do not overlap.
-/

namespace TelemtPanel.Polling

open TelemtPanel.Library Store

/-- A user as telemt reports it, where a list may be missing. -/
structure UserInfo where
  username : String
  activeIPList : Option (List String)
  recentIPList : Option (List String)
deriving DecidableEq, Repr

/-- The addresses from which a user is active. -/
structure UserIPLiveState where
  time : ℤ
  valid : Bool
  active : Table String Bool

structure UserIPCollector where
  generation : UInt64
  pending : UserIPTable
  retry : Option UserIPBatch
  live : Table String UserIPLiveState
  through : ℤ
  flushed : ℤ
  limited : Bool
  gap : Bool
  failed : Bool
  liveKnown : Bool
  livePartial : Bool
  liveTruncated : Bool
  liveInvalidUsers : ℕ

def UserIPCollector.empty : UserIPCollector :=
  ⟨0, ∅, none, ∅, 0, 0, false, false, false, false, false, false, 0⟩

/-- Some order in which a map is enumerated. -/
abbrev MapOrder (α : Type) : Type := Sorter fun _ : α => ()

section Observe

/-- The loop over the lists of one user. -/
structure UserPass where
  c : UserIPCollector
  liveCount : ℕ
  live : UserIPLiveState
  union : Table String ℕ

namespace UserPass

/-- Adds an address to those from which the user is active. -/
def observeActive (pass : UserPass) (ip : String) : UserPass :=
  let known := pass.live.active[ip]?.getD false
  if userIPMemoryLimit ≤ pass.liveCount ∧ known = false then
    { pass with
      c := { pass.c with limited := true, livePartial := true, liveTruncated := true }
      live := { pass.live with valid := false } }
  else if known = false then
    { pass with
      live := { pass.live with active := pass.live.active.insert ip true }
      liveCount := pass.liveCount + 1 }
  else pass

/-- Adds an address to those that have been observed. -/
def observeUnion (perUserLimit : ℤ) (index : ℕ) (pass : UserPass) (ip : String) : UserPass :=
  if pass.union[ip]? = none ∧ ((0 < perUserLimit ∧ perUserLimit ≤ pass.union.size) ∨
      userIPBatchLimit ≤ pass.union.size) then
    { pass with c := { pass.c with limited := true } }
  else { pass with union := pass.union.insert ip (pass.union[ip]?.getD 0 ||| 1 <<< index) }

/-- One address of the active list, whose index is zero, or of the recent one. -/
def observeAddress (perUserLimit : ℤ) (index : ℕ) (pass : UserPass) (raw : String) : UserPass :=
  match normalizeUserIP raw with
  | .error _ =>
      if index = 0 then
        { pass with
          c := { pass.c with gap := true, livePartial := true }
          live := { pass.live with valid := false } }
      else { pass with c := { pass.c with gap := true } }
  | .ok (ip, _) =>
      (if index = 0 then pass.observeActive ip else pass).observeUnion perUserLimit index ip

def observeList (perUserLimit : ℤ) (index : ℕ) (pass : UserPass) :
    Option (List String) → UserPass
  | none => { pass with c := { pass.c with gap := true } }
  | some list => list.foldl (observeAddress perUserLimit index) pass

end UserPass

/-- The active list in canonical order. -/
def canonicalActive (list : List String) : List String :=
  (Sorter.stable id).sort (list.map fun raw =>
    match normalizeUserIP raw with
    | .ok (ip, _) => ip
    | .error _ => raw)

/-- The loop over the users of a response. -/
structure ObservePass where
  c : UserIPCollector
  liveCount : ℕ
  buffered : ℕ

/-- A record of one address, seen once. -/
def observedRecord (username : String) (now : ℤ) (ip : String) (source : ℕ) : UserIPRecord :=
  { username := username
    ip := ip
    family := match normalizeUserIP ip with
      | .ok (_, family) => family
      | .error _ => 0
    first := now
    last := now
    observations := 1
    lastActive := if source &&& 1 ≠ 0 then now else 0
    source := source }

/-- Sums an observed address up. -/
def observeRecord (username : String) (now : ℤ) (pass : ObservePass) (entry : String × ℕ) :
    ObservePass :=
  let key : UserIPKey := ⟨username, entry.1⟩
  let known := pass.c.pending[key]?
  if known = none ∧ userIPBatchLimit ≤ pass.buffered then
    { pass with c := { pass.c with limited := true } }
  else
    { pass with
      c := { pass.c with
        pending := pass.c.pending.insert key
          (mergeUserIPRecord known (observedRecord username now entry.1 entry.2)) }
      buffered := if known = none then pass.buffered + 1 else pass.buffered }

/-- The lists of one user. -/
def readUser (perUserLimit now : ℤ) (pass : ObservePass) (user : UserInfo) : UserPass :=
  let start : UserPass :=
    { c := { pass.c with liveKnown := pass.c.liveKnown || user.activeIPList.isSome }
      liveCount := pass.liveCount
      live := ⟨now, user.activeIPList.isSome, ∅⟩
      union := ∅ }
  (start.observeList perUserLimit 0 (user.activeIPList.map canonicalActive)).observeList
    perUserLimit 1 user.recentIPList

/-- The live state of a user that has been read. -/
def UserPass.storeLive (pass : UserPass) (username : String) : UserIPCollector :=
  let c := if pass.live.valid = true then pass.c
    else { pass.c with livePartial := true, liveInvalidUsers := pass.c.liveInvalidUsers + 1 }
  { c with live := c.live.insert username pass.live }

def observeUser (perUserLimit now : ℤ) (order : MapOrder (String × ℕ)) (pass : ObservePass)
    (user : UserInfo) : ObservePass :=
  let read := readUser perUserLimit now pass user
  (order.sort read.union.toList).foldl (observeRecord user.username now)
    ⟨read.storeLive user.username, read.liveCount, pass.buffered⟩

/-- The loop over the users.  Beyond the limit of live users no further user is read. -/
def observeUsers (perUserLimit now : ℤ) (order : ℕ → MapOrder (String × ℕ)) :
    ℕ → ObservePass → List UserInfo → ObservePass
  | _, pass, [] => pass
  | index, pass, user :: users =>
      if user.username = "" ∨ 256 < user.username.utf8ByteSize then
        observeUsers perUserLimit now order (index + 1)
          { pass with c := { pass.c with
              gap := true
              livePartial := true
              liveInvalidUsers := pass.c.liveInvalidUsers + 1 } } users
      else if userIPMemoryLimit ≤ pass.c.live.size then
        { pass with c := { pass.c with limited := true, livePartial := true, liveTruncated := true } }
      else observeUsers perUserLimit now order (index + 1)
        (observeUser perUserLimit now (order index) pass user) users

/-- Number of addresses that wait in a batch. -/
def UserIPCollector.retryKeys (c : UserIPCollector) : ℕ :=
  match c.retry with
  | none => 0
  | some batch => (batch.records.map UserIPRecord.key).dedup.length

/-- An observation that is accepted: the live state starts anew. -/
def UserIPCollector.startObservation (c : UserIPCollector) (users : List UserInfo) (now : ℤ) :
    UserIPCollector :=
  { c with
    gap := c.gap || decide (0 < c.through ∧ 30 < now - c.through)
    through := now
    failed := false
    live := ∅
    liveKnown := users.isEmpty
    livePartial := false
    liveTruncated := false
    liveInvalidUsers := 0 }

end Observe

section Flush

/-- A batch that is passed to the store, and whether the store takes it. -/
inductive StoreCall where
  | retried (batch : UserIPBatch) (stored : Bool)
  | built (batch : UserIPBatch) (stored : Bool)

def StoreCall.batch : StoreCall → UserIPBatch
  | .retried batch _ => batch
  | .built batch _ => batch

/-- The batch, if the store takes it. -/
def StoreCall.storedBatch : StoreCall → Option UserIPBatch
  | .retried batch stored => if stored = true then some batch else none
  | .built batch stored => if stored = true then some batch else none

/-- What happens during a flush: whether the store takes the batch that waits, the random bytes of
the next identifier, whether the store takes the next batch, and the order of its records. -/
structure FlushEnv where
  retryStored : Bool
  id : Option { bytes : List UInt8 // bytes.length = 16 }
  stored : Bool
  order : MapOrder UserIPRecord

/-- What a step yields: the calls of the store, whether all went well, and the next state. -/
abbrev FlushResult : Type := List StoreCall × Bool × UserIPCollector

/-- The two hexadecimal digits of a byte. -/
def hexByte (byte : UInt8) : List Char :=
  [Nat.digitChar (byte.toNat / 16), Nat.digitChar (byte.toNat % 16)]

/-- `hex.EncodeToString` -/
def encodeHex (bytes : List UInt8) : String := String.ofList (bytes.flatMap hexByte)

/-- Passes the batch that waits. -/
def flushRetry (env : FlushEnv) (c : UserIPCollector) : FlushResult :=
  match c.retry with
  | none => ([], true, c)
  | some batch =>
      if env.retryStored = true then
        ([.retried batch true], true, { c with flushed := batch.through, retry := none })
      else ([.retried batch false], false, c)

/-- Builds the next batch and passes it. -/
def flushPending (env : FlushEnv) (c : UserIPCollector) : FlushResult :=
  if c.through ≤ c.flushed then ([], true, c)
  else match env.id with
    | none => ([], false, c)
    | some id =>
        let batch : UserIPBatch :=
          ⟨encodeHex id, c.through, env.order.sort c.pending.rows, c.limited, c.gap⟩
        if env.stored = true then
          ([.built batch true], true,
            { c with pending := ∅, retry := none, flushed := batch.through })
        else ([.built batch false], false, { c with pending := ∅, retry := some batch })

/-- `flushUserIPsLockedContext` -/
def flushUserIPs (env : FlushEnv) (c : UserIPCollector) : FlushResult :=
  let retried := flushRetry env c
  if retried.2.1 = true then
    let pending := flushPending env retried.2.2
    (retried.1 ++ pending.1, pending.2)
  else retried

end Flush

section Steps

/-- What an observation finds: the clock, the state of the stored collection unless it cannot be
read, the policy of the store, and the orders of its maps. -/
structure ObserveEnv where
  now : ℤ
  previous : Option ℤ
  perUserLimit : ℤ
  durable : Bool
  order : ℕ → MapOrder (String × ℕ)
  flush : FlushEnv

inductive CollectorEvent where
  | observe (users : List UserInfo) (generation : UInt64) (env : ObserveEnv)
  | pollFailed (now : ℤ) (env : FlushEnv)
  | flush (env : FlushEnv)
  | reset (username : String) (env : FlushEnv) (done : Bool)

/-- What the first observation learns of the stored collection; an observation that does not count
yields the collector as it is left. -/
def UserIPCollector.consult (c : UserIPCollector) (env : ObserveEnv) :
    Except UserIPCollector UserIPCollector :=
  if c.through = 0 then
    match env.previous with
    | none => .error { c with gap := true }
    | some previous =>
        if env.now ≤ previous then .error c
        else .ok { c with gap := c.gap || decide (0 < previous) }
  else .ok c

/-- The collector after the users of an accepted observation have been read. -/
def UserIPCollector.readUsers (c : UserIPCollector) (users : List UserInfo) (env : ObserveEnv) :
    UserIPCollector :=
  (observeUsers env.perUserLimit env.now env.order 0
    ⟨c.startObservation users env.now, 0, c.pending.size + c.retryKeys⟩
    ((Sorter.stable UserInfo.username).sort users)).c

/-- `observeUserIPs` -/
def observeUserIPs (users : List UserInfo) (generation : UInt64) (env : ObserveEnv)
    (c : UserIPCollector) : List StoreCall × UserIPCollector :=
  if generation ≠ c.generation then ([], c)
  else if env.now ≤ c.through then ([], c)
  else match c.consult env with
    | .error c => ([], c)
    | .ok c =>
        let read := c.readUsers users env
        if env.durable = false ∨ read.flushed = 0 ∨ 60 ≤ env.now - read.flushed then
          let flushed := flushUserIPs env.flush read
          (flushed.1, flushed.2.2)
        else ([], read)

/-- The part of `pollPeriodic` that follows a poll that failed. -/
def pollFailed (now : ℤ) (env : FlushEnv) (c : UserIPCollector) :
    List StoreCall × UserIPCollector :=
  let c := { c with failed := true, gap := true }
  if 60 ≤ now - c.flushed then
    let flushed := flushUserIPs env c
    (flushed.1, flushed.2.2)
  else ([], c)

/-- `ResetUserIPHistoryContext`; `done` says whether the store resets its history. -/
def resetUserIPHistory (username : String) (env : FlushEnv) (done : Bool) (c : UserIPCollector) :
    List StoreCall × UserIPCollector :=
  let flushed := flushUserIPs env c
  let c := flushed.2.2
  if flushed.2.1 = false ∨ done = false then (flushed.1, c)
  else if username = "" then
    (flushed.1, { c with
      generation := c.generation + 1
      live := ∅
      liveKnown := false
      livePartial := false
      liveTruncated := false
      liveInvalidUsers := 0
      limited := false
      gap := false })
  else
    (flushed.1, { c with
      generation := c.generation + 1
      live := c.live.erase username
      livePartial := true })

def UserIPCollector.step (c : UserIPCollector) : CollectorEvent → List StoreCall × UserIPCollector
  | .observe users generation env => observeUserIPs users generation env c
  | .pollFailed now env => pollFailed now env c
  | .flush env => ((flushUserIPs env c).1, (flushUserIPs env c).2.2)
  | .reset username env done => resetUserIPHistory username env done c

/-- The state after a run. -/
def UserIPCollector.run (c : UserIPCollector) (events : List CollectorEvent) : UserIPCollector :=
  after (fun c event => (c.step event).2) c events

/-- The calls of the store during a run, in order. -/
def UserIPCollector.calls (c : UserIPCollector) (events : List CollectorEvent) : List StoreCall :=
  (outputs UserIPCollector.step c events).flatten

end Steps

end TelemtPanel.Polling
