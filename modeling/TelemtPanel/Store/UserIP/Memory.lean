import TelemtPanel.Library.Newest
import TelemtPanel.Store.UserIP.Basic

/-!
# The process-local user IP history

One pass over the records, newest first, enforces the per-user cap and the
total cap together.  A snapshot keeps the newest records in a bounded heap.
-/

namespace TelemtPanel.Store

open TelemtPanel.Library

/-- The user IP part of the process-local store. -/
structure MemoryUserIPs where
  userIPs : UserIPTable
  userIPCollection : UserIPCollection
  userIPEpoch : UInt64

namespace MemoryUserIPs

def empty : MemoryUserIPs := ⟨∅, .zero, 0⟩

/-- State of the pass of `pruneUserIPsLocked`. -/
structure Pruning where
  userIPs : UserIPTable
  limited : Bool
  counts : String → ℕ
  kept : ℕ

def pruneRecord (limit total : ℕ) (pass : Pruning) (r : UserIPRecord) : Pruning :=
  if (0 < limit ∧ limit ≤ pass.counts r.username) ∨ total ≤ pass.kept then
    { pass with userIPs := pass.userIPs.erase r.key, limited := true }
  else
    { pass with
      counts := Function.update pass.counts r.username (pass.counts r.username + 1)
      kept := pass.kept + 1 }

/-- `pruneUserIPsLocked` -/
def pruneUserIPs (retention : ℤ) (limit total : ℕ) (memory : MemoryUserIPs) (now : ℤ) :
    MemoryUserIPs :=
  let userIPs := expireUserIPs (userIPCutoff retention now) memory.userIPs
  let rows := (Sorter.stable UserIPRecord.ageDesc).sort userIPs.rows
  let pass := rows.foldl (pruneRecord limit total)
    ⟨userIPs, memory.userIPCollection.limited, fun _ => 0, 0⟩
  { memory with
    userIPs := pass.userIPs
    userIPCollection := { memory.userIPCollection with limited := pass.limited } }

def pruneUserIPHistory (retention : ℤ) (memory : MemoryUserIPs) (now : ℤ) : MemoryUserIPs :=
  { memory with userIPs := expireUserIPs (userIPCutoff retention now) memory.userIPs }

/-- Merges the records of a batch one after the other. -/
def mergeRecords (userIPs : UserIPTable) (records : List UserIPRecord) : UserIPTable :=
  records.foldl (fun userIPs r => userIPs.insert r.key (mergeUserIPRecord userIPs[r.key]? r))
    userIPs

def applyUserIPBatch (retention : ℤ) (limit total : ℕ) (memory : MemoryUserIPs)
    (b : UserIPBatch) : Except UserIPError MemoryUserIPs :=
  match validateUserIPBatch b with
  | .error refusal => .error refusal
  | .ok () =>
      if b.id = memory.userIPCollection.batchID then .ok memory
      else if b.through ≤ memory.userIPCollection.through then .error .staleBatch
      else
        let userIPs := expireUserIPs (userIPCutoff retention b.through) memory.userIPs
        let memory :=
          { memory with
            userIPs := mergeRecords userIPs b.records
            userIPCollection := nextUserIPCollection memory.userIPCollection b }
        .ok (memory.pruneUserIPs retention limit total b.through)

def resetUserIPHistory (memory : MemoryUserIPs) (username : String) : MemoryUserIPs :=
  { userIPEpoch := memory.userIPEpoch + 1
    userIPs := memory.userIPs.filter fun key _ => !(username = "" || key.username = username)
    userIPCollection :=
      if username = "" then
        { memory.userIPCollection with since := 0, limited := false, gap := false }
      else memory.userIPCollection }

/-- The part of a policy change that concerns the addresses of users. -/
def applyUserIPPolicy (retention : ℤ) (total : ℕ) (memory : MemoryUserIPs)
    (policy next : StoragePolicy) (now : ℤ) : MemoryUserIPs :=
  if storagePoliciesEqual policy next = true then memory
  else
    let pruned := memory.pruneUserIPs retention (userIPLimit next) total now
    { pruned with userIPEpoch := pruned.userIPEpoch + 1 }

/-- `strings.Contains` on the lower-case search text. -/
def contains (cases_ : LowerCase) (search ip : String) : Bool :=
  decide (toLower cases_ search <:+: ip.toList)

def userIPHistory (retention : ℤ) (cases_ : LowerCase) (memory : MemoryUserIPs) (q : UserIPQuery) :
    Except UserIPError UserIPPage :=
  match validateUserIPQuery q with
  | .error refusal => .error refusal
  | .ok () =>
      let since := max q.fromSecs (userIPCutoff retention q.now)
      let rows := memory.userIPs.rows.filter fun r =>
        !(r.username ≠ q.username || decide (r.last < since))
      let matching := rows.filter (q.wants (contains cases_ q.search))
      let items := (Sorter.stable UserIPRecord.pageOrder).sort (matching.filter fun r =>
        !(q.before ≠ 0 && (decide (r.last > q.before) ||
          r.last = q.before && decide (r.ip ≤ q.afterIP))))
      .ok
        { items := items.take q.limit.toNat
          total := rows.length
          matched := matching.length
          new := (rows.filter fun r => decide (r.first ≥ q.fromSecs)).length
          hasMore := decide (q.limit.toNat < items.length) }

def userIPSummaries (retention : ℤ) (memory : MemoryUserIPs) (fromSecs now : ℤ) :
    Table String ℕ :=
  let since := max fromSecs (userIPCutoff retention now)
  memory.userIPs.rows.foldl (fun counts r =>
    if r.last ≥ since then counts.alter r.username fun count => some (count.getD 0 + 1)
    else counts) ∅

def readUserIPSnapshot (retention : ℤ) (total : ℕ) (memory : MemoryUserIPs) (fromSecs now : ℤ) :
    Except UserIPError UserIPReadSnapshot :=
  match validateSnapshotRange fromSecs now with
  | .error refusal => .error refusal
  | .ok () =>
      let since := max fromSecs (userIPCutoff retention now)
      let rows := memory.userIPs.rows.filter fun r =>
        !decide (r.last > now) && !decide (r.last < since)
      let heap := rows.foldl (pushBounded UserIPRecord.newness (total + 1)) []
      let truncated := decide (total < heap.length)
      let records := if truncated then heap.tail else heap
      .ok
        { records := (Sorter.stable UserIPRecord.keyOrder).sort records
          collection :=
            { memory.userIPCollection with
              gap := memory.userIPCollection.gap ||
                memory.userIPs.rows.any fun r => decide (r.last > now) }
          retentionSecs := retention
          durable := false
          truncated := truncated
          isPartial := false
          epoch := memory.userIPEpoch }

end MemoryUserIPs

end TelemtPanel.Store
