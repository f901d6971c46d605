import TelemtPanel.Library.Like
import TelemtPanel.Library.Newest
import TelemtPanel.Store.UserIP.Basic

/-!
# The durable user IP history

The rows of the table `user_ip_history`, addressed by their primary key, and the
single row of `user_ip_history_collection`.  A batch first trims the users it
mentions and then the oldest rows of all.  A snapshot is read page by page from a
cursor, in two queries so that each of them is a range of the index.
-/

namespace TelemtPanel.Store

open TelemtPanel.Library

/-- The user IP part of the durable store. -/
structure SQLiteUserIPs where
  userIPHistory : UserIPTable
  collectionRow : Option UserIPCollection
  userIPEpoch : UInt64

namespace SQLiteUserIPs

def empty : SQLiteUserIPs := ⟨∅, none, 0⟩

def readUserIPCollection (db : SQLiteUserIPs) : UserIPCollection := db.collectionRow.getD .zero

/-- `DELETE FROM user_ip_history WHERE (username,ip) IN (...)` -/
def deleteRows (rows : UserIPTable) (excess : List UserIPRecord) : UserIPTable :=
  (excess.map UserIPRecord.key).foldl (·.erase ·) rows

/-- Rows of a user beyond the cap, `ORDER BY last_ts DESC,ip DESC LIMIT -1 OFFSET limit`. -/
def excessOfUser (limit : ℕ) (rows : UserIPTable) (username : String) : List UserIPRecord :=
  ((Sorter.stable UserIPRecord.userAgeDesc).sort
    (rows.rows.filter fun r => r.username = username)).drop limit

/-- One round of the loop over the users of a batch. -/
def trimUser (limit : ℕ) (state : UserIPTable × Bool) (username : String) : UserIPTable × Bool :=
  let excess := excessOfUser limit state.1 username
  (deleteRows state.1 excess, state.2 || decide (0 < excess.length))

/-- The oldest rows beyond the total cap, `ORDER BY last_ts,username,ip LIMIT count`. -/
def excessOfAll (total : ℕ) (rows : UserIPTable) : List UserIPRecord :=
  ((Sorter.stable UserIPRecord.age).sort rows.rows).take (rows.rows.length - total)

/-- `INSERT ... ON CONFLICT(username,ip) DO UPDATE` -/
def upsertRow (rows : UserIPTable) (r : UserIPRecord) : UserIPTable :=
  rows.insert r.key <| match rows[r.key]? with
    | none => r
    | some row =>
        { row with
          first := min row.first r.first
          last := max row.last r.last
          observations :=
            if row.observations > maxInt64 - r.observations then maxInt64
            else row.observations + r.observations
          lastActive := max row.lastActive r.lastActive
          source := if r.last ≥ row.last then r.source else row.source }

def pruneUserIPHistory (retention : ℤ) (db : SQLiteUserIPs) (now : ℤ) : SQLiteUserIPs :=
  { db with userIPHistory := expireUserIPs (userIPCutoff retention now) db.userIPHistory }

def applyUserIPBatch (retention : ℤ) (limit total : ℕ) (db : SQLiteUserIPs) (b : UserIPBatch) :
    Except UserIPError SQLiteUserIPs :=
  match validateUserIPBatch b with
  | .error refusal => .error refusal
  | .ok () =>
      let c := db.readUserIPCollection
      if b.id = c.batchID then .ok db
      else if b.through ≤ c.through then .error .staleBatch
      else
        let cutoff := userIPCutoff retention b.through
        -- Expire before merging so a returning address cannot revive old history.
        let merged := b.records.foldl upsertRow (expireUserIPs cutoff db.userIPHistory)
        let rows := expireUserIPs cutoff merged
        let c := nextUserIPCollection c b
        let users := if limit = 0 then [] else (b.records.map (·.username)).dedup
        let (rows, limited) := users.foldl (trimUser limit) (rows, c.limited)
        if total < rows.rows.length then
          .ok { db with
            userIPHistory := deleteRows rows (excessOfAll total rows)
            collectionRow := some { c with limited := true } }
        else .ok { db with userIPHistory := rows, collectionRow := some { c with limited := limited } }

def resetUserIPHistory (db : SQLiteUserIPs) (username : String) : SQLiteUserIPs :=
  if username ≠ "" then
    { db with
      userIPHistory := db.userIPHistory.filter fun key _ => !decide (key.username = username)
      userIPEpoch := db.userIPEpoch + 1 }
  else
    { userIPHistory := ∅
      collectionRow := db.collectionRow.map fun c =>
        { c with since := 0, limited := false, gap := false }
      userIPEpoch := db.userIPEpoch + 1 }

/-- Rows whose `row_number() OVER (PARTITION BY username ORDER BY last_ts DESC,ip DESC)` exceeds
the cap. -/
def excessOfUsers (limit : ℕ) (rows : UserIPTable) : List UserIPRecord :=
  (rows.rows.map (·.username)).dedup.flatMap (excessOfUser limit rows)

/-- `pruneUserIPPolicyTx` -/
def pruneUserIPPolicyTx (retention : ℤ) (db : SQLiteUserIPs) (now : ℤ) (limit : ℕ) :
    SQLiteUserIPs :=
  let rows := expireUserIPs (userIPCutoff retention now) db.userIPHistory
  if limit = 0 then { db with userIPHistory := rows }
  else
    let excess := excessOfUsers limit rows
    { db with
      userIPHistory := deleteRows rows excess
      collectionRow :=
        if 0 < excess.length then db.collectionRow.map fun c => { c with limited := true }
        else db.collectionRow }

/-- The part of a policy change that concerns the addresses of users. -/
def applyUserIPPolicy (retention : ℤ) (db : SQLiteUserIPs) (policy next : StoragePolicy) (now : ℤ) :
    SQLiteUserIPs :=
  if storagePoliciesEqual policy next = true then db
  else
    let pruned := pruneUserIPPolicyTx retention db now (userIPLimit next)
    { pruned with userIPEpoch := pruned.userIPEpoch + 1 }

/-- The escape character of the search pattern. -/
def likeEscape : Char := Char.ofNat 92

/-- `ip LIKE '%search%' ESCAPE` on the lower-case search text. -/
def matchesSearch (cases_ : LowerCase) (search ip : String) : Bool :=
  search = "" ||
    like likeEscape ('%' :: escapeLike likeEscape (toLower cases_ search) ++ ['%']) ip.toList

def userIPHistoryPage (retention : ℤ) (cases_ : LowerCase) (db : SQLiteUserIPs) (q : UserIPQuery) :
    Except UserIPError UserIPPage :=
  match validateUserIPQuery q with
  | .error refusal => .error refusal
  | .ok () =>
      let since := max q.fromSecs (userIPCutoff retention q.now)
      let rows := db.userIPHistory.rows.filter fun r => r.username = q.username && decide (r.last ≥ since)
      let matching := rows.filter (q.wants (matchesSearch cases_ q.search))
      let items := ((Sorter.stable UserIPRecord.pageOrder).sort (matching.filter fun r =>
        q.before = 0 || (decide (r.last < q.before) ||
          r.last = q.before && decide (r.ip > q.afterIP)))).take (q.limit + 1).toNat
      .ok
        { items := items.take q.limit.toNat
          total := rows.length
          matched := matching.length
          new := (rows.filter fun r => decide (r.first ≥ q.fromSecs)).length
          hasMore := decide (q.limit.toNat < items.length) }

/-- `SELECT username,count(*) ... GROUP BY username` -/
def userIPSummaries (retention : ℤ) (db : SQLiteUserIPs) (fromSecs now : ℤ) : Table String ℕ :=
  let since := max fromSecs (userIPCutoff retention now)
  let rows := db.userIPHistory.rows.filter fun r => decide (r.last ≥ since)
  (rows.map (·.username)).dedup.foldl (fun counts username =>
    counts.insert username (rows.filter fun r => r.username = username).length) ∅

/-- `SELECT ... ORDER BY last_ts DESC,username ASC,ip ASC LIMIT limit` -/
def selectNewest (rows : List UserIPRecord) (selects : UserIPRecord → Bool) (limit : ℕ) :
    List UserIPRecord :=
  ((Sorter.stable UserIPRecord.newness).sort (rows.filter selects)).take limit

/-- `readUserIPSnapshotPage`: the records of one page. -/
def readUserIPSnapshotPage (rows : List UserIPRecord) (fromSecs now : ℤ)
    (cursor : Option UserIPRecord) (limit : ℕ) : List UserIPRecord :=
  match cursor with
  | none =>
      selectNewest rows (fun r => decide (fromSecs ≤ r.last) && decide (r.last ≤ now)) limit
  | some cursor =>
      -- Seek directly within a timestamp tie before filling from older timestamps.
      let page := selectNewest rows (fun r => r.last = cursor.last &&
        decide (cursor.keyOrder < r.keyOrder)) limit
      if page.length < limit ∧ fromSecs < cursor.last then
        page ++ selectNewest rows (fun r => decide (fromSecs ≤ r.last) &&
          decide (r.last < cursor.last)) (limit - page.length)
      else page

def userIPSnapshotChunkRows : ℕ := 5000

/-- A snapshot during which nothing is written. -/
def readUserIPSnapshot (retention : ℤ) (total : ℕ) (db : SQLiteUserIPs) (fromSecs now : ℤ) :
    Except UserIPError UserIPReadSnapshot :=
  match validateSnapshotRange fromSecs now with
  | .error refusal => .error refusal
  | .ok () =>
      let since := max fromSecs (userIPCutoff retention now)
      let rows := db.userIPHistory.rows
      let read := readPages (readUserIPSnapshotPage rows since now) userIPSnapshotChunkRows
        (total + 1) (total + 1) []
      let truncated := decide (total < read.length)
      let c := db.readUserIPCollection
      .ok
        { records := (Sorter.stable UserIPRecord.keyOrder).sort
            (if truncated then read.take total else read)
          collection := { c with gap := c.gap || rows.any fun r => decide (r.last > now) }
          retentionSecs := retention
          durable := true
          truncated := truncated
          isPartial := false
          epoch := db.userIPEpoch }

end SQLiteUserIPs

end TelemtPanel.Store
