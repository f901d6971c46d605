import TelemtPanel.Library.Loop
import TelemtPanel.Store.UserIP.Answers

/-!
# Paged snapshots among writers

A snapshot of the durable history is read in several transactions, between which
ordinary writers may commit.  The reader compares a writer count and a revision
around every page and marks the snapshot as partial when they moved.  A writer
raises the count, commits, raises the revision and lowers the count again, so that
a commit between two pages cannot pass both comparisons.

Resets, imports and policy changes take the lock that a reader shares with the
writers, and therefore do not occur during a snapshot.
-/

namespace TelemtPanel.Store

open TelemtPanel.Library

/-- An ordinary write of the history. -/
inductive UserIPWrite where
  | applyUserIPBatch (batch : UserIPBatch)
  | pruneUserIPHistory (now : ℤ)

namespace UserIPWrite

/-- What the transaction of a write commits; a refused batch is rolled back. -/
def run (retention : ℤ) (limit total : ℕ) (db : SQLiteUserIPs) : UserIPWrite → Option SQLiteUserIPs
  | .applyUserIPBatch batch => (db.applyUserIPBatch retention limit total batch).toOption
  | .pruneUserIPHistory now => some (db.pruneUserIPHistory retention now)

end UserIPWrite

/-- Place of a writer in `withUserIPWriteTxContext`. -/
inductive WriterPhase where
  | counted (write : UserIPWrite)
  | committed
  | leaving

/-- The three places of `markPartial`. -/
inductive PartialMark where
  | beforePage
  | afterPage
  | last
deriving DecidableEq

/-- Place of the reader in `ReadUserIPSnapshot`; every place is one access to shared data. -/
inductive ReaderPhase where
  | loadRevision
  | loadWriters (mark : PartialMark)
  | compareRevision (mark : PartialMark)
  | readPage
  | returned
deriving DecidableEq

/-- Local variables of the reader. -/
structure UserIPReader where
  phase : ReaderPhase
  revision : ℕ
  isPartial : Bool
  records : List UserIPRecord
  collection : UserIPCollection
  /-- The last page was not full, or more records than the cap were read. -/
  complete : Bool

/-- The database, the writers and one reader.  `history` lists the earlier committed states. -/
structure UserIPWorld where
  history : List SQLiteUserIPs
  db : SQLiteUserIPs
  writers : List WriterPhase
  userIPWriters : ℕ
  userIPRevision : ℕ
  reader : UserIPReader

/-- What may happen next: a writer arrives, a writer takes its next step, a transaction fails, or
the reader takes its next step. -/
inductive UserIPAction where
  | arrive (write : UserIPWrite)
  | write (writer : ℕ)
  | fail (writer : ℕ)
  | read

/-- The request and the bounds of a snapshot. -/
structure UserIPSnapshotRequest where
  retention : ℤ
  limit : ℕ
  total : ℕ
  fromSecs : ℤ
  now : ℤ

namespace UserIPSnapshotRequest

variable (request : UserIPSnapshotRequest)

def since : ℤ := max request.fromSecs (userIPCutoff request.retention request.now)

/-- Collection metadata of a state, with the gap that records of the future stand for. -/
def collectionOf (db : SQLiteUserIPs) : UserIPCollection :=
  { db.readUserIPCollection with
    gap := db.readUserIPCollection.gap ||
      db.userIPHistory.rows.any fun r => decide (r.last > request.now) }

/-- The records of a state in the range of the request, newest first. -/
def newestOf (db : SQLiteUserIPs) : List UserIPRecord :=
  SQLiteUserIPs.newestInRange db.userIPHistory.rows request.since request.now

end UserIPSnapshotRequest

namespace UserIPWorld

variable (request : UserIPSnapshotRequest)

/-- Where the reader goes after a comparison. -/
def afterMark (reader : UserIPReader) : PartialMark → ReaderPhase
  | .beforePage => .readPage
  | .afterPage => .loadWriters (if reader.complete then .last else .beforePage)
  | .last => .returned

/-- One transaction of the reader. -/
def readPage (reader : UserIPReader) (db : SQLiteUserIPs) : UserIPReader :=
  let limit := min SQLiteUserIPs.userIPSnapshotChunkRows (request.total + 1 - reader.records.length)
  let page := SQLiteUserIPs.readUserIPSnapshotPage db.userIPHistory.rows request.since request.now
    reader.records.getLast? limit
  { reader with
    phase := .loadWriters .afterPage
    records := reader.records ++ page
    collection :=
      match reader.records with
      | [] => request.collectionOf db
      | _ :: _ => reader.collection
    complete := page.length < limit || decide (request.total < (reader.records ++ page).length) }

def stepReader (world : UserIPWorld) : UserIPReader :=
  let reader := world.reader
  match reader.phase with
  | .loadRevision =>
      { reader with phase := .loadWriters .beforePage, revision := world.userIPRevision }
  | .loadWriters mark =>
      if reader.isPartial then { reader with phase := afterMark reader mark }
      else if world.userIPWriters ≠ 0 then
        { reader with phase := afterMark reader mark, isPartial := true }
      else { reader with phase := .compareRevision mark }
  | .compareRevision mark =>
      { reader with
        phase := afterMark reader mark
        isPartial := reader.isPartial || decide (world.userIPRevision ≠ reader.revision) }
  | .readPage => readPage request reader world.db
  | .returned => reader

/-- The next step of a writer. -/
def stepWriter (world : UserIPWorld) (writer : ℕ) : UserIPWorld :=
  match world.writers[writer]? with
  | none => world
  | some (.counted write) =>
      match write.run request.retention request.limit request.total world.db with
      | none => { world with writers := world.writers.set writer .leaving }
      | some db =>
          { world with
            history := world.history ++ [world.db]
            db := db
            writers := world.writers.set writer .committed }
  | some .committed =>
      { world with
        writers := world.writers.set writer .leaving
        userIPRevision := world.userIPRevision + 1 }
  | some .leaving =>
      { world with
        writers := world.writers.eraseIdx writer
        userIPWriters := world.userIPWriters - 1 }

def step (world : UserIPWorld) : UserIPAction → UserIPWorld
  | .arrive write =>
      { world with
        writers := world.writers ++ [.counted write]
        userIPWriters := world.userIPWriters + 1 }
  | .write writer => stepWriter request world writer
  | .fail writer =>
      match world.writers[writer]? with
      | some (.counted _) => { world with writers := world.writers.set writer .leaving }
      | _ => world
  | .read => { world with reader := stepReader request world }

/-- A reader that has not begun and a database without writers. -/
def start (db : SQLiteUserIPs) : UserIPWorld where
  history := []
  db := db
  writers := []
  userIPWriters := 0
  userIPRevision := 0
  reader := ⟨.loadRevision, 0, false, [], .zero, false⟩

/-- The snapshot that the reader returns. -/
def snapshot (reader : UserIPReader) (epoch : UInt64) : UserIPReadSnapshot :=
  let truncated := decide (request.total < reader.records.length)
  { records := (Sorter.stable UserIPRecord.keyOrder).sort
      (if truncated then reader.records.take request.total else reader.records)
    collection := reader.collection
    retentionSecs := request.retention
    durable := true
    truncated := truncated
    isPartial := reader.isPartial
    epoch := epoch }

/-- The committed states, oldest first. -/
def states (world : UserIPWorld) : List SQLiteUserIPs := world.history ++ [world.db]

/-- One for a writer whose commit the revision does not show yet. -/
def unshownOf : WriterPhase → ℕ
  | .counted _ => 0
  | .committed => 1
  | .leaving => 0

/-- Commits that the revision does not show yet. -/
def unshown (world : UserIPWorld) : ℕ := (world.writers.map unshownOf).sum

/-- What has been read comes from one state. -/
structure ReadFrom (reader : UserIPReader) (db : SQLiteUserIPs) : Prop where
  records : reader.records = (request.newestOf db).take reader.records.length
  inside : reader.records.length ≤ (request.newestOf db).length
  collection : reader.collection = request.collectionOf db
  complete : reader.complete = true →
    reader.records = (request.newestOf db).take (request.total + 1)
  unfinished : reader.complete = false → reader.records.length ≤ request.total

/-- Everything read so far comes from the state that was current when as many writers had
committed as the loaded revision tells. -/
def ReadFromLoaded (world : UserIPWorld) : Prop :=
  (world.reader.records = [] ∧ world.reader.complete = false) ∨
    ∃ db, world.states[world.reader.revision]? = some db ∧ ReadFrom request world.reader db

/-- The last page was read when `version` writers had committed.  If the revision was loaded
after all of these commits, everything comes from one state. -/
structure LastPage (world : UserIPWorld) (version : ℕ) : Prop where
  lower : world.reader.revision ≤ version
  upper : version ≤ world.history.length
  same : version = world.reader.revision → ∃ db, world.states[version]? = some db ∧
    ReadFrom request world.reader db

/-- What holds of the local variables of the reader at each place, unless the snapshot is marked
as partial already. -/
def ReaderSound (world : UserIPWorld) : Prop :=
  match world.reader.phase with
  | .loadRevision => world.reader.records = [] ∧ world.reader.complete = false
  | .loadWriters .afterPage => ∃ version, LastPage request world version
  | .compareRevision .afterPage =>
      ∃ version, LastPage request world version ∧ version ≤ world.userIPRevision
  | .loadWriters .last | .compareRevision .last | .returned =>
      ReadFromLoaded request world ∧ world.reader.complete = true
  | .loadWriters .beforePage | .compareRevision .beforePage | .readPage =>
      ReadFromLoaded request world ∧ world.reader.complete = false

structure Coherent (world : UserIPWorld) : Prop where
  keyed : ∀ db ∈ world.states, UserIPTable.HoldsKeys db.userIPHistory
  count : world.userIPWriters = world.writers.length
  version : world.userIPRevision + world.unshown = world.history.length
  loaded : world.reader.phase ≠ .loadRevision →
    world.reader.revision ≤ world.userIPRevision
  reader : world.reader.isPartial = false → ReaderSound request world

variable {request}

theorem getElem?_states (world : UserIPWorld) :
    world.states[world.history.length]? = some world.db := by
  simp [states]

/-- Later states do not disturb what the reader knows. -/
theorem ReaderSound.mono {world next : UserIPWorld} (sound : ReaderSound request world)
    (sameReader : next.reader = world.reader) (grown : world.states <+: next.states)
    (raised : world.userIPRevision ≤ next.userIPRevision) : ReaderSound request next := by
  have keeps : ∀ {version : ℕ} {db : SQLiteUserIPs}, world.states[version]? = some db →
      next.states[version]? = some db := by
    intro version db found
    rcases grown with ⟨more, isNext⟩
    rw [← isNext, List.getElem?_append_left (List.getElem?_eq_some_iff.mp found).1, found]
  have length : world.history.length ≤ next.history.length := by
    have lengths := grown.length_le
    simp only [states, List.length_append, List.length_singleton] at lengths
    omega
  have loaded : ReadFromLoaded request world → ReadFromLoaded request next := by
    rintro (nothing | ⟨db, found, readFrom⟩)
    · exact .inl (by rwa [sameReader])
    · exact .inr ⟨db, by rw [sameReader]; exact keeps found, by rwa [sameReader]⟩
  have lastPage : ∀ {version}, LastPage request world version → LastPage request next version := by
    rintro version ⟨lower, upper, same⟩
    refine ⟨by rwa [sameReader], upper.trans length, fun isLoaded => ?_⟩
    rw [sameReader] at isLoaded ⊢
    rcases same isLoaded with ⟨db, found, readFrom⟩
    exact ⟨db, keeps found, readFrom⟩
  unfold ReaderSound at sound ⊢
  rw [sameReader]
  split at sound
  · exact sound
  · rcases sound with ⟨version, page⟩
    exact ⟨version, lastPage page⟩
  · rcases sound with ⟨version, page, shown⟩
    exact ⟨version, lastPage page, shown.trans raised⟩
  all_goals exact ⟨loaded sound.1, sound.2⟩

/-- A page read from the state from which everything before was read. -/
theorem readFrom_readPage {reader : UserIPReader} {db : SQLiteUserIPs}
    (keyed : UserIPTable.HoldsKeys db.userIPHistory)
    (before : reader.records = [] ∨ ReadFrom request reader db)
    (room : reader.records.length ≤ request.total) :
    ReadFrom request (readPage request reader db) db := by
  have distinct : (db.userIPHistory.rows.map UserIPRecord.newness).Nodup :=
    UserIPRecord.nodup_map_of_key UserIPRecord.key_of_newness keyed.nodup_map_rows
  set sorted := request.newestOf db with sortedEq
  set count := reader.records.length with countEq
  set limit := min SQLiteUserIPs.userIPSnapshotChunkRows (request.total + 1 - count) with limitEq
  have isPrefix : reader.records = sorted.take count ∧ count ≤ sorted.length := by
    rcases before with nothing | readFrom
    · rw [countEq, nothing]
      simp
    · exact ⟨readFrom.records, readFrom.inside⟩
  have page : SQLiteUserIPs.readUserIPSnapshotPage db.userIPHistory.rows request.since request.now
      reader.records.getLast? limit = (sorted.drop count).take limit := by
    rw [isPrefix.1]
    cases cursor : (sorted.take count).getLast? with
    | none =>
        have length := congrArg List.length (List.getLast?_eq_none_iff.mp cursor)
        rw [List.length_take_of_le isPrefix.2, List.length_nil] at length
        rw [SQLiteUserIPs.readUserIPSnapshotPage_none, length, List.drop_zero]
        rfl
    | some r => exact SQLiteUserIPs.readUserIPSnapshotPage_some distinct cursor limit
  have records : (readPage request reader db).records = sorted.take (count + limit) := by
    change reader.records ++ SQLiteUserIPs.readUserIPSnapshotPage _ _ _ _ limit = _
    rw [page]
    conv_lhs => rw [isPrefix.1]
    exact List.take_add.symm
  have complete : (readPage request reader db).complete = true ↔
      ((sorted.drop count).take limit).length < limit ∨
        request.total < (sorted.take (count + limit)).length := by
    rw [← records, ← page]
    simp [readPage, limitEq, countEq]
  have chunk : 0 < SQLiteUserIPs.userIPSnapshotChunkRows := by decide
  refine ⟨?_, ?_, ?_, fun done => ?_, fun goesOn => ?_⟩
  · rw [records, List.length_take, ← sortedEq]
    rcases Nat.le_total (count + limit) sorted.length with inside | short
    · rw [min_eq_left inside]
    · rw [min_eq_right short, List.take_of_length_le short, List.take_length]
  · rw [records, List.length_take]
    exact min_le_right _ _
  · rcases before with nothing | readFrom
    · simp [readPage, nothing]
    · unfold readPage
      cases reader.records with
      | nil => rfl
      | cons r records => exact readFrom.collection
  · rw [records, ← sortedEq]
    rcases complete.mp done with short | full
    · rw [List.length_take, List.length_drop] at short
      rw [List.take_of_length_le (by omega), List.take_of_length_le (by omega)]
    · rw [List.length_take] at full
      have last : count + limit = request.total + 1 := by omega
      rw [last]
  · have open_ := mt complete.mpr (by simp [goesOn])
    rw [records]
    omega

section Reader

variable {world : UserIPWorld}

/-- The reader at another place. -/
def move (world : UserIPWorld) (phase : ReaderPhase) (isPartial : Bool) : UserIPWorld :=
  { world with reader := { world.reader with phase := phase, isPartial := isPartial } }

theorem ReadFrom.move {reader : UserIPReader} {db : SQLiteUserIPs}
    (readFrom : ReadFrom request reader db) (phase : ReaderPhase) (isPartial : Bool) :
    ReadFrom request { reader with phase := phase, isPartial := isPartial } db :=
  ⟨readFrom.records, readFrom.inside, readFrom.collection, readFrom.complete, readFrom.unfinished⟩

theorem ReadFromLoaded.move (loaded : ReadFromLoaded request world) (phase : ReaderPhase)
    (isPartial : Bool) : ReadFromLoaded request (world.move phase isPartial) := by
  rcases loaded with nothing | ⟨db, found, readFrom⟩
  · exact .inl nothing
  · exact .inr ⟨db, found, readFrom.move phase isPartial⟩

theorem LastPage.move {version : ℕ} (page : LastPage request world version) (phase : ReaderPhase)
    (isPartial : Bool) : LastPage request (world.move phase isPartial) version := by
  refine ⟨page.lower, page.upper, fun isLoaded => ?_⟩
  rcases page.same isLoaded with ⟨db, found, readFrom⟩
  exact ⟨db, found, readFrom.move phase isPartial⟩

theorem unshown_eq_zero (none_ : world.writers = []) : world.unshown = 0 := by
  rw [unshown, none_]
  rfl

/-- A comparison that finds the loaded revision shows that everything comes from one state. -/
theorem readFromLoaded_of_lastPage {version : ℕ} (page : LastPage request world version)
    (shown : version ≤ world.reader.revision) : ReadFromLoaded request world := by
  have isLoaded : version = world.reader.revision := le_antisymm shown page.lower
  rcases page.same isLoaded with ⟨db, found, readFrom⟩
  rw [isLoaded] at found
  exact .inr ⟨db, found, readFrom⟩

/-- A page keeps what is known about the pages before. -/
theorem lastPage_readPage (coherent : Coherent request world)
    (place : world.reader.phase = .readPage) (loaded : ReadFromLoaded request world)
    (unfinished : world.reader.complete = false) :
    LastPage request { world with reader := readPage request world.reader world.db }
      world.history.length := by
  have shown := coherent.version
  have lower := coherent.loaded (by simp [place])
  refine ⟨?_, le_refl _, fun isLoaded => ⟨world.db, getElem?_states world, ?_⟩⟩
  · change world.reader.revision ≤ world.history.length
    omega
  · change world.history.length = world.reader.revision at isLoaded
    apply readFrom_readPage (coherent.keyed world.db (by simp [states]))
    · rcases loaded with nothing | ⟨db, found, readFrom⟩
      · exact .inl nothing.1
      · rw [← isLoaded, getElem?_states] at found
        cases found
        exact .inr readFrom
    · rcases loaded with nothing | ⟨db, -, readFrom⟩
      · simp [nothing.1]
      · exact readFrom.unfinished unfinished

/-- What the reader does next keeps its local variables sound. -/
theorem readerSound_stepReader (coherent : Coherent request world)
    (unmarked : (stepReader request world).isPartial = false) :
    ReaderSound request { world with reader := stepReader request world } := by
  cases place : world.reader.phase with
  | loadRevision =>
      have stepped : stepReader request world = { world.reader with
          phase := .loadWriters .beforePage, revision := world.userIPRevision } := by
        simp only [stepReader, place]
      rw [stepped] at unmarked ⊢
      have sound := coherent.reader unmarked
      rw [ReaderSound, place] at sound
      exact ⟨.inl sound, sound.2⟩
  | loadWriters mark =>
      by_cases marked : world.reader.isPartial = true
      · rw [stepReader, place] at unmarked
        simp [marked] at unmarked
      · rw [Bool.not_eq_true] at marked
        have sound := coherent.reader marked
        by_cases busy : world.userIPWriters ≠ 0
        · rw [stepReader, place] at unmarked
          simp [marked, busy] at unmarked
        · have stepped : { world with reader := stepReader request world } =
              world.move (.compareRevision mark) false := by
            simp only [stepReader, place, marked, Bool.false_eq_true, ↓reduceIte, busy, move]
          have noWriters : world.writers = [] := by
            rw [coherent.count] at busy
            simpa using busy
          rw [stepped]
          rw [ReaderSound, place] at sound
          cases mark with
          | beforePage => exact ⟨sound.1.move _ _, sound.2⟩
          | afterPage =>
              rcases sound with ⟨version, page⟩
              refine ⟨version, page.move _ _, ?_⟩
              have shown := coherent.version
              rw [unshown_eq_zero noWriters, Nat.add_zero] at shown
              exact page.upper.trans shown.ge
          | last => exact ⟨sound.1.move _ _, sound.2⟩
  | compareRevision mark =>
      have stepped : { world with reader := stepReader request world } = world.move
          (afterMark world.reader mark)
          (world.reader.isPartial || decide (world.userIPRevision ≠ world.reader.revision)) := by
        simp only [stepReader, place, move]
      rw [stepReader, place] at unmarked
      rcases Bool.or_eq_false_iff.mp unmarked with ⟨marked, sameRevision⟩
      have sound := coherent.reader marked
      have isLoaded : world.userIPRevision = world.reader.revision := by simpa using sameRevision
      rw [stepped]
      rw [ReaderSound, place] at sound
      cases mark with
      | beforePage => exact ⟨sound.1.move _ _, sound.2⟩
      | afterPage =>
          rcases sound with ⟨version, page, shown⟩
          have everything := readFromLoaded_of_lastPage page (isLoaded ▸ shown)
          cases complete : world.reader.complete with
          | true =>
              have next : afterMark world.reader .afterPage = .loadWriters .last := by
                rw [afterMark, complete]
                rfl
              rw [next]
              exact ⟨everything.move _ _, complete⟩
          | false =>
              have next : afterMark world.reader .afterPage = .loadWriters .beforePage := by
                rw [afterMark, complete]
                rfl
              rw [next]
              exact ⟨everything.move _ _, complete⟩
      | last => exact ⟨sound.1.move _ _, sound.2⟩
  | readPage =>
      have stepped : stepReader request world = readPage request world.reader world.db := by
        simp only [stepReader, place]
      rw [stepped] at unmarked ⊢
      have sound := coherent.reader unmarked
      rw [ReaderSound, place] at sound
      exact ⟨_, lastPage_readPage coherent place sound.1 sound.2⟩
  | returned =>
      have stepped : { world with reader := stepReader request world } = world := by
        simp only [stepReader, place]
      rw [stepped]
      have unchanged : stepReader request world = world.reader := by
        simp only [stepReader, place]
      rw [unchanged] at unmarked
      exact coherent.reader unmarked

/-- The reader never holds a revision that is ahead. -/
theorem revision_stepReader (coherent : Coherent request world) :
    (stepReader request world).revision ≤ world.userIPRevision := by
  cases place : world.reader.phase with
  | loadRevision => simp only [stepReader, place, le_refl]
  | loadWriters mark =>
      have loaded := coherent.loaded (by simp [place])
      simp only [stepReader, place]
      split
      · exact loaded
      · split <;> exact loaded
  | compareRevision mark =>
      simp only [stepReader, place]
      exact coherent.loaded (by simp [place])
  | readPage =>
      simp only [stepReader, place]
      exact coherent.loaded (by simp [place])
  | returned =>
      simp only [stepReader, place]
      exact coherent.loaded (by simp [place])

theorem Coherent.read (coherent : Coherent request world) :
    Coherent request (step request world .read) :=
  ⟨coherent.keyed, coherent.count, coherent.version, fun _ => revision_stepReader coherent,
    readerSound_stepReader coherent⟩

end Reader

section Writers

variable {world : UserIPWorld}

theorem holdsKeys_upsertRow {rows : UserIPTable} (keyed : UserIPTable.HoldsKeys rows)
    (r : UserIPRecord) : UserIPTable.HoldsKeys (SQLiteUserIPs.upsertRow rows r) := by
  unfold SQLiteUserIPs.upsertRow
  apply Table.Keyed.insert keyed
  cases found : rows[r.key]? with
  | none => rfl
  | some row =>
      have carried : row.key = r.key := keyed _ _ found
      exact carried

theorem holdsKeys_run {retention : ℤ} {limit total : ℕ} {db next : SQLiteUserIPs}
    {write : UserIPWrite} (keyed : UserIPTable.HoldsKeys db.userIPHistory)
    (committed : write.run retention limit total db = some next) :
    UserIPTable.HoldsKeys next.userIPHistory := by
  cases write with
  | pruneUserIPHistory now =>
      cases committed
      exact Table.Keyed.filter keyed _
  | applyUserIPBatch batch =>
      have upserted : ∀ (records : List UserIPRecord) {rows : UserIPTable},
          UserIPTable.HoldsKeys rows →
            UserIPTable.HoldsKeys (records.foldl SQLiteUserIPs.upsertRow rows) := by
        intro records
        induction records with
        | nil => exact fun keyedRows => keyedRows
        | cons r records ih => exact fun keyedRows => ih (holdsKeys_upsertRow keyedRows r)
      have applied : db.applyUserIPBatch retention limit total batch = .ok next :=
        mem_toOption_iff.mp committed
      unfold SQLiteUserIPs.applyUserIPBatch at applied
      split at applied
      · cases applied
      dsimp only at applied
      split at applied
      · cases applied
        exact keyed
      split at applied
      · cases applied
      have expired : ∀ {rows : UserIPTable} (cutoff : ℤ), UserIPTable.HoldsKeys rows →
          UserIPTable.HoldsKeys (expireUserIPs cutoff rows) :=
        fun cutoff keyedRows => Table.Keyed.filter keyedRows _
      set cutoff := userIPCutoff retention batch.through
      set users := if limit = 0 then [] else (batch.records.map (·.username)).dedup
      have trimmed := (@UserIPTable.foldl_trimUser _ limit users
        (expired cutoff (upserted batch.records (expired cutoff keyed)))
        (nextUserIPCollection db.readUserIPCollection batch).limited).1
      split at applied
      · cases applied
        exact UserIPTable.holdsKeys_deleteRows trimmed _
      · cases applied
        exact trimmed

theorem sum_map_set {writers : List WriterPhase} {writer : ℕ} {before after : WriterPhase}
    (here : writers[writer]? = some before) :
    ((writers.set writer after).map unshownOf).sum + unshownOf before =
      (writers.map unshownOf).sum + unshownOf after := by
  induction writers generalizing writer with
  | nil => simp at here
  | cons phase writers ih =>
      cases writer with
      | zero =>
          cases here
          simp only [List.set_cons_zero, List.map_cons, List.sum_cons]
          omega
      | succ writer =>
          have rest := @ih writer (by simpa using here)
          simp only [List.set_cons_succ, List.map_cons, List.sum_cons]
          omega

theorem sum_map_eraseIdx {writers : List WriterPhase} {writer : ℕ} {before : WriterPhase}
    (here : writers[writer]? = some before) :
    ((writers.eraseIdx writer).map unshownOf).sum + unshownOf before =
      (writers.map unshownOf).sum := by
  induction writers generalizing writer with
  | nil => simp at here
  | cons phase writers ih =>
      cases writer with
      | zero =>
          cases here
          simp only [List.eraseIdx_cons_zero, List.map_cons, List.sum_cons]
          omega
      | succ writer =>
          have rest := @ih writer (by simpa using here)
          simp only [List.eraseIdx_cons_succ, List.map_cons, List.sum_cons]
          omega

/-- A writer that gives up has not committed. -/
theorem Coherent.leave (coherent : Coherent request world) {writer : ℕ} {write : UserIPWrite}
    (here : world.writers[writer]? = some (.counted write)) :
    Coherent request { world with writers := world.writers.set writer .leaving } := by
  have shown := coherent.version
  have moved := @sum_map_set _ _ _ .leaving here
  refine ⟨coherent.keyed, ?_, ?_, coherent.loaded, fun unmarked => ?_⟩
  · rw [List.length_set]
    exact coherent.count
  · simp only [unshown, unshownOf] at shown moved ⊢
    omega
  · exact (coherent.reader unmarked).mono rfl List.prefix_rfl (le_refl _)

theorem Coherent.write (coherent : Coherent request world) (writer : ℕ) :
    Coherent request (step request world (.write writer)) := by
  change Coherent request (stepWriter request world writer)
  unfold stepWriter
  cases here : world.writers[writer]? with
  | none => exact coherent
  | some phase =>
      have shown := coherent.version
      cases phase with
      | counted write =>
          cases committed : write.run request.retention request.limit request.total world.db with
          | none =>
              simp only [committed]
              exact coherent.leave here
          | some db =>
              simp only [committed]
              have moved := @sum_map_set _ _ _ .committed here
              refine ⟨?_, ?_, ?_, coherent.loaded, fun unmarked => ?_⟩
              · intro state mem
                simp only [states, List.mem_append, List.mem_singleton] at mem
                rcases mem with old | rfl
                · exact coherent.keyed state (by simpa [states] using old)
                · exact holdsKeys_run (coherent.keyed world.db (by simp [states])) committed
              · rw [List.length_set]
                exact coherent.count
              · simp only [unshown, unshownOf, List.length_append, List.length_singleton]
                  at shown moved ⊢
                omega
              · exact (coherent.reader unmarked).mono rfl (List.prefix_append _ _) (le_refl _)
      | committed =>
          have moved := @sum_map_set _ _ _ .leaving here
          refine ⟨coherent.keyed, ?_, ?_, fun begun => ?_, fun unmarked => ?_⟩
          · simp only [List.length_set]
            exact coherent.count
          · simp only [unshown, unshownOf] at shown moved ⊢
            omega
          · exact (coherent.loaded begun).trans (Nat.le_succ _)
          · exact (coherent.reader unmarked).mono rfl List.prefix_rfl (Nat.le_succ _)
      | leaving =>
          have moved := sum_map_eraseIdx here
          have inside := (List.getElem?_eq_some_iff.mp here).1
          refine ⟨coherent.keyed, ?_, ?_, coherent.loaded, fun unmarked => ?_⟩
          · simp only [List.length_eraseIdx_of_lt inside, coherent.count]
          · simp only [unshown, unshownOf] at shown moved ⊢
            omega
          · exact (coherent.reader unmarked).mono rfl List.prefix_rfl (le_refl _)

/-- Every step of every party keeps the world coherent. -/
theorem Coherent.step (coherent : Coherent request world) (action : UserIPAction) :
    Coherent request (step request world action) := by
  cases action with
  | arrive write =>
      have shown := coherent.version
      refine ⟨coherent.keyed, ?_, ?_, coherent.loaded, fun unmarked => ?_⟩
      · simp only [UserIPWorld.step, List.length_append, List.length_singleton, coherent.count]
      · simpa [UserIPWorld.step, unshown, unshownOf] using shown
      · exact (coherent.reader unmarked).mono rfl List.prefix_rfl (le_refl _)
  | write writer => exact coherent.write writer
  | fail writer =>
      simp only [UserIPWorld.step]
      split
      · rename_i write here
        exact coherent.leave here
      · exact coherent
  | read => exact coherent.read

theorem coherent_start {db : SQLiteUserIPs} (keyed : UserIPTable.HoldsKeys db.userIPHistory) :
    Coherent request (start db) := by
  refine ⟨?_, rfl, rfl, fun begun => absurd rfl begun, fun _ => ⟨rfl, rfl⟩⟩
  intro state mem
  simp only [states, start, List.nil_append, List.mem_singleton] at mem
  rwa [mem]

/-- Every interleaving keeps the world coherent. -/
theorem coherent_after {db : SQLiteUserIPs} (keyed : UserIPTable.HoldsKeys db.userIPHistory)
    (actions : List UserIPAction) :
    Coherent request (after (UserIPWorld.step request) (start db) actions) :=
  always_after (fun _ action coherent => coherent.step action) (coherent_start keyed) actions

end Writers

section Quiet

variable {world : UserIPWorld}

/-- No writer is about, and the reader has seen none. -/
structure Quiet (world : UserIPWorld) : Prop where
  writers : world.writers = []
  revision : world.reader.phase ≠ .loadRevision → world.userIPRevision = world.reader.revision
  unmarked : world.reader.isPartial = false

/-- Pages that are needed after some records to read one record more than the cap. -/
def pagesLeft (request : UserIPSnapshotRequest) (records : ℕ) : ℕ :=
  (request.total + SQLiteUserIPs.userIPSnapshotChunkRows - records) /
    SQLiteUserIPs.userIPSnapshotChunkRows

/-- Steps after which a reader that meets no writer returns; every page but the last one is full. -/
def stepsLeft (request : UserIPSnapshotRequest) (reader : UserIPReader) : ℕ :=
  let pages := pagesLeft request reader.records.length
  match reader.phase with
  | .loadRevision => 5 * pages + 4
  | .loadWriters .beforePage => 5 * pages + 3
  | .compareRevision .beforePage => 5 * pages + 2
  | .readPage => 5 * pages + 1
  | .loadWriters .afterPage => if reader.complete then 4 else 5 * pages + 5
  | .compareRevision .afterPage => if reader.complete then 3 else 5 * pages + 4
  | .loadWriters .last => 2
  | .compareRevision .last => 1
  | .returned => 0

theorem stepsLeft_readPage {reader : UserIPReader} (db : SQLiteUserIPs)
    (room : reader.records.length ≤ request.total) :
    stepsLeft request (readPage request reader db) ≤
      5 * pagesLeft request reader.records.length := by
  set limit := min SQLiteUserIPs.userIPSnapshotChunkRows (request.total + 1 - reader.records.length)
    with limitEq
  set page := SQLiteUserIPs.readUserIPSnapshotPage db.userIPHistory.rows request.since request.now
    reader.records.getLast? limit with pageEq
  have left : stepsLeft request (readPage request reader db) =
      if page.length < limit ∨ request.total < (reader.records ++ page).length then 4
      else 5 * pagesLeft request (reader.records ++ page).length + 5 := by
    simp [stepsLeft, readPage, pageEq, limitEq]
  rw [left, pagesLeft, pagesLeft, List.length_append]
  rw [SQLiteUserIPs.userIPSnapshotChunkRows] at limitEq ⊢
  split
  · omega
  · omega

theorem Quiet.noWriters (coherent : Coherent request world) (quiet : Quiet world) :
    world.userIPWriters = 0 := by
  rw [coherent.count, quiet.writers]
  rfl

/-- A reader that meets no writer keeps the revision that it has seen. -/
theorem Quiet.revision_read (coherent : Coherent request world) (quiet : Quiet world) :
    world.userIPRevision = (stepReader request world).revision := by
  have nobody := quiet.noWriters coherent
  have revision := quiet.revision
  have unmarked := quiet.unmarked
  rw [stepReader]
  cases place : world.reader.phase with
  | loadRevision => rfl
  | loadWriters mark =>
      have loaded := revision (by simp [place])
      simp only [unmarked, nobody, Bool.false_eq_true, if_false, ne_eq, not_true_eq_false]
      exact loaded
  | compareRevision mark => exact revision (by simp [place])
  | readPage => exact revision (by simp [place])
  | returned => exact revision (by simp [place])

/-- A reader that meets no writer sets no mark. -/
theorem Quiet.unmarked_read (coherent : Coherent request world) (quiet : Quiet world) :
    (stepReader request world).isPartial = false := by
  have nobody := quiet.noWriters coherent
  have revision := quiet.revision
  have unmarked := quiet.unmarked
  rw [stepReader]
  cases place : world.reader.phase with
  | loadRevision => exact unmarked
  | loadWriters mark => simp [unmarked, nobody]
  | compareRevision mark =>
      have loaded := revision (by simp [place])
      simp [unmarked, loaded]
  | readPage => exact unmarked
  | returned => exact unmarked

/-- A reader that meets no writer has one step less to go. -/
theorem Quiet.stepsLeft_read (coherent : Coherent request world) (quiet : Quiet world) :
    stepsLeft request (stepReader request world) ≤ stepsLeft request world.reader - 1 := by
  have nobody := quiet.noWriters coherent
  have unmarked := quiet.unmarked
  rw [stepReader]
  cases place : world.reader.phase with
  | loadRevision => simp [stepsLeft, place]
  | loadWriters mark =>
      cases mark with
      | beforePage => simp [stepsLeft, place, unmarked, nobody]
      | afterPage => simp [stepsLeft, place, unmarked, nobody]; split <;> omega
      | last => simp [stepsLeft, place, unmarked, nobody]
  | compareRevision mark =>
      cases mark with
      | beforePage => simp [stepsLeft, place, afterMark]
      | afterPage =>
        cases done : world.reader.complete with
        | true => simp [stepsLeft, place, afterMark, done]
        | false => simp [stepsLeft, place, afterMark, done]
      | last => simp [stepsLeft, place, afterMark]
  | readPage =>
      have sound := coherent.reader unmarked
      rw [ReaderSound, place] at sound
      have room : world.reader.records.length ≤ request.total := by
        rcases sound with ⟨⟨nothing, -⟩ | ⟨db, -, readFrom⟩, unfinished⟩
        · simp [nothing]
        · exact readFrom.unfinished unfinished
      have left := stepsLeft_readPage world.db room
      simp only [stepsLeft, place] at left ⊢
      exact left
  | returned => simp [stepsLeft, place]

/-- A reader that meets no writer gets on. -/
theorem Quiet.read (coherent : Coherent request world) (quiet : Quiet world) :
    Quiet (step request world .read) ∧
      stepsLeft request (step request world .read).reader ≤ stepsLeft request world.reader - 1 :=
  ⟨⟨quiet.writers, fun _ => quiet.revision_read coherent, quiet.unmarked_read coherent⟩,
    quiet.stepsLeft_read coherent⟩

theorem Quiet.reads (coherent : Coherent request world) (quiet : Quiet world) (reads : ℕ) :
    Quiet (after (step request) world (List.replicate reads .read)) ∧
      stepsLeft request (after (step request) world (List.replicate reads .read)).reader ≤
        stepsLeft request world.reader - reads := by
  induction reads generalizing world with
  | zero => exact ⟨quiet, le_rfl⟩
  | succ reads ih =>
      rcases quiet.read coherent with ⟨quietNext, less⟩
      rcases ih (coherent.step .read) quietNext with ⟨quietLast, lessLast⟩
      exact ⟨quietLast, lessLast.trans (by omega)⟩

theorem phase_of_stepsLeft {reader : UserIPReader} (nothing : stepsLeft request reader = 0) :
    reader.phase = .returned := by
  cases place : reader.phase with
  | loadRevision => simp [stepsLeft, place] at nothing
  | loadWriters mark =>
      cases mark with
      | beforePage => simp [stepsLeft, place] at nothing
      | afterPage => cases done : reader.complete <;> simp [stepsLeft, place, done] at nothing
      | last => simp [stepsLeft, place] at nothing
  | compareRevision mark =>
      cases mark with
      | beforePage => simp [stepsLeft, place] at nothing
      | afterPage => cases done : reader.complete <;> simp [stepsLeft, place, done] at nothing
      | last => simp [stepsLeft, place] at nothing
  | readPage => simp [stepsLeft, place] at nothing
  | returned => rfl

/-- A reader that meets no writer returns its snapshot, and does not mark it. -/
theorem Quiet.returned (coherent : Coherent request world) (quiet : Quiet world) {reads : ℕ}
    (enough : stepsLeft request world.reader ≤ reads) :
    (after (step request) world (List.replicate reads .read)).reader.phase = .returned ∧
      (after (step request) world (List.replicate reads .read)).reader.isPartial = false := by
  rcases quiet.reads coherent reads with ⟨quietLast, left⟩
  exact ⟨@phase_of_stepsLeft request _ (by omega), quietLast.unmarked⟩

/-- A writer whose transaction fails between two steps of the reader leaves nothing behind. -/
theorem Quiet.failed (quiet : Quiet world) (write : UserIPWrite) :
    after (step request) world [.arrive write, .fail 0, .write 0] = world := by
  rcases world with ⟨history, db, writers, count, revision, reader⟩
  have nobody : writers = [] := quiet.writers
  subst nobody
  rfl

theorem stepsLeft_start (db : SQLiteUserIPs) :
    stepsLeft request (start db).reader = 5 * pagesLeft request 0 + 4 :=
  rfl

theorem quiet_start (db : SQLiteUserIPs) : Quiet (start db) :=
  ⟨rfl, fun begun => absurd rfl begun, rfl⟩

/-- A snapshot during which one writer arrives and fails is returned unmarked. -/
theorem returned_of_failed {request : UserIPSnapshotRequest} {db : SQLiteUserIPs}
    (keyed : UserIPTable.HoldsKeys db.userIPHistory) (write : UserIPWrite) {few many : ℕ}
    (enough : 5 * pagesLeft request 0 + 4 ≤ few + many) :
    (after (step request) (start db) (List.replicate few .read ++
      ([.arrive write, .fail 0, .write 0] ++ List.replicate many .read))).reader.phase = .returned ∧
    (after (step request) (start db) (List.replicate few .read ++
      ([.arrive write, .fail 0, .write 0] ++ List.replicate many .read))).reader.isPartial =
        false := by
  rcases (quiet_start db).reads (@coherent_start request db keyed) few with ⟨quiet, left⟩
  rw [stepsLeft_start] at left
  have coherent := @coherent_after request db keyed (List.replicate few .read)
  rw [after_append, after_append, quiet.failed]
  exact quiet.returned coherent (left.trans (by omega))

end Quiet

end UserIPWorld

/-- A snapshot shows one state: the newest records of the range up to the cap, by user and address,
and the metadata of the same state. -/
structure ShowsState (request : UserIPSnapshotRequest) (snapshot : UserIPReadSnapshot)
    (db : SQLiteUserIPs) : Prop where
  records : snapshot.records = (Sorter.stable UserIPRecord.keyOrder).sort
    ((request.newestOf db).take request.total)
  truncated : snapshot.truncated = true ↔ request.total < (request.newestOf db).length
  collection : snapshot.collection = request.collectionOf db

/-- The histories that calls lead to hold their records under their keys. -/
theorem SQLiteUserIPStore.keyed_after {retention : ℤ} {total : ℕ} (policies : ActivePolicies)
    (calls : List UserIPCall) :
    UserIPTable.HoldsKeys (after (fun store call =>
      (SQLiteUserIPStore.answer retention total store call).2)
      ⟨policies, .empty⟩ calls).ips.userIPHistory := by
  have agree := (@simulation_after _ _ _ _ (MemoryUserIPStore.answer retention total)
    (SQLiteUserIPStore.answer retention total) (fun _ _ => True) (SameUserIPStores total)
    (fun memory db call same _ => same.answer call) _ _ (sameUserIPStores_empty policies)
    calls (permitted_of_forall fun _ _ => trivial)).2
  rw [agree.ips.records]
  exact agree.ips.sound.keyed

/-- From every history that the store can reach, and for every interleaving of one paged snapshot
with ordinary writers: a snapshot that is returned without the partial mark shows one of the
committed states. -/
theorem unmarked_snapshot_shows_state (policies : ActivePolicies) (before : List UserIPCall)
    (request : UserIPSnapshotRequest) (epoch : UInt64) (actions : List UserIPAction) :
    let store := after (fun store call =>
      (SQLiteUserIPStore.answer request.retention request.total store call).2)
      ⟨policies, .empty⟩ before
    let world := after (UserIPWorld.step { request with limit := store.limit })
      (.start store.ips) actions
    world.reader.phase = .returned → world.reader.isPartial = false →
      ∃ db ∈ world.states,
        ShowsState request (UserIPWorld.snapshot request world.reader epoch) db := by
  intro store world returned unmarked
  have keyed := @SQLiteUserIPStore.keyed_after request.retention request.total policies before
  have coherent : UserIPWorld.Coherent { request with limit := store.limit } world :=
    UserIPWorld.coherent_after keyed actions
  have sound := coherent.reader unmarked
  rw [UserIPWorld.ReaderSound, returned] at sound
  rcases sound with ⟨loaded, complete⟩
  rcases loaded with ⟨-, incomplete⟩ | ⟨db, found, readFrom⟩
  · rw [complete] at incomplete
    cases incomplete
  · have records : world.reader.records = (request.newestOf db).take (request.total + 1) :=
      readFrom.complete complete
    refine ⟨db, List.mem_of_getElem? found, ?_, ?_, readFrom.collection⟩
    · rw [UserIPWorld.snapshot, records]
      dsimp only
      apply congrArg (Sorter.stable UserIPRecord.keyOrder).sort
      split
      · rw [List.take_take, min_eq_left (Nat.le_succ _)]
      · rename_i whole
        rw [decide_eq_true_eq, List.length_take] at whole
        rw [List.take_of_length_le (by omega), List.take_of_length_le (by omega)]
    · rw [UserIPWorld.snapshot, records]
      simp only [List.length_take, decide_eq_true_eq]
      omega

/-- More records than one page holds. -/
def sampleCrowd : UserIPBatch where
  id := "batch"
  through := 100
  records := (List.range 5001).map fun i => ⟨toString i, "10.0.0.1", 4, 50, 100, 1, 0, 1⟩
  limited := false
  gap := false

/-- The store that holds them. -/
def sampleStore : SQLiteUserIPStore :=
  after (fun store call => (SQLiteUserIPStore.answer 86400 6000 store call).2) ⟨.default, .empty⟩
    [.applyUserIPBatch sampleCrowd]

/-- Between the first page and the second one a writer arrives, whose transaction fails. -/
def sampleUserIPActions : List UserIPAction :=
  List.replicate 6 .read ++ ([.arrive (.pruneUserIPHistory 90), .fail 0, .write 0] ++
    List.replicate 14 .read)

theorem sampleUserIPActions_shows_state :
    let world := after (UserIPWorld.step ⟨86400, sampleStore.limit, 6000, 0, 100⟩)
      (.start sampleStore.ips) sampleUserIPActions
    ∃ db ∈ world.states, ShowsState ⟨86400, 0, 6000, 0, 100⟩
      (UserIPWorld.snapshot ⟨86400, 0, 6000, 0, 100⟩ world.reader 0) db := by
  have keyed := @SQLiteUserIPStore.keyed_after 86400 6000 .default [.applyUserIPBatch sampleCrowd]
  rw [← sampleStore] at keyed
  have done := @UserIPWorld.returned_of_failed ⟨86400, sampleStore.limit, 6000, 0, 100⟩ _ keyed
    (.pruneUserIPHistory 90) 6 14 (by decide)
  rw [← sampleUserIPActions] at done
  have shows := unmarked_snapshot_shows_state .default [.applyUserIPBatch sampleCrowd]
    ⟨86400, 0, 6000, 0, 100⟩ 0 sampleUserIPActions
  rw [← sampleStore] at shows
  exact shows done.1 done.2

end TelemtPanel.Store
