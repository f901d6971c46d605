import TelemtPanel.Geography.Aggregate
import TelemtPanel.Geography.Cursor

/-!
# Pages of a snapshot

Places, countries and the accounts of a group are listed page by page.  Places and countries
are emitted one by one, where those up to the one of the cursor only count; the members of a
group are cut out by position.  Both come down to the page behind a position of a list.
The snapshot stays in the cache with the epochs of its databases, and no request is cancelled.
-/

namespace TelemtPanel.Geography

open TelemtPanel.Library

section Requests

inductive PageError where
  | badRequest
  | notFound
  | snapshotExpired
deriving DecidableEq

/-- A projection in the cache. -/
structure Snapshot where
  id : String
  data : SnapshotData

structure LocationsQuery where
  snapshotID : String
  kind : String
  country : String
  cursor : String
  limit : ℤ

structure UsersQuery where
  snapshotID : String
  groupID : String
  cursor : String
  limit : ℤ

structure Page (α : Type) where
  snapshotID : String
  items : List α
  total : ℕ
  nextCursor : Option String

inductive Place where
  | country (c : Country)
  | location (l : Location)

structure UserItem where
  username : String
  uniqueIPs : ℕ

structure UserPage extends Page UserItem where
  groupID : String

def pageLimit (limit : ℤ) : Except PageError ℕ :=
  if limit = 0 then .ok 50
  else if limit < 1 ∨ 100 < limit then .error .badRequest
  else .ok limit.toNat

def validCountry (c : String) : Bool :=
  c.utf8ByteSize = 2 && c.toList.all fun r => 'A' ≤ r && r ≤ 'Z'

/-- The lookup of an identifier while a snapshot stays in the cache. -/
def Snapshot.pinned (entry : Snapshot) (id : String) : Except PageError Snapshot :=
  if id = "" ∨ 160 < id.utf8ByteSize then .error .badRequest
  else if entry.id = id then .ok entry
  else .error .snapshotExpired

/-- The cursor of a request, or that of no item when there is none. -/
def requestedCursor (raw : String) (binding : Cursor) : Except PageError Cursor :=
  if raw = "" then .ok .zero
  else match decodeCursor raw binding with
    | some after => .ok after
    | none => .error .badRequest

end Requests

section Emit

/-- The variables of a page while it is filled. -/
structure Emission (α : Type) where
  out : Page α
  passed : Bool
  foundCursor : Bool
  last : Cursor

variable {α : Type}

def emit (limit : ℕ) (after binding : Cursor) (e : Emission α) (id : String) (weight : ℕ)
    (item : α) : Emission α :=
  let e := { e with out := { e.out with total := e.out.total + 1 } }
  if !e.passed then
    if id = after.id ∧ weight = after.weight then { e with passed := true, foundCursor := true }
    else e
  else if e.out.items.length < limit then
    { e with
      out := { e.out with items := e.out.items ++ [item] }
      last := { binding with id := id, weight := weight } }
  else if e.out.nextCursor.isNone then
    { e with out := { e.out with nextCursor := some (encodeCursor e.last) } }
  else e

/-- A cursor of no item is an error. -/
def Emission.result (e : Emission α) : Except PageError (Page α) :=
  if !e.foundCursor then .error .badRequest else .ok e.out

end Emit

/-- `Service.Locations` -/
def Snapshot.locations (entry : Snapshot) (q : LocationsQuery) :
    Except PageError (Page Place) := do
  let limit ← pageLimit q.limit
  let kind := if q.kind = "" then "location" else q.kind
  if (kind ≠ "location" ∧ kind ≠ "country") ∨
      (q.country ≠ "" ∧ (validCountry q.country = false ∨ kind ≠ "location")) then
    .error .badRequest
  else
    let entry ← entry.pinned q.snapshotID
    if q.country ≠ "" ∧ entry.data.countries.all (·.countryCode ≠ q.country) then
      .error .notFound
    else
      let binding : Cursor := { Cursor.zero with
        snapshot := entry.id, kind := kind, filter := q.country }
      let after ← requestedCursor q.cursor binding
      let passed := q.cursor = ""
      let start : Emission Place := ⟨⟨entry.id, [], 0, none⟩, passed, passed, .zero⟩
      let emission :=
        if kind = "country" then
          entry.data.countries.foldl (fun e c =>
            emit limit after binding e c.id c.uniqueIPs (.country c)) start
        else
          entry.data.locations.foldl (fun e l =>
            if q.country ≠ "" ∧ l.countryCode ≠ some q.country then e
            else emit limit after binding e l.id l.uniqueIPs (.location l)) start
      emission.result

/-- `Service.Users` -/
def Snapshot.users (entry : Snapshot) (q : UsersQuery) : Except PageError UserPage := do
  let limit ← pageLimit q.limit
  if q.groupID = "" ∨ 160 < q.groupID.utf8ByteSize then .error .badRequest
  else
    let entry ← entry.pinned q.snapshotID
    match entry.data.memberships[q.groupID]? with
    | none => .error .notFound
    | some members =>
        let binding : Cursor := { Cursor.zero with
          snapshot := entry.id, kind := "users", filter := q.groupID }
        let start ←
          if q.cursor = "" then .ok 0
          else do
            let c ← requestedCursor q.cursor binding
            match members.findIdx? fun m =>
                accountName entry.data.accounts m.account = c.id ∧ m.uniqueIPs = c.weight with
            | some i => .ok (i + 1)
            | none => .error .badRequest
        let stop := min (start + limit) members.length
        let items := ((members.take stop).drop start).map fun m =>
          (⟨accountName entry.data.accounts m.account, m.uniqueIPs⟩ : UserItem)
        let nextCursor :=
          if stop < members.length then
            members[stop - 1]?.map fun m => encodeCursor { binding with
              id := accountName entry.data.accounts m.account, weight := m.uniqueIPs }
          else none
        .ok { snapshotID := entry.id, items := items, total := members.length,
              nextCursor := nextCursor, groupID := q.groupID }

section Listing

variable {α : Type}

/-- An item with what its cursor says. -/
structure Entry (α : Type) where
  id : String
  weight : ℕ
  item : α

variable (binding : Cursor) (entries : List (Entry α)) (limit : ℕ)

/-- The cursor of an item. -/
def Entry.cursor (entry : Entry α) : Cursor :=
  { binding with id := entry.id, weight := entry.weight }

/-- The page behind so many items. -/
def pageFrom (start : ℕ) : Page α where
  snapshotID := binding.snapshot
  items := ((entries.drop start).take limit).map Entry.item
  total := entries.length
  nextCursor :=
    if start + limit < entries.length then
      entries[start + limit - 1]?.map fun entry => encodeCursor (entry.cursor binding)
    else none

/-- The number of items up to the one of a cursor. -/
def startBehind (after : Cursor) : Option ℕ :=
  (entries.findIdx? fun entry => entry.id = after.id ∧ entry.weight = after.weight).map (· + 1)

/-- The page that a request asks for. -/
def pageOf (raw : String) : Except PageError (Page α) :=
  if raw = "" then .ok (pageFrom binding entries limit 0)
  else match (decodeCursor raw binding).bind (startBehind entries) with
    | some start => .ok (pageFrom binding entries limit start)
    | none => .error .badRequest

end Listing

section Emitted

variable {α : Type} {binding after : Cursor} {limit : ℕ}

/-- Emitting the entries of a list. -/
def emitAll (limit : ℕ) (after binding : Cursor) (entries : List (Entry α)) (e : Emission α) :
    Emission α :=
  entries.foldl (fun e entry => emit limit after binding e entry.id entry.weight entry.item) e

theorem emitAll_concat (entries : List (Entry α)) (entry : Entry α) (e : Emission α) :
    emitAll limit after binding (entries ++ [entry]) e =
      emit limit after binding (emitAll limit after binding entries e) entry.id entry.weight
        entry.item := by
  simp [emitAll]

theorem emitAll_cons (entries : List (Entry α)) (entry : Entry α) (e : Emission α) :
    emitAll limit after binding (entry :: entries) e =
      emitAll limit after binding entries
        (emit limit after binding e entry.id entry.weight entry.item) := rfl

/-- The last item of a page is the one its cursor names. -/
def lastCursor (binding : Cursor) (last : Cursor) (listed : List (Entry α)) : Cursor :=
  listed.getLast?.elim last (Entry.cursor binding)

/-- Behind the cursor the page is filled, and the first item that does not fit leaves a cursor. -/
theorem emitAll_passed (positive : 0 < limit) (entries : List (Entry α)) {e : Emission α}
    (passed : e.passed = true) (noItems : e.out.items = []) (noCursor : e.out.nextCursor = none) :
    emitAll limit after binding entries e = { e with
      out := {
        snapshotID := e.out.snapshotID
        items := (entries.take limit).map Entry.item
        total := e.out.total + entries.length
        nextCursor :=
          if limit < entries.length then
            entries[limit - 1]?.map fun entry => encodeCursor (entry.cursor binding)
          else none }
      last := lastCursor binding e.last (entries.take limit) } := by
  induction entries using List.reverseRecOn with
  | nil =>
      rcases e with ⟨⟨snapshotID, items, total, nextCursor⟩, hasPassed, found, last⟩
      cases noItems
      cases noCursor
      simp [emitAll, lastCursor]
  | append_singleton entries entry ih =>
      rw [emitAll_concat, ih, emit]
      simp only [passed, Bool.not_true, Bool.false_eq_true, ↓reduceIte, List.length_map,
        List.length_take, List.length_append, List.length_singleton]
      rcases lt_trichotomy entries.length limit with less | same | more
      · rw [if_pos (by omega)]
        have whole : (entries ++ [entry]).take limit = entries ++ [entry] :=
          List.take_of_length_le (by simpa using less)
        have before : entries.take limit = entries := List.take_of_length_le less.le
        rw [whole, before, if_neg (by omega), if_neg (by omega)]
        simp [lastCursor, Entry.cursor, Nat.add_assoc]
      · have full : ¬min limit entries.length < limit := by omega
        have noMore : ¬limit < entries.length := by omega
        have more : limit < entries.length + 1 := by omega
        have before : (entries ++ [entry]).take limit = entries :=
          (List.take_append_of_le_length same.ge).trans (List.take_of_length_le same.le)
        have lastIn : (entries ++ [entry])[limit - 1]? = entries.getLast? := by
          rw [List.getElem?_append_left (by omega), List.getLast?_eq_getElem?, same]
        rw [if_neg full, if_neg noMore, if_pos more, before, lastIn,
          List.take_of_length_le same.le]
        cases isLast : entries.getLast? with
        | none =>
            rw [List.getLast?_eq_none_iff] at isLast
            rw [isLast, List.length_nil] at same
            omega
        | some final => simp [lastCursor, isLast, Nat.add_assoc]
      · have full : ¬min limit entries.length < limit := by omega
        have before : (entries ++ [entry]).take limit = entries.take limit :=
          List.take_append_of_le_length more.le
        have present : limit - 1 < entries.length := by omega
        rw [if_neg full, if_pos more, if_pos (Nat.lt_succ_of_lt more), before,
          List.getElem?_append_left present, List.getElem?_eq_getElem present]
        simp [Nat.add_assoc]

/-- Up to the item of the cursor the entries only count. -/
theorem emitAll_searching (entries : List (Entry α)) {e : Emission α}
    (searching : e.passed = false) :
    emitAll limit after binding entries e =
      match startBehind entries after with
      | none => { e with out := { e.out with total := e.out.total + entries.length } }
      | some start => emitAll limit after binding (entries.drop start) { e with
          out := { e.out with total := e.out.total + start }
          passed := true
          foundCursor := true } := by
  induction entries generalizing e with
  | nil => rfl
  | cons entry entries ih =>
      rw [emitAll_cons, emit]
      simp only [searching, Bool.not_false, ↓reduceIte]
      by_cases here : entry.id = after.id ∧ entry.weight = after.weight
      · rw [if_pos here]
        have first : startBehind (entry :: entries) after = some 1 := by
          simp [startBehind, List.findIdx?_cons, here]
        rw [first]
        rfl
      · rw [if_neg here, ih rfl]
        have later : startBehind (entry :: entries) after =
            (startBehind entries after).map (· + 1) := by
          simp only [startBehind, List.findIdx?_cons, decide_eq_true_eq, if_neg here,
            Option.map_map]
        rw [later]
        cases startBehind entries after with
        | none => simp [Nat.add_assoc, Nat.add_comm]
        | some start =>
            dsimp only [Option.map_some]
            rw [List.drop_succ_cons, Nat.add_assoc, Nat.add_comm 1]

theorem le_of_startBehind {entries : List (Entry α)} {start : ℕ}
    (found : startBehind entries after = some start) : start ≤ entries.length := by
  rcases Option.map_eq_some_iff.mp found with ⟨index, there, rfl⟩
  exact (List.findIdx?_eq_some_iff_getElem.mp there).1

/-- Emitting comes down to the page that the request asks for. -/
theorem emitted_page (positive : 0 < limit) (entries : List (Entry α)) (raw : String) :
    (emitAll limit after binding entries
      ⟨⟨binding.snapshot, [], 0, none⟩, raw = "", raw = "", .zero⟩).result =
      if raw = "" then .ok (pageFrom binding entries limit 0)
      else match startBehind entries after with
        | some start => .ok (pageFrom binding entries limit start)
        | none => .error .badRequest := by
  by_cases first : raw = ""
  · rw [if_pos first, emitAll_passed positive entries (decide_eq_true first) rfl rfl]
    simp [Emission.result, first, pageFrom]
  · rw [if_neg first, emitAll_searching entries (decide_eq_false first)]
    cases found : startBehind entries after with
    | none => simp [Emission.result, first]
    | some start =>
        have inside := le_of_startBehind found
        have total : 0 + start + (entries.drop start).length = entries.length := by
          rw [List.length_drop]
          omega
        have more : limit < (entries.drop start).length ↔ start + limit < entries.length := by
          rw [List.length_drop]
          omega
        have last : (entries.drop start)[limit - 1]? = entries[start + limit - 1]? := by
          rw [List.getElem?_drop]
          congr 1
          omega
        dsimp only
        rw [emitAll_passed positive _ rfl rfl rfl]
        simp only [Emission.result, total, more, last, pageFrom, Bool.not_true,
          Bool.false_eq_true, ↓reduceIte]

end Emitted

section Listings

/-- What a request for places lists. -/
def LocationsQuery.binding (q : LocationsQuery) (entry : Snapshot) : Cursor :=
  { Cursor.zero with
    snapshot := entry.id
    kind := if q.kind = "" then "location" else q.kind
    filter := q.country }

def Country.entry (c : Country) : Entry Place := ⟨c.id, c.uniqueIPs, .country c⟩

def Location.entry (l : Location) : Entry Place := ⟨l.id, l.uniqueIPs, .location l⟩

def LocationsQuery.matching (q : LocationsQuery) (data : SnapshotData) : List (Entry Place) :=
  if q.kind = "country" then data.countries.map Country.entry
  else (data.locations.filter fun l =>
    q.country = "" || l.countryCode = some q.country).map Location.entry

/-- What a request for the members of a group lists. -/
def UsersQuery.binding (q : UsersQuery) (entry : Snapshot) : Cursor :=
  { Cursor.zero with snapshot := entry.id, kind := "users", filter := q.groupID }

def Membership.entry (accounts : List String) (m : Membership) : Entry UserItem :=
  ⟨accountName accounts m.account, m.uniqueIPs, ⟨accountName accounts m.account, m.uniqueIPs⟩⟩

def UsersQuery.matching (q : UsersQuery) (data : SnapshotData) : List (Entry UserItem) :=
  ((data.memberships[q.groupID]?).getD []).map (Membership.entry data.accounts)

/-- A request that is valid for a snapshot, apart from its cursor. -/
structure LocationsQuery.Valid (q : LocationsQuery) (entry : Snapshot) : Prop where
  kind : q.kind = "" ∨ q.kind = "location" ∨ q.kind = "country"
  country : q.country ≠ "" → q.kind ≠ "country" ∧ validCountry q.country = true ∧
    ∃ c ∈ entry.data.countries, c.countryCode = q.country
  snapshotID : q.snapshotID = entry.id

structure UsersQuery.Valid (q : UsersQuery) (entry : Snapshot) : Prop where
  groupID : q.groupID ≠ "" ∧ q.groupID.utf8ByteSize ≤ 160
  group : entry.data.memberships[q.groupID]?.isSome = true
  snapshotID : q.snapshotID = entry.id

variable {entry : Snapshot} {limit : ℕ}

/-- Identifiers of snapshots are of a length that is accepted. -/
def Snapshot.Named (entry : Snapshot) : Prop := entry.id ≠ "" ∧ entry.id.utf8ByteSize ≤ 160

theorem Snapshot.Named.pinned (named : entry.Named) : entry.pinned entry.id = .ok entry := by
  rw [Snapshot.pinned, if_neg, if_pos rfl]
  rintro (isEmpty | long)
  · exact named.1 isEmpty
  · exact absurd named.2 (not_le.mpr long)

theorem pageLimit_pos {raw : ℤ} (limited : pageLimit raw = .ok limit) : 0 < limit := by
  unfold pageLimit at limited
  split_ifs at limited with zero outside
  · cases limited
    exact Nat.succ_pos _
  · cases limited
    omega

theorem requestedCursor_bind {α β : Type} (raw : String) (binding : Cursor)
    (entries : List (Entry α)) (first : β) (behind : ℕ → β) :
    ((requestedCursor raw binding).bind fun after =>
      if raw = "" then .ok first
      else match startBehind entries after with
        | some start => .ok (behind start)
        | none => .error PageError.badRequest) =
      if raw = "" then .ok first
      else match (decodeCursor raw binding).bind (startBehind entries) with
        | some start => .ok (behind start)
        | none => .error .badRequest := by
  unfold requestedCursor
  by_cases isFirst : raw = ""
  · simp only [if_pos isFirst]
    rfl
  · simp only [if_neg isFirst]
    cases decodeCursor raw binding <;> rfl

/-- The kind that a valid request means. -/
theorem LocationsQuery.Valid.means {q : LocationsQuery} (valid : q.Valid entry) :
    (q.binding entry).kind = if q.kind = "country" then "country" else "location" := by
  dsimp only [LocationsQuery.binding]
  rcases valid.kind with kind | kind | kind <;> rw [kind] <;> rfl

/-- Emitting the places or the countries. -/
theorem foldl_places (q : LocationsQuery) (data : SnapshotData) (after binding : Cursor)
    (start : Emission Place) :
    (if q.kind = "country" then
      data.countries.foldl (fun e c =>
        emit limit after binding e c.id c.uniqueIPs (.country c)) start
    else
      data.locations.foldl (fun e l =>
        if q.country ≠ "" ∧ l.countryCode ≠ some q.country then e
        else emit limit after binding e l.id l.uniqueIPs (.location l)) start) =
      emitAll limit after binding (q.matching data) start := by
  unfold LocationsQuery.matching emitAll
  split
  · rw [List.foldl_map]
    rfl
  · rw [List.foldl_map, List.foldl_filter]
    congr 1
    funext e l
    by_cases left : q.country ≠ "" ∧ l.countryCode ≠ some q.country
    · rw [if_pos left, if_neg]
      simpa using left
    · rw [if_neg left, if_pos]
      · rfl
      · by_cases every : q.country = ""
        · simp [every]
        · simpa [every] using left

/-- Places and countries are listed by pages of what matches. -/
theorem locations_eq (named : entry.Named) {q : LocationsQuery} (valid : q.Valid entry)
    (limited : pageLimit q.limit = .ok limit) :
    entry.locations q = pageOf (q.binding entry) (q.matching entry.data) limit q.cursor := by
  have means := valid.means
  set kind := (q.binding entry).kind with kindEq
  have isKind : (if q.kind = "" then "location" else q.kind) = kind := rfl
  have accepted : ¬((kind ≠ "location" ∧ kind ≠ "country") ∨
      (q.country ≠ "" ∧ (validCountry q.country = false ∨ kind ≠ "location"))) := by
    rw [means]
    rintro (⟨notLocation, notCountry⟩ | ⟨filtered, notValid | notLocation⟩)
    · split at notLocation
      · rename_i isCountry
        rw [if_pos isCountry] at notCountry
        exact notCountry rfl
      · exact notLocation rfl
    · rw [(valid.country filtered).2.1] at notValid
      cases notValid
    · rw [if_neg (valid.country filtered).1] at notLocation
      exact notLocation rfl
  have present : ¬(q.country ≠ "" ∧ entry.data.countries.all (·.countryCode ≠ q.country)) := by
    rintro ⟨filtered, absent⟩
    rcases (valid.country filtered).2.2 with ⟨c, mem, isCountry⟩
    have other := List.all_eq_true.mp absent c mem
    simp [isCountry] at other
  have byKind : (kind = "country") ↔ q.kind = "country" := by
    rw [means]
    split
    · rename_i isCountry
      simp [isCountry]
    · rename_i notCountry
      simp [notCountry]
  have positive := pageLimit_pos limited
  have steps : entry.locations q = (requestedCursor q.cursor (q.binding entry)).bind fun after =>
      (emitAll limit after (q.binding entry) (q.matching entry.data)
        ⟨⟨entry.id, [], 0, none⟩, q.cursor = "", q.cursor = "", .zero⟩).result := by
    unfold Snapshot.locations
    rw [limited, valid.snapshotID]
    simp only [bind, Except.bind, isKind, if_neg accepted, named.pinned, if_neg present]
    have binding : ({ Cursor.zero with snapshot := entry.id, kind := kind, filter := q.country } :
        Cursor) = q.binding entry := rfl
    rw [binding]
    cases requestedCursor q.cursor (q.binding entry) with
    | error e => rfl
    | ok after =>
        dsimp only
        rw [← foldl_places]
        simp only [byKind]
  have pages (after : Cursor) := @emitted_page Place (q.binding entry) after limit positive
    (q.matching entry.data) q.cursor
  rw [steps]
  refine (congrArg _ (funext pages)).trans ?_
  rw [requestedCursor_bind]
  rfl

/-- Members of a group are listed by pages of all of them. -/
theorem users_eq (named : entry.Named) {q : UsersQuery} (valid : q.Valid entry)
    (limited : pageLimit q.limit = .ok limit) :
    (entry.users q).map UserPage.toPage =
      pageOf (q.binding entry) (q.matching entry.data) limit q.cursor := by
  have accepted : ¬(q.groupID = "" ∨ 160 < q.groupID.utf8ByteSize) := by
    rintro (isEmpty | long)
    · exact valid.groupID.1 isEmpty
    · exact absurd valid.groupID.2 (not_le.mpr long)
  rcases Option.isSome_iff_exists.mp valid.group with ⟨members, found⟩
  set entries := members.map (Membership.entry entry.data.accounts) with entriesEq
  have matching : q.matching entry.data = entries := by
    rw [UsersQuery.matching, found, Option.getD_some]
  -- The page behind a position of the list of members.
  have page (start : ℕ) (inside : start ≤ members.length) :
      pageFrom (q.binding entry) entries limit start = {
        snapshotID := entry.id
        items := ((members.take (min (start + limit) members.length)).drop start).map fun m =>
          (⟨accountName entry.data.accounts m.account, m.uniqueIPs⟩ : UserItem)
        total := members.length
        nextCursor :=
          if min (start + limit) members.length < members.length then
            members[min (start + limit) members.length - 1]?.map fun m =>
              encodeCursor { q.binding entry with
                id := accountName entry.data.accounts m.account, weight := m.uniqueIPs }
          else none } := by
    have cut : (entries.drop start).take limit =
        ((members.take (min (start + limit) members.length)).drop start).map
          (Membership.entry entry.data.accounts) := by
      rw [entriesEq, ← List.map_drop, ← List.map_take, List.drop_take]
      congr 1
      apply List.take_eq_take_iff.mpr
      rw [List.length_drop]
      omega
    have more : min (start + limit) members.length < members.length ↔
        start + limit < entries.length := by
      rw [entriesEq, List.length_map]
      omega
    rw [pageFrom, cut, List.map_map]
    simp only [more]
    by_cases isMore : start + limit < entries.length
    · have stop : min (start + limit) members.length = start + limit := by
        have bound := more.mpr isMore
        omega
      rw [if_pos isMore, if_pos isMore, stop, entriesEq, List.getElem?_map, List.length_map,
        Option.map_map]
      rfl
    · rw [if_neg isMore, if_neg isMore, entriesEq, List.length_map]
      rfl
  have index (c : Cursor) : startBehind entries c = (members.findIdx? fun m =>
      accountName entry.data.accounts m.account = c.id ∧ m.uniqueIPs = c.weight).map (· + 1) := by
    rw [startBehind, entriesEq, List.findIdx?_map]
    rfl
  unfold Snapshot.users
  rw [limited, valid.snapshotID]
  simp only [bind, Except.bind, if_neg accepted, named.pinned, found, matching]
  unfold pageOf requestedCursor
  by_cases first : q.cursor = ""
  · simp only [if_pos first]
    rw [page 0 (Nat.zero_le _)]
    rfl
  · simp only [if_neg first]
    cases decoded : decodeCursor q.cursor (q.binding entry) with
    | none =>
        have same : decodeCursor q.cursor { Cursor.zero with
            snapshot := entry.id, kind := "users", filter := q.groupID } = none := decoded
        rw [same]
        rfl
    | some c =>
        have same : decodeCursor q.cursor { Cursor.zero with
            snapshot := entry.id, kind := "users", filter := q.groupID } = some c := decoded
        rw [same]
        dsimp only [Option.bind_some]
        rw [index c]
        cases there : members.findIdx? fun m =>
            accountName entry.data.accounts m.account = c.id ∧ m.uniqueIPs = c.weight with
        | none => rfl
        | some i =>
            have inside := (List.findIdx?_eq_some_iff_getElem.mp there).1
            dsimp only [Option.map_some]
            rw [page (i + 1) inside]
            rfl

end Listings

end TelemtPanel.Geography
