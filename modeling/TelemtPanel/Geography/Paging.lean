import TelemtPanel.Geography.Pages
import TelemtPanel.Geography.Totals

/-!
# Following the cursors of a snapshot

A reader asks for the first page and then for the page of each cursor that it is handed out,
until there is none.  The items of a snapshot have different names, so that a cursor that is
accepted is found at its item, and the pages put together are the list.  A cursor is a record
in which some characters of a name take six bytes, while the decoder only accepts a bounded
length: the reader gets to the end exactly when the last item of every full page fits.
-/

namespace TelemtPanel.Geography

open TelemtPanel.Library GeoIP

section Reader

variable {α : Type}

/-- The pages from a cursor on, as long as they can be read. -/
def follow (fetch : String → Except PageError (Page α)) :
    (rounds : ℕ) → (cursor : String) → Option (List (Page α))
  | 0, _ => none
  | rounds + 1, cursor =>
      match fetch cursor with
      | .error _ => none
      | .ok page =>
          match page.nextCursor with
          | none => some [page]
          | some next => (follow fetch rounds next).map (page :: ·)

/-- A reader gets to the end, sees every item once and in order and the same total on every
page, and each cursor is accepted by the query it was made for. -/
def Visits (fetch : String → Except PageError (Page α)) (binding : Cursor) (items : List α) :
    Prop :=
  ∃ rounds pages, follow fetch rounds "" = some pages ∧ pages.flatMap Page.items = items ∧
    ∀ page ∈ pages, page.total = items.length ∧
      ∀ cursor, page.nextCursor = some cursor → (decodeCursor cursor binding).isSome = true

/-- The cursor behind every full page that is not the last one fits. -/
def Fits (binding : Cursor) (entries : List (Entry α)) (limit : ℕ) : Prop :=
  ∀ full entry, 0 < full → full * limit < entries.length →
    entries[full * limit - 1]? = some entry → (entry.cursor binding).size ≤ recordRoom

/-- Items that are told apart by their names. -/
structure Listed (entries : List (Entry α)) : Prop where
  named : ∀ entry ∈ entries, entry.id ≠ ""
  small : ∀ entry ∈ entries, entry.weight < 2 ^ 63
  distinct : (entries.map Entry.id).Nodup

variable {binding : Cursor} {entries : List (Entry α)} {limit start : ℕ}

theorem encodeCursor_ne_empty (c : Cursor) : encodeCursor c ≠ "" := by
  intro isEmpty
  have size := utf8ByteSize_encodeCursor c
  rw [isEmpty] at size
  have large : 55 ≤ c.size := by
    unfold Cursor.size
    omega
  simp only [String.utf8ByteSize_empty] at size
  omega

/-- The cursor of an item is found at the item. -/
theorem Listed.startBehind (listed : Listed entries) {entry : Entry α}
    (there : entries[start]? = some entry) :
    startBehind entries (entry.cursor binding) = some (start + 1) := by
  rcases List.getElem?_eq_some_iff.mp there with ⟨inside, rfl⟩
  rw [Geography.startBehind, Option.map_eq_some_iff]
  refine ⟨start, ?_, rfl⟩
  rw [List.findIdx?_eq_some_iff_getElem]
  refine ⟨inside, by simp [Entry.cursor], ?_⟩
  intro earlier before same
  have both := of_decide_eq_true same
  have apart := List.pairwise_iff_getElem.mp listed.distinct earlier start
    (by simpa using before.trans inside) (by simpa using inside) before
  simp only [List.getElem_map] at apart
  exact apart both.1

/-- The page of a cursor that was handed out. -/
theorem Listed.pageOf_cursor (listed : Listed entries) {entry : Entry α}
    (there : entries[start]? = some entry) :
    decodeCursor (encodeCursor (entry.cursor binding)) binding =
        (if (entry.cursor binding).size ≤ recordRoom then some (entry.cursor binding) else none) ∧
      pageOf binding entries limit (encodeCursor (entry.cursor binding)) =
        if (entry.cursor binding).size ≤ recordRoom then
          .ok (pageFrom binding entries limit (start + 1))
        else .error .badRequest := by
  have mem := List.mem_of_getElem? there
  have small := listed.small entry mem
  have decoded : decodeCursor (encodeCursor (entry.cursor binding)) binding =
      if (entry.cursor binding).size ≤ recordRoom then some (entry.cursor binding) else none := by
    apply decodeCursor_encodeCursor rfl rfl rfl
    · exact Int.natCast_nonneg _
    · simp only [Entry.cursor]
      omega
    · exact listed.named entry mem
  refine ⟨decoded, ?_⟩
  rw [pageOf, if_neg (encodeCursor_ne_empty _), decoded]
  by_cases sized : (entry.cursor binding).size ≤ recordRoom
  · rw [if_pos sized, if_pos sized, Option.bind_some, listed.startBehind there]
  · rw [if_neg sized, if_neg sized]
    rfl

/-- The next position after a page that is not the last one. -/
theorem last_of_page (positive : 0 < limit) (more : start + limit < entries.length) :
    ∃ entry, entries[start + limit - 1]? = some entry ∧
      (pageFrom binding entries limit start).nextCursor =
        some (encodeCursor (entry.cursor binding)) := by
  have inside : start + limit - 1 < entries.length := by omega
  refine ⟨entries[start + limit - 1], List.getElem?_eq_getElem inside, ?_⟩
  simp only [pageFrom, if_pos more, List.getElem?_eq_getElem inside, Option.map_some]

/-- The last page ends the reading. -/
theorem follow_last (last : ¬ start + limit < entries.length) {cursor : String}
    (here : pageOf binding entries limit cursor = .ok (pageFrom binding entries limit start))
    (rounds : ℕ) :
    ∃ pages, follow (pageOf binding entries limit) (rounds + 1) cursor = some pages ∧
      pages.flatMap Page.items = (entries.drop start).map Entry.item ∧
      ∀ page ∈ pages, page.total = entries.length ∧
        ∀ next, page.nextCursor = some next → (decodeCursor next binding).isSome = true := by
  have whole : (entries.drop start).take limit = entries.drop start := by
    apply List.take_of_length_le
    rw [List.length_drop]
    omega
  refine ⟨[pageFrom binding entries limit start], ?_, ?_, ?_⟩
  · simp [follow, here, pageFrom, last]
  · simp [pageFrom, whole]
  · simp [pageFrom, last]

/-- From a page on, the reader gets to the end when the cursors fit. -/
theorem Listed.follow_of_fits (listed : Listed entries) (positive : 0 < limit)
    (fits : Fits binding entries limit) {rounds full : ℕ}
    (enough : entries.length ≤ (full + rounds) * limit) {cursor : String}
    (here : pageOf binding entries limit cursor =
      .ok (pageFrom binding entries limit (full * limit))) :
    ∃ pages, follow (pageOf binding entries limit) (rounds + 1) cursor = some pages ∧
      pages.flatMap Page.items = (entries.drop (full * limit)).map Entry.item ∧
      ∀ page ∈ pages, page.total = entries.length ∧
        ∀ next, page.nextCursor = some next → (decodeCursor next binding).isSome = true := by
  induction rounds generalizing full cursor with
  | zero =>
      rw [Nat.add_zero] at enough
      exact follow_last (by omega) here 0
  | succ rounds ih =>
      by_cases more : full * limit + limit < entries.length
      · rcases @last_of_page α binding _ _ _ positive more with ⟨entry, there, next⟩
        have position : full * limit + limit = (full + 1) * limit := (Nat.succ_mul _ _).symm
        have sized : (entry.cursor binding).size ≤ recordRoom := by
          apply fits (full + 1) entry (Nat.succ_pos _)
          · rw [← position]
            exact more
          · rw [← position]
            exact there
        rcases @Listed.pageOf_cursor α binding _ limit _ listed entry there with ⟨decoded, page⟩
        have behind : full * limit + limit - 1 + 1 = (full + 1) * limit := by omega
        rw [if_pos sized] at decoded page
        rw [behind] at page
        rcases ih (by rw [Nat.add_right_comm]; exact enough) page with
          ⟨pages, followed, items, good⟩
        refine ⟨pageFrom binding entries limit (full * limit) :: pages, ?_, ?_, ?_⟩
        · rw [follow, here]
          simp only [next, followed, Option.map_some]
        · rw [List.flatMap_cons, items, ← position, ← List.drop_drop]
          simp only [pageFrom, ← List.map_append, List.take_append_drop]
        · refine List.forall_mem_cons.mpr ⟨⟨rfl, ?_⟩, good⟩
          intro raw isNext
          rw [next] at isNext
          cases isNext
          rw [decoded]
          rfl
      · exact follow_last more here _

/-- A reader that got to the end from a page on was handed out cursors that fit. -/
theorem Listed.fits_of_follow (listed : Listed entries) (positive : 0 < limit) {rounds full : ℕ}
    {cursor : String} {pages : List (Page α)}
    (here : pageOf binding entries limit cursor =
      .ok (pageFrom binding entries limit (full * limit)))
    (followed : follow (pageOf binding entries limit) rounds cursor = some pages) :
    ∀ later entry, full < later → later * limit < entries.length →
      entries[later * limit - 1]? = some entry → (entry.cursor binding).size ≤ recordRoom := by
  induction rounds generalizing full cursor pages with
  | zero => cases followed
  | succ rounds ih =>
      intro later entry ahead inside there
      have step : (full + 1) * limit ≤ later * limit := Nat.mul_le_mul_right limit ahead
      have position : full * limit + limit = (full + 1) * limit := (Nat.succ_mul _ _).symm
      rcases @last_of_page α binding _ _ _ positive (by omega : full * limit + limit <
        entries.length) with ⟨last, lastThere, next⟩
      rcases @Listed.pageOf_cursor α binding _ limit _ listed last lastThere with ⟨-, page⟩
      rw [follow, here] at followed
      simp only [next] at followed
      rcases Option.map_eq_some_iff.mp followed with ⟨rest, restFollowed, -⟩
      have sized : (last.cursor binding).size ≤ recordRoom := by
        by_contra tooLong
        rw [if_neg tooLong] at page
        cases rounds with
        | zero => cases restFollowed
        | succ rounds => simp [follow, page] at restFollowed
      rw [if_pos sized] at page
      have behind : full * limit + limit - 1 + 1 = (full + 1) * limit := by omega
      rw [behind] at page
      rcases Nat.eq_or_lt_of_le ahead with same | further
      · rw [← same, ← position, lastThere] at there
        cases there
        exact sized
      · exact ih page restFollowed later entry further inside there

/-- The pages visit every item exactly when the cursors fit. -/
theorem Listed.visits_iff (listed : Listed entries) (positive : 0 < limit) :
    Visits (pageOf binding entries limit) binding (entries.map Entry.item) ↔
      Fits binding entries limit := by
  have first : pageOf binding entries limit "" =
      .ok (pageFrom binding entries limit (0 * limit)) := by
    rw [Nat.zero_mul]
    rfl
  constructor
  · rintro ⟨rounds, pages, followed, -, -⟩ full entry positiveFull inside there
    exact listed.fits_of_follow positive first followed full entry positiveFull inside there
  · intro fits
    have enough : entries.length ≤ (0 + entries.length) * limit := by
      rw [Nat.zero_add]
      exact Nat.le_mul_of_pos_right _ positive
    rcases listed.follow_of_fits positive fits enough first with ⟨pages, followed, items, good⟩
    rw [Nat.zero_mul, List.drop_zero] at items
    refine ⟨_, pages, followed, items, ?_⟩
    simpa using good

end Reader

section Snapshots

variable {resolved : Resolutions} {pairs : Finset Pair} {pass : Pass}

theorem id_classified_ne (ip : IP) : (classified resolved ip).id ≠ "" := by
  unfold classified classify
  dsimp only
  split
  · assumption
  · split
    · intro same
      have parts := congrArg String.toList same
      simp at parts
    · change "unknown:not_found" ≠ ""
      decide

theorem countryGroup_ne_empty (code : String) : countryGroup code ≠ "" := by
  intro same
  have parts := congrArg String.toList same
  simp [countryGroup] at parts

namespace Counts

/-- The identity of a place is not empty. -/
theorem place_named (counts : Counts resolved pairs pass) (sorters : Sorters) (caps : Capacities)
    {l : Location} (mem : l ∈ (pass.finish sorters caps).locations) : l.id ≠ "" := by
  rcases List.mem_map.mp (sorters.locations.mem_sort.mp mem) with ⟨b, there, rfl⟩
  have found := (counts.places_keyed sorters).mem_rows.mp there
  rw [lookup_places] at found
  rcases Option.map_eq_some_iff.mp found with ⟨old, known, -⟩
  rcases Finset.card_pos.mp (counts.registered.locations.size_eq known).2 with ⟨ip, mem⟩
  have same := (Finset.mem_filter.mp mem).2
  intro isEmpty
  exact id_classified_ne ip (same.trans isEmpty)

theorem country_named (counts : Counts resolved pairs pass) (sorters : Sorters)
    (caps : Capacities) {c : Country} (mem : c ∈ (pass.finish sorters caps).countries) :
    c.id ≠ "" := by
  have row := counts.country_row sorters
    ((counts.countries_keyed sorters).mem_rows.mp (sorters.countries.mem_sort.mp mem))
  rw [row.1.1]
  exact countryGroup_ne_empty _

/-- A member is an account of a pair that counts. -/
theorem member_named (counts : Counts resolved pairs pass) (sorters : Sorters)
    {group : String} {members : List Membership}
    (found : (pass.memberships sorters)[group]? = some members) {m : Membership}
    (mem : m ∈ members) : accountName pass.accounts m.account ∈ usernames pairs ∧
      m.uniqueIPs ≤ (addresses pairs).card := by
  rcases lookup_memberships found with ⟨unsorted, there, rfl⟩
  rcases ((counts.mem_members there).2 m).mp ((Sorter.mem_sort _).mp mem) with ⟨same, positive⟩
  cases known : pass.accounts[m.account]? with
  | none =>
      rw [numberOf, known, Option.elim_none] at same
      omega
  | some username =>
      rw [numberOf, known, Option.elim_some] at same
      refine ⟨?_, ?_⟩
      · rw [accountName, known, Option.getD_some]
        exact (counts.interned.mem username).mp (List.mem_of_getElem? known)
      · rw [← same]
        apply Finset.card_le_card
        apply (Finset.filter_subset _ _).trans
        exact Finset.image_subset_image (Finset.filter_subset _ _)

end Counts

section Aggregated

variable {sorters : Sorters} {caps : Capacities} {ctx : Checkpoint → Option ContextError}
  {input : Input} {data : SnapshotData}

/-- The addresses of an aggregation that has room for its input are few. -/
theorem card_addresses_le (succeeded : aggregate sorters caps ctx input resolved = .ok data) :
    (addresses input.counted).card < 2 ^ 63 := by
  rcases bind_eq_ok.mp succeeded with ⟨_, _, succeeded⟩
  rcases bind_eq_ok.mp succeeded with ⟨_, enough, _⟩
  have room : ¬ bufferRoom < inputBytes input resolved := by
    intro tooLarge
    rw [within, if_pos tooLarge] at enough
    cases enough
  have counted : (addresses input.counted).card ≤ input.pairs.length := by
    apply Finset.card_image_le.trans
    apply (List.toFinset_card_le _).trans
    apply (List.length_filter_le _ _).trans
    rw [List.length_map]
  unfold bufferRoom inputBytes at room
  omega

/-- The counts behind a snapshot. -/
theorem exists_counts (succeeded : aggregate sorters caps ctx input resolved = .ok data) :
    ∃ pass, Counts resolved input.counted pass ∧ data = pass.finish sorters caps := by
  rcases aggregate_eq_ok succeeded with ⟨visited, increasing, mem, rfl⟩
  have counts := @Counts.foldl_visit resolved visited increasing
  have same : visited.toFinset = input.counted := by
    ext p
    rw [List.mem_toFinset, mem]
  rw [same] at counts
  exact ⟨_, counts, rfl⟩

theorem listed_places (succeeded : aggregate sorters caps ctx input resolved = .ok data)
    (q : LocationsQuery) : Listed (q.matching data) := by
  have few := card_addresses_le succeeded
  rcases exists_counts succeeded with ⟨pass, counts, rfl⟩
  have totalled := counts.finish sorters caps
  unfold LocationsQuery.matching
  split
  · refine ⟨?_, ?_, ?_⟩
    · intro entry mem
      rcases List.mem_map.mp mem with ⟨c, there, rfl⟩
      exact counts.country_named sorters caps there
    · intro entry mem
      rcases List.mem_map.mp mem with ⟨c, there, rfl⟩
      have weight : c.uniqueIPs ≤ (addresses input.counted).card := by
        rw [(totalled.country c there).1]
        exact Finset.card_filter_le _ _
      exact weight.trans_lt few
    · rw [List.map_map]
      exact totalled.countryOrder.2
  · refine ⟨?_, ?_, ?_⟩
    · intro entry mem
      rcases List.mem_map.mp mem with ⟨l, there, rfl⟩
      exact counts.place_named sorters caps (List.mem_of_mem_filter there)
    · intro entry mem
      rcases List.mem_map.mp mem with ⟨l, there, rfl⟩
      have weight : l.uniqueIPs ≤ (addresses input.counted).card := by
        rw [(totalled.location l (List.mem_of_mem_filter there)).1]
        exact Finset.card_filter_le _ _
      exact weight.trans_lt few
    · rw [List.map_map]
      exact (List.filter_sublist.map _).nodup totalled.locationOrder.2

theorem listed_members (succeeded : aggregate sorters caps ctx input resolved = .ok data)
    (q : UsersQuery) : Listed (q.matching data) := by
  have few := card_addresses_le succeeded
  rcases exists_counts succeeded with ⟨pass, counts, rfl⟩
  have totalled := counts.finish sorters caps
  unfold UsersQuery.matching
  cases found : (pass.finish sorters caps).memberships[q.groupID]? with
  | none => exact ⟨by simp, by simp, by simp⟩
  | some members =>
      rw [Option.getD_some]
      refine ⟨?_, ?_, ?_⟩
      · intro entry mem
        rcases List.mem_map.mp mem with ⟨m, there, rfl⟩
        rcases Finset.mem_image.mp (counts.member_named sorters found there).1 with
          ⟨p, counted, named⟩
        have isNamed := username_of_admitted (mem_counted.mp counted).2
        rw [named] at isNamed
        exact isNamed
      · intro entry mem
        rcases List.mem_map.mp mem with ⟨m, there, rfl⟩
        exact (counts.member_named sorters found there).2.trans_lt few
      · rw [List.map_map]
        exact (totalled.memberOrder q.groupID members found).2

/-- On a snapshot that stays in the cache the pages of places, of countries and of the accounts
of a group visit every item exactly when the cursor behind every full page fits. -/
theorem paging_visits_iff {entry : Snapshot} (named : entry.Named)
    (succeeded : aggregate sorters caps ctx input resolved = .ok entry.data) :
    (∀ (q : LocationsQuery) limit, q.Valid entry → pageLimit q.limit = .ok limit →
      (Visits (fun cursor => entry.locations { q with cursor }) (q.binding entry)
          ((q.matching entry.data).map Entry.item) ↔
        Fits (q.binding entry) (q.matching entry.data) limit)) ∧
      ∀ (q : UsersQuery) limit, q.Valid entry → pageLimit q.limit = .ok limit →
        (Visits (fun cursor => (entry.users { q with cursor }).map UserPage.toPage)
            (q.binding entry) ((q.matching entry.data).map Entry.item) ↔
          Fits (q.binding entry) (q.matching entry.data) limit) := by
  constructor
  · intro q limit valid limited
    have pages : (fun cursor => entry.locations { q with cursor }) =
        pageOf (q.binding entry) (q.matching entry.data) limit := by
      funext cursor
      exact @locations_eq entry limit named { q with cursor } { valid with } limited
    rw [pages]
    exact (listed_places succeeded q).visits_iff (pageLimit_pos limited)
  · intro q limit valid limited
    have pages : (fun cursor => (entry.users { q with cursor }).map UserPage.toPage) =
        pageOf (q.binding entry) (q.matching entry.data) limit := by
      funext cursor
      exact @users_eq entry limit named { q with cursor } { valid with } limited
    rw [pages]
    exact (listed_members succeeded q).visits_iff (pageLimit_pos limited)

/-- Two accounts of a group, page by page. -/
def sampleUsers : UsersQuery := ⟨"1", "unknown:private", "", 1⟩

theorem named_sample (data : SnapshotData) : (Snapshot.mk "1" data).Named :=
  ⟨(by decide : "1" ≠ ""), (by decide : "1".utf8ByteSize ≤ 160)⟩

theorem sampleUsers_visited : ∃ data,
    aggregate sampleSorters ⟨id, id, id, id⟩ (fun _ => none) sampleInput sampleResolutions =
        .ok data ∧
      (Visits (fun cursor => ((Snapshot.mk "1" data).users { sampleUsers with cursor }).map
          UserPage.toPage) (sampleUsers.binding ⟨"1", data⟩)
        ((sampleUsers.matching data).map Entry.item) ↔
          Fits (sampleUsers.binding ⟨"1", data⟩) (sampleUsers.matching data) 1) := by
  have known : (aggregate sampleSorters ⟨id, id, id, id⟩ (fun _ => none) sampleInput
      sampleResolutions).toOption.any (fun data =>
        data.memberships["unknown:private"]?.isSome) = true := by decide +kernel
  cases outcome : aggregate sampleSorters ⟨id, id, id, id⟩ (fun _ => none) sampleInput
      sampleResolutions with
  | error e =>
      rw [outcome] at known
      cases known
  | ok data =>
      rw [outcome] at known
      refine ⟨data, rfl, ?_⟩
      have both := paging_visits_iff (named_sample data) outcome
      exact both.2 sampleUsers 1 ⟨by decide, known, rfl⟩ rfl

/-- Names of the length that is accepted, with characters that are escaped. -/
def escapedInput : Input where
  pairs := [
    ⟨String.ofList (List.replicate 116 '<') ++ "a", ⟨Addr.parse "10.0.0.7"⟩⟩,
    ⟨String.ofList (List.replicate 116 '<') ++ "b", ⟨Addr.parse "10.0.0.7"⟩⟩]
  family := "all"

/-- The second page of the group cannot be read. -/
theorem escapedInput_not_visited : ∃ data,
    aggregate sampleSorters ⟨id, id, id, id⟩ (fun _ => none) escapedInput ∅ = .ok data ∧
      ¬ Visits (fun cursor => ((Snapshot.mk "1" data).users { sampleUsers with cursor }).map
          UserPage.toPage) (sampleUsers.binding ⟨"1", data⟩)
        ((sampleUsers.matching data).map Entry.item) := by
  have known : (aggregate sampleSorters ⟨id, id, id, id⟩ (fun _ => none) escapedInput
      ∅).toOption.any (fun data => data.memberships["unknown:private"]?.isSome &&
        decide (1 < (sampleUsers.matching data).length) &&
        (sampleUsers.matching data)[0]?.any fun entry =>
          recordRoom < (entry.cursor (sampleUsers.binding ⟨"1", data⟩)).size) = true := by
    decide +kernel
  cases outcome : aggregate sampleSorters ⟨id, id, id, id⟩ (fun _ => none) escapedInput ∅ with
  | error e =>
      rw [outcome] at known
      cases known
  | ok data =>
      rw [outcome] at known
      simp only [Except.toOption, Option.any_some, Bool.and_eq_true, decide_eq_true_eq] at known
      rcases known with ⟨⟨group, several⟩, first⟩
      have valid : sampleUsers.Valid ⟨"1", data⟩ := ⟨by decide, group, rfl⟩
      refine ⟨data, rfl, ?_⟩
      have pages : (fun cursor => ((Snapshot.mk "1" data).users { sampleUsers with cursor }).map
          UserPage.toPage) =
          pageOf (sampleUsers.binding ⟨"1", data⟩) (sampleUsers.matching data) 1 := by
        funext cursor
        exact @users_eq ⟨"1", data⟩ 1 (named_sample data) { sampleUsers with cursor }
          { valid with } rfl
      rw [pages, (listed_members outcome sampleUsers).visits_iff Nat.one_pos]
      intro fits
      cases there : (sampleUsers.matching data)[0]? with
      | none => simp [there] at first
      | some user =>
          rw [there] at first
          have size := fits 1 user Nat.one_pos (by simpa using several) there
          exact absurd (of_decide_eq_true first) (not_lt.mpr size)

end Aggregated

end Snapshots

end TelemtPanel.Geography
