import TelemtPanel.Geography.Members

/-!
# Totals of a snapshot

A snapshot depends on the set of pairs that count only, and its numbers are cardinalities of
sets of their addresses and accounts.
-/

namespace TelemtPanel.Geography

open TelemtPanel.Library GeoIP

section Sorting

variable {α β : Type} [LinearOrder β] {rank : α → β}

/-- Items of distinct ranks have only one order. -/
theorem sort_unique (left right : Sorter rank) {items : List α} (distinct : (items.map rank).Nodup) :
    left.sort items = right.sort items :=
  Sorter.eq_of_pairwise_lt (left.pairwise_lt_sort distinct) (right.pairwise_lt_sort distinct)
    fun _ => left.mem_sort.trans right.mem_sort.symm

/-- Ranks with distinct identifiers are distinct. -/
theorem nodup_rank {γ δ : Type} {items : List α} {first : α → γ} {id : α → δ}
    (distinct : (items.map id).Nodup) :
    (items.map fun item => toLex (first item, id item)).Nodup := by
  have apart := List.pairwise_map.mp distinct
  apply List.pairwise_map.mpr
  apply apart.imp
  intro left right differ same
  exact differ (congrArg Prod.snd (toLex_inj.mp same))

end Sorting

section Accounts

variable {memberships : Table String (List Membership)} {locations : Table String LocationBuilder}
  {countries : Table String Country}

/-- Group by group, the numbers of accounts of places and of countries are set. -/
theorem foldl_setAccounts (groups : List (String × List Membership)) :
    groups.foldl Pass.setAccounts (locations, countries) =
      ((groups.filter fun group => !hasPrefix group.1 "country:").foldl (fun locations group =>
          locations.alter group.1
            (·.map fun b => { b with dto := { b.dto with accounts := group.2.length } }))
          locations,
        (groups.filter fun group => hasPrefix group.1 "country:").foldl (fun countries group =>
          countries.alter (String.ofList (group.1.toList.drop "country:".length))
            (·.map fun c => { c with accounts := group.2.length })) countries) := by
  induction groups generalizing locations countries with
  | nil => rfl
  | cons group groups ih =>
      rw [List.foldl_cons, Pass.setAccounts]
      dsimp only
      split
      · rename_i isCountry
        rw [ih]
        simp [isCountry]
      · rename_i isPlace
        rw [ih]
        simp [isPlace]

/-- The row of a key among all rows. -/
theorem filter_toList {ν : Type} (table : Table String ν) (key : String) :
    table.toList.filter (fun row => row.1 = key) =
      (table[key]?.map fun row => (key, row)).toList := by
  have distinct : (table.toList.filter fun row => row.1 = key).Nodup :=
    ((List.pairwise_map.mp (Table.nodup_keys table)).imp fun differ same =>
      differ (congrArg Prod.fst same)).filter _
  have perm : (table.toList.filter fun row => row.1 = key).Perm
      (table[key]?.map fun row => (key, row)).toList := by
    apply (List.perm_ext_iff_of_nodup distinct _).mpr
    · rintro ⟨other, row⟩
      simp only [List.mem_filter, Table.mem_toList, decide_eq_true_eq, Option.mem_toList,
        Option.map_eq_some_iff, Prod.mk.injEq]
      constructor
      · rintro ⟨found, rfl⟩
        exact ⟨row, found, rfl, rfl⟩
      · rintro ⟨stored, found, rfl, rfl⟩
        exact ⟨found, rfl⟩
    · cases table[key]? <;> simp
  cases found : table[key]? with
  | none =>
      rw [found] at perm
      exact List.perm_nil.mp perm
  | some row =>
      rw [found] at perm
      exact List.perm_singleton.mp perm

/-- Members of at most one group set the number of a row. -/
theorem foldl_group {ν : Type} (groups : Option (String × List Membership)) (set : ℕ → ν → ν)
    (row : Option ν) :
    groups.toList.foldl (fun row group => row.map (set group.2.length)) row =
      row.map fun stored => groups.elim stored fun group => set group.2.length stored := by
  cases groups <;> cases row <;> rfl

theorem lookup_places (id : String) :
    (memberships.toList.foldl Pass.setAccounts (locations, countries)).1[id]? =
      locations[id]?.map fun b => { b with dto := { b.dto with
        accounts := (if hasPrefix id "country:" then none else memberships[id]?).elim
          b.dto.accounts List.length } } := by
  have selected : (memberships.toList.filter fun group => !hasPrefix group.1 "country:").filter
      (fun group => group.1 = id) = ((if hasPrefix id "country:" then none
        else memberships[id]?).map fun row => (id, row)).toList := by
    rw [List.filter_filter]
    cases isCountry : hasPrefix id "country:" with
    | true =>
        apply List.filter_eq_nil_iff.mpr
        intro group _
        simp only [Bool.and_eq_true, decide_eq_true_eq, not_and, Bool.not_eq_true']
        rintro rfl
        simp [isCountry]
    | false =>
        rw [if_neg Bool.false_ne_true, ← filter_toList]
        apply List.filter_congr
        intro group _
        by_cases here : group.1 = id
        · simp [here, isCountry]
        · simp [here]
  rw [foldl_setAccounts]
  dsimp only
  rw [Table.lookup_foldl_alter (fun group : String × List Membership => group.1)
      (fun group => Option.map fun b : LocationBuilder =>
        { b with dto := { b.dto with accounts := group.2.length } }), selected,
    foldl_group _ fun n (b : LocationBuilder) => { b with dto := { b.dto with accounts := n } }]
  cases (if hasPrefix id "country:" then none else memberships[id]?) <;> rfl

theorem lookup_countries (code : String) :
    (memberships.toList.foldl Pass.setAccounts (locations, countries)).2[code]? =
      countries[code]?.map fun c => { c with
        accounts := (memberships[countryGroup code]?).elim c.accounts List.length } := by
  have selected : (memberships.toList.filter fun group => hasPrefix group.1 "country:").filter
      (fun group => String.ofList (group.1.toList.drop "country:".length) = code) =
        (memberships[countryGroup code]?.map fun row => (countryGroup code, row)).toList := by
    rw [← filter_toList, List.filter_filter]
    apply List.filter_congr
    intro group _
    rw [Bool.eq_iff_iff, Bool.and_eq_true, decide_eq_true_eq, decide_eq_true_eq]
    constructor
    · rintro ⟨rfl, isCountry⟩
      rcases List.isPrefixOf_iff_prefix.mp isCountry with ⟨rest, split⟩
      apply String.toList_inj.mp
      rw [countryGroup, String.toList_append, ← split, ← String.length_toList, List.drop_left]
      simp
    · intro here
      rw [here]
      refine ⟨?_, hasPrefix_countryGroup code⟩
      rw [countryGroup, String.toList_append, ← String.length_toList, List.drop_left,
        String.ofList_toList]
  rw [foldl_setAccounts]
  dsimp only
  rw [Table.lookup_foldl_alter
      (fun group : String × List Membership =>
        String.ofList (group.1.toList.drop "country:".length))
      (fun group => Option.map fun c : Country => { c with accounts := group.2.length }), selected,
    foldl_group _ fun n (c : Country) => { c with accounts := n }]
  cases memberships[countryGroup code]? <;> rfl

end Accounts

section Lists

variable {resolved : Resolutions} {pairs : Finset Pair} {pass : Pass}

/-- The country of an address, as far as one is known. -/
def countryOf (resolved : Resolutions) (ip : IP) : String :=
  if isNonPublic ip then "" else countryCode (resolved[ip]?).join

theorem classified_code (ip : IP) : (classified resolved ip).code = countryOf resolved ip := by
  have kept (ip : IP) (r : Option Result) :
      (categorize ip r).code = if isNonPublic ip then "" else countryCode r := by
    unfold categorize
    split
    · rfl
    · cases r with
      | none => rfl
      | some result =>
          dsimp only
          split
          · rfl
          · split <;> rfl
  rw [countryOf, ← kept, classified, classify]
  split
  · rfl
  · split <;> rfl

theorem lookup_memberships {sorters : Sorters}
    {group : String} {members : List Membership}
    (found : (pass.memberships sorters)[group]? = some members) :
    ∃ unsorted, pass.members[group]? = some unsorted ∧
      members = (sorters.members pass.accounts).sort unsorted := by
  rw [Pass.memberships, Table.lookup_map] at found
  rcases Option.map_eq_some_iff.mp found with ⟨unsorted, there, same⟩
  exact ⟨unsorted, there, same.symm⟩

namespace Counts

/-- A group has as many members as accounts. -/
theorem elim_memberships (counts : Counts resolved pairs pass) (sorters : Sorters)
    {group : String} (inhabited : 0 < ((addresses pairs).filter (InGroup resolved group)).card)
    (unknown : ℕ) : ((pass.memberships sorters)[group]?).elim unknown List.length =
      (accountsIn resolved pairs group).card := by
  have present := counts.isSome_members.mpr (exists_mem_accountsIn.mpr inhabited)
  rcases Option.isSome_iff_exists.mp present with ⟨members, found⟩
  rw [Pass.memberships, Table.lookup_map, found, Option.map_some, Option.elim_some,
    Sorter.length_sort, counts.length_members found]

variable (sorters : Sorters)

/-- The row of a place. -/
theorem place_row (counts : Counts resolved pairs pass) {id : String} {b : LocationBuilder}
    (found : ((pass.memberships sorters).toList.foldl Pass.setAccounts
      (pass.locations, pass.countries)).1[id]? = some b) :
    b.dto.id = id ∧
      b.dto.uniqueIPs = ((addresses pairs).filter (InGroup resolved id)).card ∧
      b.dto.accounts = (accountsIn resolved pairs id).card := by
  rw [lookup_places] at found
  rcases Option.map_eq_some_iff.mp found with ⟨old, there, rfl⟩
  rcases counts.registered.locations.size_eq there with ⟨number, positive⟩
  rcases Finset.card_pos.mp positive with ⟨ip, mem⟩
  have isPlace : hasPrefix id "country:" = false := by
    rw [← (Finset.mem_filter.mp mem).2]
    exact hasPrefix_classify _ _
  have same : (addresses pairs).filter (fun ip => (classified resolved ip).id = id) =
      (addresses pairs).filter (InGroup resolved id) :=
    Finset.filter_congr fun ip _ => (inGroup_place resolved isPlace ip).symm
  rw [same] at number positive
  refine ⟨counts.registered.locationIDs id old there, number, ?_⟩
  dsimp only
  rw [if_neg (by rw [isPlace]; exact Bool.false_ne_true)]
  exact counts.elim_memberships sorters positive _

/-- The row of a country. -/
theorem country_row (counts : Counts resolved pairs pass) {code : String} {c : Country}
    (found : ((pass.memberships sorters).toList.foldl Pass.setAccounts
      (pass.locations, pass.countries)).2[code]? = some c) :
    (c.id = countryGroup code ∧ c.countryCode = code) ∧
      c.uniqueIPs = ((addresses pairs).filter (InGroup resolved c.id)).card ∧
      c.accounts = (accountsIn resolved pairs c.id).card := by
  rw [lookup_countries] at found
  rcases Option.map_eq_some_iff.mp found with ⟨old, there, rfl⟩
  have named := counts.registered.countryIDs code old there
  rcases counts.registered.countries.size_eq there with ⟨number, positive⟩
  have same : ((addresses pairs).filter fun ip => (classified resolved ip).code ≠ "").filter
      (fun ip => (classified resolved ip).code = code) =
        (addresses pairs).filter (InGroup resolved (countryGroup code)) := by
    rw [Finset.filter_filter]
    exact Finset.filter_congr fun ip _ => (inGroup_country resolved ip).symm
  rw [same] at number positive
  refine ⟨named, ?_⟩
  dsimp only
  rw [named.1]
  exact ⟨number, counts.elim_memberships sorters positive _⟩

theorem places_keyed (counts : Counts resolved pairs pass) :
    Table.Keyed (fun b : LocationBuilder => b.dto.id)
      ((pass.memberships sorters).toList.foldl Pass.setAccounts
        (pass.locations, pass.countries)).1 :=
  fun _ _ found => (counts.place_row sorters found).1

theorem countries_keyed (counts : Counts resolved pairs pass) :
    Table.Keyed Country.countryCode
      ((pass.memberships sorters).toList.foldl Pass.setAccounts
        (pass.locations, pass.countries)).2 :=
  fun _ _ found => (counts.country_row sorters found).1.2

/-- Places have different identities. -/
theorem nodup_places (counts : Counts resolved pairs pass) :
    (((((pass.memberships sorters).toList.foldl Pass.setAccounts
      (pass.locations, pass.countries)).1.rows.map LocationBuilder.build)).map
        Location.id).Nodup := by
  rw [List.map_map]
  exact (counts.places_keyed sorters).nodup_map_rows

theorem nodup_countries (counts : Counts resolved pairs pass) :
    (((pass.memberships sorters).toList.foldl Pass.setAccounts
      (pass.locations, pass.countries)).2.rows.map Country.id).Nodup := by
  have keyed := counts.countries_keyed sorters
  have codes := (keyed.nodup_map_rows).map countryGroup_injective
  rw [List.map_map] at codes
  have same : ((pass.memberships sorters).toList.foldl Pass.setAccounts
      (pass.locations, pass.countries)).2.rows.map Country.id =
      ((pass.memberships sorters).toList.foldl Pass.setAccounts
        (pass.locations, pass.countries)).2.rows.map (countryGroup ∘ Country.countryCode) := by
    apply List.map_congr_left
    intro c mem
    have row := counts.country_row sorters (keyed.mem_rows.mp mem)
    exact row.1.1
  rw [same]
  exact codes

/-- The order of the lists of members is the only one. -/
theorem memberships_unique (counts : Counts resolved pairs pass) (left right : Sorters) :
    pass.memberships left = pass.memberships right := by
  apply Table.ext
  intro group
  rw [Pass.memberships, Pass.memberships, Table.lookup_map, Table.lookup_map]
  cases found : pass.members[group]? with
  | none => rfl
  | some members =>
      exact congrArg some (sort_unique _ _ (nodup_rank (counts.nodup_names found)))

/-- The outcome of a pass does not depend on how the lists are sorted. -/
theorem finish_unique (counts : Counts resolved pairs pass) (left right : Sorters)
    (caps : Capacities) : pass.finish left caps = pass.finish right caps := by
  unfold Pass.finish
  rw [counts.memberships_unique left right]
  dsimp only
  rw [sort_unique left.countries right.countries (nodup_rank (counts.nodup_countries right)),
    sort_unique left.locations right.locations (nodup_rank (counts.nodup_places right))]

end Counts

/-- The numbers of a snapshot are cardinalities of sets of pairs. -/
structure Totalled (resolved : Resolutions) (pairs : Finset Pair) (data : SnapshotData) :
    Prop where
  uniqueIPs : data.totals.uniqueIPs = (addresses pairs).card
  accounts : data.totals.accounts = (usernames pairs).card
  category : ∀ category, data.quality.counter category =
    ((addresses pairs).filter fun ip => (classified resolved ip).category = category).card
  categories : data.quality.located + data.quality.countryOnly + data.quality.private +
    data.quality.notFound + data.quality.unavailable = data.totals.uniqueIPs
  locations : (data.locations.map (·.uniqueIPs)).sum = data.totals.uniqueIPs
  countries : (data.countries.map (·.uniqueIPs)).sum =
    ((addresses pairs).filter fun ip => countryOf resolved ip ≠ "").card
  location : ∀ l ∈ data.locations,
    l.uniqueIPs = ((addresses pairs).filter (InGroup resolved l.id)).card ∧
      l.accounts = (accountsIn resolved pairs l.id).card
  country : ∀ c ∈ data.countries,
    c.uniqueIPs = ((addresses pairs).filter (InGroup resolved c.id)).card ∧
      c.accounts = (accountsIn resolved pairs c.id).card
  group : ∀ group : String, data.memberships[group]?.isSome = true ↔
    ∃ ip ∈ addresses pairs, InGroup resolved group ip
  members : ∀ (group : String) members, data.memberships[group]? = some members →
    members.length = (accountsIn resolved pairs group).card ∧
      ∀ username n, (∃ m ∈ members, data.accounts[m.account]? = some username ∧ m.uniqueIPs = n) ↔
        n = ((addressesOf pairs username).filter (InGroup resolved group)).card ∧ 0 < n
  locationOrder : data.locations.Pairwise (fun a b => a.order < b.order) ∧
    (data.locations.map (·.id)).Nodup
  countryOrder : data.countries.Pairwise (fun a b => a.order < b.order) ∧
    (data.countries.map (·.id)).Nodup
  memberOrder : ∀ (group : String) members, data.memberships[group]? = some members →
    members.Pairwise (fun a b => a.order data.accounts < b.order data.accounts) ∧
      (members.map fun m => accountName data.accounts m.account).Nodup

theorem Counts.finish (counts : Counts resolved pairs pass) (sorters : Sorters)
    (caps : Capacities) : Totalled resolved pairs (pass.finish sorters caps) where
  uniqueIPs := counts.registered.size
  accounts := by
    have same : pass.accounts.toFinset = usernames pairs := by
      ext username
      rw [List.mem_toFinset, counts.interned.mem]
    rw [← same, List.toFinset_card_of_nodup (counts.interned.increasing.imp ne_of_lt)]
    rfl
  category category := by
    have kept : (pass.finish sorters caps).quality.counter category =
        pass.quality.counter category := by cases category <;> rfl
    rw [kept, counts.registered.quality]
  categories := by
    have everywhere : ∀ ip ∈ addresses pairs, (classified resolved ip).category ∈
        ({.located, .countryOnly, .private, .notFound, .unavailable} : Finset Category) := by
      intro ip _
      cases (classified resolved ip).category <;> simp
    have total := Finset.card_eq_sum_card_fiberwise everywhere
    have counter := counts.registered.quality
    simp only [← counter] at total
    change _ = pass.seen.size
    rw [counts.registered.size, total]
    simp [Quality.counter, Pass.finish, Nat.add_assoc]
  locations := by
    have tallies : Tallies (·.dto.uniqueIPs) ((pass.memberships sorters).toList.foldl
        Pass.setAccounts (pass.locations, pass.countries)).1 fun id =>
          ((addresses pairs).filter fun ip => (classified resolved ip).id = id).card := by
      intro id
      rw [← counts.registered.locations id, lookup_places, Option.map_map]
      rfl
    have sum := tallies.sum_rows
    rw [← counts.registered.size] at sum
    refine ((sorters.locations.perm _).map Location.uniqueIPs).sum_eq.trans ?_
    rw [List.map_map]
    exact sum
  countries := by
    have tallies : Tallies (·.uniqueIPs) ((pass.memberships sorters).toList.foldl
        Pass.setAccounts (pass.locations, pass.countries)).2 fun code =>
          (((addresses pairs).filter fun ip => (classified resolved ip).code ≠ "").filter
            fun ip => (classified resolved ip).code = code).card := by
      intro code
      rw [← counts.registered.countries code, lookup_countries, Option.map_map]
      rfl
    have sum := tallies.sum_rows
    simp only [classified_code] at sum
    exact ((sorters.countries.perm _).map Country.uniqueIPs).sum_eq.trans sum
  location l mem := by
    rcases List.mem_map.mp (sorters.locations.mem_sort.mp mem) with ⟨b, there, rfl⟩
    have row := counts.place_row sorters
      ((counts.places_keyed sorters).mem_rows.mp there)
    exact row.2
  country c mem := by
    have row := counts.country_row sorters
      ((counts.countries_keyed sorters).mem_rows.mp (sorters.countries.mem_sort.mp mem))
    exact row.2
  group group := by
    have same : (pass.finish sorters caps).memberships[group]?.isSome =
        pass.members[group]?.isSome := by
      change (pass.memberships sorters)[group]?.isSome = _
      rw [Pass.memberships, Table.lookup_map, Option.isSome_map]
    rw [same, counts.isSome_members, exists_mem_accountsIn, Finset.card_pos]
    exact Finset.filter_nonempty_iff
  members group members found := by
    rcases lookup_memberships found with ⟨unsorted, there, rfl⟩
    refine ⟨(Sorter.length_sort _ _).trans (counts.length_members there), ?_⟩
    intro username n
    constructor
    · rintro ⟨m, mem, named, rfl⟩
      rcases ((counts.mem_members there).2 m).mp ((Sorter.mem_sort _).mp mem) with
        ⟨same, positive⟩
      change pass.accounts[m.account]? = some username at named
      rw [numberOf, named, Option.elim_some] at same
      exact ⟨same.symm, positive⟩
    · rintro ⟨rfl, positive⟩
      have known := (Finset.mem_filter.mp (mem_accountsIn.mpr positive)).1
      rcases counts.exists_account known with ⟨account, named, number⟩
      refine ⟨⟨account, _⟩, (Sorter.mem_sort _).mpr ?_, named, rfl⟩
      exact ((counts.mem_members there).2 _).mpr ⟨number group, positive⟩
  locationOrder := by
    have distinct := counts.nodup_places sorters
    refine ⟨sorters.locations.pairwise_lt_sort (nodup_rank distinct), ?_⟩
    exact ((sorters.locations.perm _).map _).nodup_iff.mpr distinct
  countryOrder := by
    have distinct := counts.nodup_countries sorters
    refine ⟨sorters.countries.pairwise_lt_sort (nodup_rank distinct), ?_⟩
    exact ((sorters.countries.perm _).map _).nodup_iff.mpr distinct
  memberOrder group members found := by
    rcases lookup_memberships found with ⟨unsorted, there, rfl⟩
    have distinct := counts.nodup_names there
    refine ⟨(sorters.members pass.accounts).pairwise_lt_sort (nodup_rank distinct), ?_⟩
    exact (((sorters.members pass.accounts).perm _).map _).nodup_iff.mpr distinct

end Lists

section Claim

variable {sorters : Sorters} {caps : Capacities} {ctx : Checkpoint → Option ContextError}
  {input : Input} {resolved : Resolutions} {data : SnapshotData}

/-- A snapshot is determined by the set of the pairs that count, whatever their list and the
order of equal items, and its numbers are the cardinalities of sets of these pairs. -/
theorem snapshot_of_counted (succeeded : aggregate sorters caps ctx input resolved = .ok data) :
    Totalled resolved input.counted data ∧
      ∀ (sorters' : Sorters) (ctx' : Checkpoint → Option ContextError) (input' : Input) data',
        input'.counted = input.counted →
          aggregate sorters' caps ctx' input' resolved = .ok data' → data' = data := by
  rcases aggregate_eq_ok succeeded with ⟨visited, increasing, mem, rfl⟩
  have counts := @Counts.foldl_visit resolved visited increasing
  have set : visited.toFinset = input.counted := by
    ext p
    rw [List.mem_toFinset, mem]
  rw [set] at counts
  refine ⟨counts.finish sorters caps, ?_⟩
  intro sorters' ctx' input' data' same succeeded'
  rcases aggregate_eq_ok succeeded' with ⟨other, otherIncreasing, otherMem, rfl⟩
  have sameList : other = visited :=
    otherIncreasing.eq increasing fun p => by rw [otherMem, same, mem]
  rw [sameList]
  exact counts.finish_unique sorters' sorters caps

/-- The sorts of the sample. -/
def sampleSorters : Sorters := ⟨.insertion _, .insertion _, .insertion _, fun _ => .insertion _⟩

/-- Two accounts that share an address, written in two ways, and a resolved one. -/
def sampleInput : Input where
  pairs := [
    ⟨"bob", ⟨Addr.parse "10.0.0.7"⟩⟩,
    ⟨"alice", ⟨Addr.parse "::ffff:10.0.0.7"⟩⟩,
    ⟨"bob", ⟨Addr.parse "::ffff:10.0.0.7"⟩⟩,
    ⟨"alice", ⟨Addr.parse "2001:db8::1"⟩⟩]
  family := "all"

def sampleResolutions : Resolutions :=
  Std.ExtTreeMap.insert ∅ ⟨Addr.parse "2001:db8::1"⟩
    (some ⟨"DE", "Germany", "", "", "", some 7, none, false⟩)

theorem sampleInput_counted : ∃ data,
    aggregate sampleSorters ⟨id, id, id, id⟩ (fun _ => none) sampleInput sampleResolutions =
      .ok data ∧ Totalled sampleResolutions sampleInput.counted data := by
  have succeeds : (aggregate sampleSorters ⟨id, id, id, id⟩ (fun _ => none) sampleInput
      sampleResolutions).isOk = true := by decide +kernel
  cases outcome : aggregate sampleSorters ⟨id, id, id, id⟩ (fun _ => none) sampleInput
      sampleResolutions with
  | error e =>
      rw [outcome] at succeeds
      cases succeeds
  | ok data => exact ⟨data, rfl, (snapshot_of_counted outcome).1⟩

end Claim

end TelemtPanel.Geography
