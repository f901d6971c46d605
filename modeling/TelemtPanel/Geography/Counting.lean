import TelemtPanel.Library.Tally
import TelemtPanel.Geography.Visits

/-!
# What a pass counts

The variables of the pass fall into three parts, each with an invariant of its own: the
addresses with their categories, places and countries, the interned accounts, and the
members of the groups.
-/

namespace TelemtPanel.Geography

open TelemtPanel.Library GeoIP

section Groups

variable (resolved : Resolutions)

/-- What the aggregation makes of an address. -/
def classified (ip : IP) : Classified := classify ip (resolved[ip]?).join

/-- The group of a country. -/
def countryGroup (code : String) : String := "country:" ++ code

/-- An address is in the group of its place and in that of its country. -/
def InGroup (id : String) (ip : IP) : Prop :=
  (classified resolved ip).id = id ∨
    ((classified resolved ip).code ≠ "" ∧ countryGroup (classified resolved ip).code = id)

instance (id : String) : DecidablePred (InGroup resolved id) := fun _ =>
  inferInstanceAs (Decidable (_ ∨ _))

theorem hasPrefix_append (start rest : String) : hasPrefix (start ++ rest) start = true := by
  simp [hasPrefix]

theorem hasPrefix_countryGroup (code : String) :
    hasPrefix (countryGroup code) "country:" = true :=
  hasPrefix_append _ _

theorem hasPrefix_locationID (r : Option Result) :
    hasPrefix (locationID r) "country:" = false := by
  cases r with
  | none => rfl
  | some r =>
      simp only [locationID]
      split
      · rfl
      · split
        · simp [hasPrefix, List.isPrefixOf]
        · split
          · simp [hasPrefix, List.isPrefixOf]
          · rfl
        · rfl

theorem hasPrefix_categorize (ip : IP) (r : Option Result) :
    hasPrefix (categorize ip r).id "country:" = false := by
  unfold categorize
  split
  · rfl
  · cases r with
    | none => rfl
    | some result =>
        dsimp only
        split
        · exact hasPrefix_locationID _
        · split <;> exact hasPrefix_locationID _

/-- The group of a place is never that of a country. -/
theorem hasPrefix_classify (ip : IP) (r : Option Result) :
    hasPrefix (classify ip r).id "country:" = false := by
  unfold classify
  dsimp only
  split
  · exact hasPrefix_categorize ip r
  · split
    · simp [hasPrefix, List.isPrefixOf]
    · simp [hasPrefix, List.isPrefixOf]

theorem countryGroup_ne (ip : IP) (code : String) :
    countryGroup code ≠ (classified resolved ip).id := by
  intro same
  have isCountry := hasPrefix_countryGroup code
  rw [same, classified, hasPrefix_classify] at isCountry
  cases isCountry

theorem countryGroup_injective : Function.Injective countryGroup := by
  intro left right same
  have parts := congrArg String.toList same
  simp only [countryGroup, String.toList_append, List.append_cancel_left_eq] at parts
  exact String.toList_inj.mp parts

/-- The address of a country group has that country. -/
theorem inGroup_country {code : String} (ip : IP) :
    InGroup resolved (countryGroup code) ip ↔
      (classified resolved ip).code ≠ "" ∧ (classified resolved ip).code = code := by
  constructor
  · rintro (isPlace | ⟨known, same⟩)
    · exact absurd isPlace.symm (countryGroup_ne resolved ip code)
    · exact ⟨known, countryGroup_injective same⟩
  · rintro ⟨known, rfl⟩
    exact .inr ⟨known, rfl⟩

/-- The address of any other group has that place. -/
theorem inGroup_place {id : String} (isPlace : hasPrefix id "country:" = false) (ip : IP) :
    InGroup resolved id ip ↔ (classified resolved ip).id = id := by
  constructor
  · rintro (same | ⟨_, rfl⟩)
    · exact same
    · rw [hasPrefix_countryGroup] at isPlace
      cases isPlace
  · exact .inl

end Groups

/-- The counter of a category. -/
def Quality.counter (quality : Quality) : Category → ℕ
  | .located => quality.located
  | .countryOnly => quality.countryOnly
  | .private => quality.private
  | .notFound => quality.notFound
  | .unavailable => quality.unavailable

theorem Quality.counter_count (quality : Quality) (category other : Category) :
    (quality.count category).counter other =
      quality.counter other + if category = other then 1 else 0 := by
  cases category <;> cases other <;> rfl

section Registered

variable (resolved : Resolutions)

/-- The counted addresses. -/
structure Registered (ips : Finset IP) (pass : Pass) : Prop where
  seen : ∀ ip, pass.seen[ip]? =
    if ip ∈ ips then some (classified resolved ip).groups else none
  size : pass.seen.size = ips.card
  quality : ∀ category, pass.quality.counter category =
    (ips.filter fun ip => (classified resolved ip).category = category).card
  locations : Tallies (·.dto.uniqueIPs) pass.locations fun id =>
    (ips.filter fun ip => (classified resolved ip).id = id).card
  countries : Tallies (·.uniqueIPs) pass.countries fun code =>
    ((ips.filter fun ip => (classified resolved ip).code ≠ "").filter fun ip =>
      (classified resolved ip).code = code).card
  locationIDs : ∀ (id : String) b, pass.locations[id]? = some b → b.dto.id = id
  countryIDs : ∀ (code : String) c, pass.countries[code]? = some c →
    c.id = countryGroup code ∧ c.countryCode = code

variable {resolved} {ips : Finset IP} {pass : Pass}

theorem registered_start : Registered resolved ∅ .start where
  seen := by simp [Pass.start]
  size := rfl
  quality category := by cases category <;> rfl
  locations := Tallies.empty
  countries := Tallies.empty
  locationIDs := by simp [Pass.start]
  countryIDs := by simp [Pass.start]

/-- Only these variables matter. -/
theorem Registered.congr {other : Pass} (registered : Registered resolved ips pass)
    (seen : other.seen = pass.seen) (quality : other.quality = pass.quality)
    (locations : other.locations = pass.locations) (countries : other.countries = pass.countries) :
    Registered resolved ips other where
  seen := seen ▸ registered.seen
  size := seen ▸ registered.size
  quality := quality ▸ registered.quality
  locations := locations ▸ registered.locations
  countries := countries ▸ registered.countries
  locationIDs := locations ▸ registered.locationIDs
  countryIDs := countries ▸ registered.countryIDs

theorem LocationBuilder.add_uniqueIPs (c : Classified) (b : LocationBuilder) :
    (b.add c).dto.uniqueIPs = b.dto.uniqueIPs + 1 := by
  unfold LocationBuilder.add
  dsimp only
  split
  · rfl
  · split <;> rfl

theorem LocationBuilder.add_id (c : Classified) (b : LocationBuilder) :
    (b.add c).dto.id = b.dto.id := by
  unfold LocationBuilder.add
  dsimp only
  split
  · rfl
  · split <;> rfl

theorem Country.add_uniqueIPs (r : Option Result) (c : Country) :
    (c.add r).uniqueIPs = c.uniqueIPs + 1 := by
  cases r <;> rfl

theorem Country.add_id (r : Option Result) (c : Country) :
    (c.add r).id = c.id ∧ (c.add r).countryCode = c.countryCode := by
  cases r <;> exact ⟨rfl, rfl⟩

/-- A new address is counted in its category, at its place and in its country. -/
theorem Registered.record (registered : Registered resolved ips pass) {ip : IP}
    (isNew : ip ∉ ips) :
    Registered resolved (insert ip ips) (pass.record ip (classified resolved ip)) where
  seen other := by
    simp only [Pass.record, Table.lookup_insert, registered.seen other, Finset.mem_insert]
    by_cases here : ip = other
    · simp [here]
    · simp [here, Ne.symm here]
  size := by
    have absent : pass.seen[ip]? = none := by rw [registered.seen, if_neg isNew]
    rw [Finset.card_insert_of_notMem isNew, ← registered.size]
    exact Table.size_insert_of_none absent _
  quality category := by
    have counted : (pass.record ip (classified resolved ip)).quality.counter category =
        (pass.quality.count (classified resolved ip).category).counter category := by
      simp only [Pass.record]
      split
      · cases category <;> rfl
      · rfl
    rw [counted, Quality.counter_count, registered.quality, card_filter_insert isNew]
  locations := by
    have tallies := registered.locations.alter
      (LocationBuilder.add_uniqueIPs (classified resolved ip))
      (show (LocationBuilder.new (classified resolved ip)).dto.uniqueIPs = 0 from rfl)
      (classified resolved ip).id
    apply tallies.congr
    intro id
    rw [card_filter_insert isNew]
    simp only [eq_comm]
  countries := by
    have split (code : String) : (((insert ip ips).filter fun ip =>
        (classified resolved ip).code ≠ "").filter fun ip =>
        (classified resolved ip).code = code).card =
        ((ips.filter fun ip => (classified resolved ip).code ≠ "").filter fun ip =>
          (classified resolved ip).code = code).card +
        if (classified resolved ip).code ≠ "" ∧ (classified resolved ip).code = code
          then 1 else 0 := by
      rw [Finset.filter_filter, Finset.filter_filter, card_filter_insert isNew]
    simp only [Pass.record]
    by_cases known : (classified resolved ip).code ≠ ""
    · rw [if_pos known]
      have tallies := registered.countries.alter (Country.add_uniqueIPs (classified resolved ip).r)
        (show (Country.new (classified resolved ip).code).uniqueIPs = 0 from rfl)
        (classified resolved ip).code
      apply tallies.congr
      intro code
      rw [split]
      simp only [known, eq_comm, ne_eq, not_false_eq_true, true_and]
    · rw [if_neg known]
      apply registered.countries.congr
      intro code
      rw [split, if_neg fun both => known both.1, Nat.add_zero]
  locationIDs id b found := by
    simp only [Pass.record, Table.lookup_alter] at found
    split at found
    · rename_i here
      rw [← Option.some.inj found, LocationBuilder.add_id]
      cases known : pass.locations[(classified resolved ip).id]? with
      | none => exact here
      | some old =>
          rw [← here]
          exact registered.locationIDs _ old known
    · exact registered.locationIDs id b found
  countryIDs code c found := by
    simp only [Pass.record] at found
    split at found
    · rw [Table.lookup_alter] at found
      split at found
      · rename_i here
        have kept := Country.add_id (classified resolved ip).r
          ((pass.countries[(classified resolved ip).code]?).getD
            (.new (classified resolved ip).code))
        rw [Option.some.inj found] at kept
        rw [kept.1, kept.2, ← here]
        cases known : pass.countries[(classified resolved ip).code]? with
        | none => exact ⟨rfl, rfl⟩
        | some old => exact registered.countryIDs _ old known
      · exact registered.countryIDs code c found
    · exact registered.countryIDs code c found

/-- The groups of an address are those of its classification. -/
theorem Registered.groupsOf (registered : Registered resolved ips pass) (ip : IP) :
    (pass.groupsOf resolved ip).1 = (classified resolved ip).groups ∧
      Registered resolved (insert ip ips) (pass.groupsOf resolved ip).2 := by
  have known := registered.seen ip
  unfold Pass.groupsOf
  by_cases counted : ip ∈ ips
  · rw [if_pos counted] at known
    rw [known, Finset.insert_eq_of_mem counted]
    exact ⟨rfl, registered⟩
  · rw [if_neg counted] at known
    rw [known]
    exact ⟨rfl, registered.record counted⟩

end Registered

section Accounts

/-- The interned accounts, of which the current one is the last. -/
structure Interned (usernames : Finset String) (pass : Pass) : Prop where
  increasing : pass.accounts.Pairwise (· < ·)
  mem : ∀ username, username ∈ pass.accounts ↔ username ∈ usernames
  last : pass.accounts ≠ [] → pass.account + 1 = pass.accounts.length

variable {usernames : Finset String} {pass : Pass}

theorem interned_start : Interned ∅ .start where
  increasing := List.Pairwise.nil
  mem := by simp [Pass.start]
  last nonempty := absurd rfl nonempty

theorem Interned.congr {other : Pass} (interned : Interned usernames pass)
    (accounts : other.accounts = pass.accounts) (account : other.account = pass.account) :
    Interned usernames other where
  increasing := accounts ▸ interned.increasing
  mem := accounts ▸ interned.mem
  last := accounts ▸ account ▸ interned.last

/-- An account that is not before any other and is not the last one is new. -/
theorem Interned.behind (interned : Interned usernames pass) {username : String}
    (latest : ∀ other ∈ usernames, other ≤ username)
    (isNew : pass.accounts.getLast? ≠ some username) :
    ∀ other ∈ pass.accounts, other < username := by
  intro other mem
  apply lt_of_le_of_ne (latest other ((interned.mem other).mp mem))
  rintro rfl
  rcases List.eq_nil_or_concat pass.accounts with isEmpty | ⟨front, last, split⟩
  · rw [isEmpty] at mem
    cases mem
  · rw [split] at mem isNew
    have increasing := interned.increasing
    rw [split, List.concat_eq_append] at increasing
    rw [List.concat_eq_append] at mem isNew
    rw [List.getLast?_concat] at isNew
    have lastKnown : last ∈ usernames := by
      rw [← interned.mem, split]
      simp
    rcases List.mem_append.mp mem with early | there
    · have less := (List.pairwise_append.mp increasing).2.2 other early last
        (List.mem_singleton_self _)
      exact absurd less (not_lt.mpr (latest last lastKnown))
    · exact isNew (congrArg some (List.mem_singleton.mp there).symm)

/-- An account that is not before any other becomes the last one. -/
theorem Interned.intern (interned : Interned usernames pass) {username : String}
    (latest : ∀ other ∈ usernames, other ≤ username) :
    Interned (insert username usernames) (pass.intern username) ∧
      (pass.intern username).accounts[(pass.intern username).account]? = some username := by
  unfold Pass.intern
  by_cases isLast : pass.accounts.getLast? = some username
  · have known := (interned.mem username).mp (List.mem_of_getLast? isLast)
    have nonempty : pass.accounts ≠ [] := by
      intro isEmpty
      rw [isEmpty] at isLast
      cases isLast
    rw [if_pos isLast, Finset.insert_eq_of_mem known]
    refine ⟨interned, ?_⟩
    rw [List.getLast?_eq_getElem?, ← interned.last nonempty] at isLast
    exact isLast
  · rw [if_neg isLast]
    have behind := interned.behind latest isLast
    refine ⟨⟨?_, ?_, ?_⟩, ?_⟩
    · apply List.pairwise_append.mpr
      refine ⟨interned.increasing, List.pairwise_singleton _ _, ?_⟩
      intro other mem new isNew
      rw [List.mem_singleton.mp isNew]
      exact behind other mem
    · intro other
      rw [List.mem_append, List.mem_singleton, interned.mem, Finset.mem_insert, or_comm]
    · intro _
      simp
    · simp

end Accounts

section Members

/-- The numbers of addresses of the accounts in the groups. -/
structure Membered (number : String → ℕ → ℕ) (pass : Pass) : Prop where
  groupIDs : ∀ (group : String) index,
    pass.groupIDs[group]? = some index ↔ pass.groupNames[index]? = some group
  counts : Tallies id pass.counts fun key =>
    (pass.groupNames[key.group]?).elim 0 fun group => number group key.account
  named : ∀ group account, 0 < number group account → group ∈ pass.groupNames

variable {number : String → ℕ → ℕ} {pass : Pass}

theorem membered_start : Membered (fun _ _ => 0) .start where
  groupIDs := by simp [Pass.start]
  counts := by
    apply Tallies.empty.congr
    intro key
    rfl
  named := by simp

theorem Membered.congr {other : Pass} {amount : String → ℕ → ℕ} (membered : Membered number pass)
    (groupIDs : other.groupIDs = pass.groupIDs) (groupNames : other.groupNames = pass.groupNames)
    (counts : other.counts = pass.counts)
    (same : ∀ group account, number group account = amount group account) :
    Membered amount other := by
  have sameNumber : number = amount := funext fun group => funext (same group)
  subst sameNumber
  exact {
    groupIDs := groupIDs ▸ groupNames ▸ membered.groupIDs
    counts := counts ▸ groupNames ▸ membered.counts
    named := groupNames ▸ membered.named }

theorem Membered.eq_of_name (membered : Membered number pass) {group : String} {left right : ℕ}
    (first : pass.groupNames[left]? = some group) (second : pass.groupNames[right]? = some group) :
    left = right := by
  have known := (membered.groupIDs group left).mpr first
  rw [(membered.groupIDs group right).mpr second] at known
  exact (Option.some.inj known).symm

/-- A group has an index from its first use on. -/
theorem Membered.groupIndex (membered : Membered number pass) (group : String) :
    Membered number (pass.groupIndex group).2 ∧
      (pass.groupIndex group).2.groupNames[(pass.groupIndex group).1]? = some group := by
  unfold Pass.groupIndex
  cases known : pass.groupIDs[group]? with
  | some index => exact ⟨membered, (membered.groupIDs group index).mp known⟩
  | none =>
      have fresh (index : ℕ) : pass.groupNames[index]? ≠ some group := by
        intro there
        rw [(membered.groupIDs group index).mpr there] at known
        cases known
      refine ⟨⟨?_, ?_, ?_⟩, by simp⟩
      · intro other index
        dsimp only
        rw [Table.lookup_insert, List.getElem?_append]
        by_cases here : group = other
        · subst here
          rw [if_pos rfl]
          split
          · rename_i inside
            constructor
            · intro same
              cases same
              exact absurd inside (lt_irrefl _)
            · intro there
              exact absurd there (fresh index)
          · rename_i outside
            constructor
            · intro same
              cases same
              simp
            · intro there
              have bound := (List.getElem?_eq_some_iff.mp there).1
              rw [List.length_singleton] at bound
              exact congrArg some (by omega)
        · rw [if_neg here, membered.groupIDs]
          split
          · rfl
          · rename_i outside
            rw [List.getElem?_eq_none (not_lt.mp outside)]
            constructor
            · intro absurd
              cases absurd
            · intro there
              have mem := List.mem_of_getElem? there
              exact absurd (List.mem_singleton.mp mem).symm here
      · apply membered.counts.congr
        intro key
        dsimp only
        rw [List.getElem?_append]
        split
        · rfl
        · rename_i outside
          rw [List.getElem?_eq_none (not_lt.mp outside), Option.elim_none]
          cases there : [group][key.group - pass.groupNames.length]? with
          | none => rfl
          | some other =>
              have same := List.mem_singleton.mp (List.mem_of_getElem? there)
              rw [Option.elim_some, same]
              by_contra counted
              rcases List.getElem?_of_mem (membered.named group _
                (Nat.pos_of_ne_zero (Ne.symm counted))) with ⟨index, found⟩
              exact fresh index found
      · intro other account counted
        exact List.mem_append_left _ (membered.named other account counted)

/-- One more address of an account in a group. -/
theorem Membered.addMember (membered : Membered number pass) (group : String) (account : ℕ) :
    Membered (fun other owner =>
        number other owner + if other = group ∧ owner = account then 1 else 0)
      (pass.addMember group account) := by
  rcases membered.groupIndex group with ⟨indexed, named⟩
  refine ⟨indexed.groupIDs, ?_, ?_⟩
  · apply (indexed.counts.alter (show ∀ n : ℕ, id (n + 1) = id n + 1 from fun _ => rfl)
      (show id 0 = 0 from rfl) ⟨(pass.groupIndex group).1, account⟩).congr
    intro key
    by_cases here : key = ⟨(pass.groupIndex group).1, account⟩
    · subst here
      dsimp only [Pass.addMember]
      simp [named]
    · rw [if_neg here, Nat.add_zero]
      dsimp only [Pass.addMember]
      cases name : (pass.groupIndex group).2.groupNames[key.group]? with
      | none => rfl
      | some other =>
          rw [Option.elim_some, Option.elim_some, if_neg, Nat.add_zero]
          rintro ⟨rfl, rfl⟩
          apply here
          rw [← indexed.eq_of_name name named]
  · intro other owner counted
    by_cases here : other = group
    · subst here
      exact List.mem_of_getElem? named
    · rw [if_neg fun both => here both.1, Nat.add_zero] at counted
      exact indexed.named other owner counted

end Members

end TelemtPanel.Geography
