import TelemtPanel.Geography.Passes

/-!
# Members of the groups

The counts are keyed by the indices of groups and accounts.  Collected by group they list the
accounts that have an address in it, each with the number of these addresses.
-/

namespace TelemtPanel.Geography

open TelemtPanel.Library GeoIP

section Members

variable {resolved : Resolutions} {pairs : Finset Pair} {pass : Pass}

/-- The accounts that have an address in a group. -/
def accountsIn (resolved : Resolutions) (pairs : Finset Pair) (group : String) : Finset String :=
  (usernames pairs).filter fun username =>
    0 < ((addressesOf pairs username).filter (InGroup resolved group)).card

theorem mem_accountsIn {group username : String} : username ∈ accountsIn resolved pairs group ↔
    0 < ((addressesOf pairs username).filter (InGroup resolved group)).card := by
  rw [accountsIn, Finset.mem_filter, and_iff_right_iff_imp]
  intro counted
  rcases Finset.card_pos.mp counted with ⟨ip, mem⟩
  exact Finset.mem_image.mpr ⟨_, mem_addressesOf.mp (Finset.mem_filter.mp mem).1, rfl⟩

/-- Groups of addresses are those that have accounts. -/
theorem exists_mem_accountsIn {group : String} :
    (accountsIn resolved pairs group).Nonempty ↔
      0 < ((addresses pairs).filter (InGroup resolved group)).card := by
  rw [Finset.card_pos]
  constructor
  · rintro ⟨username, mem⟩
    rcases Finset.card_pos.mp (mem_accountsIn.mp mem) with ⟨ip, there⟩
    rcases Finset.mem_filter.mp there with ⟨known, inside⟩
    exact ⟨ip, Finset.mem_filter.mpr ⟨Finset.mem_image.mpr
      ⟨_, mem_addressesOf.mp known, rfl⟩, inside⟩⟩
  · rintro ⟨ip, mem⟩
    rcases Finset.mem_filter.mp mem with ⟨known, inside⟩
    rcases Finset.mem_image.mp known with ⟨p, there, rfl⟩
    exact ⟨p.username, mem_accountsIn.mpr (Finset.card_pos.mpr
      ⟨p.ip, Finset.mem_filter.mpr ⟨mem_addressesOf.mpr there, inside⟩⟩)⟩

namespace Counts

/-- What the counts know of an account in a group. -/
theorem mem_counts (counts : Counts resolved pairs pass) {key : GroupAccount} {n : ℕ} :
    (key, n) ∈ pass.counts.toList ↔ ∃ group, pass.groupNames[key.group]? = some group ∧
      numberOf resolved pairs pass.accounts group key.account = n ∧ 0 < n := by
  rw [Table.mem_toList]
  constructor
  · intro found
    rcases counts.membered.counts.size_eq found with ⟨same, counted⟩
    dsimp only [id] at same counted
    cases named : pass.groupNames[key.group]? with
    | none =>
        rw [named] at counted
        exact absurd counted (lt_irrefl _)
    | some group =>
        rw [named, Option.elim_some] at same counted
        exact ⟨group, rfl, same.symm, same ▸ counted⟩
  · rintro ⟨group, named, same, positive⟩
    have number : (pass.groupNames[key.group]?).elim 0 (fun group =>
        numberOf resolved pairs pass.accounts group key.account) = n := by
      rw [named, Option.elim_some, same]
    have tally := counts.membered.counts.map_eq (number ▸ positive)
    rw [number, Option.map_id] at tally
    exact tally

/-- The counts of a group. -/
def groupRows (pass : Pass) (group : String) : List (GroupAccount × ℕ) :=
  pass.counts.toList.filter fun row => groupName pass.groupNames row.1.group = group

theorem lookup_members (pass : Pass) (group : String) :
    pass.members[group]? =
      if groupRows pass group = [] then none
      else some ((groupRows pass group).map fun row => ⟨row.1.account, row.2⟩) :=
  Table.lookup_collect (fun row : GroupAccount × ℕ => groupName pass.groupNames row.1.group)
    (fun row => (⟨row.1.account, row.2⟩ : Membership)) _ _

theorem mem_groupRows (counts : Counts resolved pairs pass) {group : String}
    {row : GroupAccount × ℕ} : row ∈ groupRows pass group ↔
      pass.groupNames[row.1.group]? = some group ∧
        numberOf resolved pairs pass.accounts group row.1.account = row.2 ∧ 0 < row.2 := by
  rw [groupRows, List.mem_filter, counts.mem_counts, decide_eq_true_eq]
  constructor
  · rintro ⟨⟨other, named, same, positive⟩, isGroup⟩
    rw [groupName, named, Option.getD_some] at isGroup
    subst isGroup
    exact ⟨named, same, positive⟩
  · rintro ⟨named, same, positive⟩
    exact ⟨⟨group, named, same, positive⟩, by rw [groupName, named, Option.getD_some]⟩

/-- The members of a group are the accounts with an address in it. -/
theorem mem_members (counts : Counts resolved pairs pass) {group : String}
    {members : List Membership} (found : pass.members[group]? = some members) :
    (members.map (·.account)).Nodup ∧ ∀ m, m ∈ members ↔
      numberOf resolved pairs pass.accounts group m.account = m.uniqueIPs ∧ 0 < m.uniqueIPs := by
  rw [lookup_members] at found
  split at found
  · cases found
  · rename_i nonempty
    rw [← Option.some.inj found]
    constructor
    · rw [List.map_map]
      apply List.pairwise_map.mpr
      have distinct := (List.pairwise_map.mp (Table.nodup_keys pass.counts)).filter
        (fun row => groupName pass.groupNames row.1.group = group)
      apply distinct.imp_of_mem
      intro left right leftMem rightMem differ same
      have sameGroup := counts.membered.eq_of_name (counts.mem_groupRows.mp leftMem).1
        (counts.mem_groupRows.mp rightMem).1
      exact differ (GroupAccount.ext sameGroup same)
    · intro m
      rw [List.mem_map]
      constructor
      · rintro ⟨row, mem, rfl⟩
        exact (counts.mem_groupRows.mp mem).2
      · rintro ⟨same, positive⟩
        rcases List.exists_mem_of_ne_nil _ nonempty with ⟨first, there⟩
        exact ⟨(⟨first.1.group, m.account⟩, m.uniqueIPs), counts.mem_groupRows.mpr
          ⟨(counts.mem_groupRows.mp there).1, same, positive⟩, rfl⟩

/-- An account has a place in the list. -/
theorem exists_account (counts : Counts resolved pairs pass) {username : String}
    (known : username ∈ usernames pairs) : ∃ account,
      pass.accounts[account]? = some username ∧ ∀ group,
        numberOf resolved pairs pass.accounts group account =
          ((addressesOf pairs username).filter (InGroup resolved group)).card := by
  rcases List.getElem?_of_mem ((counts.interned.mem username).mpr known) with ⟨account, named⟩
  refine ⟨account, named, ?_⟩
  intro group
  rw [numberOf, named, Option.elim_some]

/-- Only accounts have addresses. -/
theorem exists_name {accounts : List String} {group : String} {account : ℕ}
    (positive : 0 < numberOf resolved pairs accounts group account) : ∃ username,
      accounts[account]? = some username ∧ username ∈ accountsIn resolved pairs group := by
  rw [numberOf] at positive
  cases named : accounts[account]? with
  | none =>
      rw [named] at positive
      exact absurd positive (lt_irrefl _)
  | some username =>
      rw [named, Option.elim_some] at positive
      exact ⟨username, rfl, mem_accountsIn.mpr positive⟩

/-- Groups without addresses have no list. -/
theorem isSome_members (counts : Counts resolved pairs pass) {group : String} :
    pass.members[group]?.isSome = true ↔ (accountsIn resolved pairs group).Nonempty := by
  have nonempty : pass.members[group]?.isSome = true ↔ groupRows pass group ≠ [] := by
    rw [lookup_members]
    split <;> simp [*]
  rw [nonempty]
  constructor
  · intro rows
    rcases List.exists_mem_of_ne_nil _ rows with ⟨row, mem⟩
    rcases counts.mem_groupRows.mp mem with ⟨-, same, positive⟩
    rcases exists_name (same ▸ positive) with ⟨username, -, inside⟩
    exact ⟨username, inside⟩
  · rintro ⟨username, mem⟩ isEmpty
    rcases counts.exists_account (Finset.mem_filter.mp mem).1 with ⟨account, named, number⟩
    have positive := mem_accountsIn.mp mem
    rw [← number group] at positive
    rcases List.getElem?_of_mem (counts.membered.named group account positive) with
      ⟨index, indexed⟩
    have row : ((⟨index, account⟩ : GroupAccount),
        numberOf resolved pairs pass.accounts group account) ∈ groupRows pass group :=
      counts.mem_groupRows.mpr ⟨indexed, rfl, positive⟩
    rw [isEmpty] at row
    cases row

theorem name_of_mem (counts : Counts resolved pairs pass) {group : String}
    {members : List Membership} (found : pass.members[group]? = some members) {m : Membership}
    (mem : m ∈ members) : ∃ username, pass.accounts[m.account]? = some username ∧
      username ∈ accountsIn resolved pairs group := by
  rcases ((counts.mem_members found).2 m).mp mem with ⟨same, positive⟩
  exact exists_name (same ▸ positive)

/-- Different members have different names. -/
theorem nodup_names (counts : Counts resolved pairs pass) {group : String}
    {members : List Membership} (found : pass.members[group]? = some members) :
    (members.map fun m => accountName pass.accounts m.account).Nodup := by
  apply List.pairwise_map.mpr
  apply (List.pairwise_map.mp (counts.mem_members found).1).imp_of_mem
  intro left right leftMem rightMem differ same
  rcases counts.name_of_mem found leftMem with ⟨first, isFirst, -⟩
  rcases counts.name_of_mem found rightMem with ⟨second, isSecond, -⟩
  rw [accountName, accountName, isFirst, isSecond, Option.getD_some, Option.getD_some] at same
  subst same
  have bound := (List.getElem?_eq_some_iff.mp isFirst).1
  exact differ ((List.getElem?_inj bound (counts.interned.increasing.imp ne_of_lt)).mp
    (isFirst.trans isSecond.symm))

/-- The members are the accounts that have an address in the group. -/
theorem length_members (counts : Counts resolved pairs pass) {group : String}
    {members : List Membership} (found : pass.members[group]? = some members) :
    members.length = (accountsIn resolved pairs group).card := by
  have same : (members.map fun m => accountName pass.accounts m.account).toFinset =
      accountsIn resolved pairs group := by
    ext username
    rw [List.mem_toFinset, List.mem_map]
    constructor
    · rintro ⟨m, there, rfl⟩
      rcases counts.name_of_mem found there with ⟨username, isUsername, inside⟩
      rwa [accountName, isUsername, Option.getD_some]
    · intro inside
      rcases counts.exists_account (Finset.mem_filter.mp inside).1 with ⟨account, named, number⟩
      have positive := mem_accountsIn.mp inside
      rw [← number group] at positive
      refine ⟨⟨account, _⟩, ((counts.mem_members found).2 _).mpr ⟨rfl, positive⟩, ?_⟩
      rw [accountName, named, Option.getD_some]
  rw [← same, List.toFinset_card_of_nodup (counts.nodup_names found), List.length_map]

end Counts
end Members

end TelemtPanel.Geography
