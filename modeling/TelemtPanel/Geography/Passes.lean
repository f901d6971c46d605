import TelemtPanel.Geography.Counting

/-!
# Counting over a whole pass

Visiting a pair behind all earlier ones adds its address to those of its account, and a new
address to all counts.  A pass therefore ends with the cardinalities of sets of pairs.
-/

namespace TelemtPanel.Geography

open TelemtPanel.Library GeoIP

section Sets

variable (resolved : Resolutions) (pairs : Finset Pair)

def addresses : Finset IP := pairs.image (·.ip)

def usernames : Finset String := pairs.image (·.username)

/-- The addresses of an account. -/
def addressesOf (username : String) : Finset IP :=
  addresses (pairs.filter (·.username = username))

/-- The number of addresses of an account in a group. -/
def numberOf (accounts : List String) (group : String) (account : ℕ) : ℕ :=
  (accounts[account]?).elim 0 fun username =>
    ((addressesOf pairs username).filter (InGroup resolved group)).card

variable {pairs}

theorem addresses_insert (p : Pair) :
    addresses (insert p pairs) = insert p.ip (addresses pairs) :=
  Finset.image_insert _ _ _

theorem usernames_insert (p : Pair) :
    usernames (insert p pairs) = insert p.username (usernames pairs) :=
  Finset.image_insert _ _ _

theorem mem_addressesOf {username : String} {ip : IP} :
    ip ∈ addressesOf pairs username ↔ ⟨username, ip⟩ ∈ pairs := by
  simp only [addressesOf, addresses, Finset.mem_image, Finset.mem_filter]
  constructor
  · rintro ⟨p, ⟨mem, rfl⟩, rfl⟩
    exact mem
  · intro mem
    exact ⟨_, ⟨mem, rfl⟩, rfl⟩

theorem addressesOf_insert (p : Pair) (username : String) :
    addressesOf (insert p pairs) username =
      if p.username = username then insert p.ip (addressesOf pairs username)
      else addressesOf pairs username := by
  rw [addressesOf, Finset.filter_insert]
  split
  · exact addresses_insert p
  · rfl

theorem addressesOf_eq_empty {username : String} (unknown : username ∉ usernames pairs) :
    addressesOf pairs username = ∅ := by
  apply Finset.eq_empty_of_forall_notMem
  intro ip mem
  exact unknown (Finset.mem_image.mpr ⟨_, mem_addressesOf.mp mem, rfl⟩)

end Sets

section Frames

variable {resolved : Resolutions} {ips : Finset IP} {names : Finset String}
  {number : String → ℕ → ℕ} {pass : Pass}

theorem Registered.intern (registered : Registered resolved ips pass) (username : String) :
    Registered resolved ips (pass.intern username) := by
  rcases pass.intern_eq username with ⟨_, _, same⟩
  rw [same]
  exact registered.congr rfl rfl rfl rfl

theorem Membered.intern (membered : Membered number pass) (username : String) :
    Membered number (pass.intern username) := by
  rcases pass.intern_eq username with ⟨_, _, same⟩
  rw [same]
  exact membered.congr rfl rfl rfl fun _ _ => rfl

theorem Interned.groupsOf (interned : Interned names pass) (ip : IP) :
    Interned names (pass.groupsOf resolved ip).2 := by
  rcases @Pass.groupsOf_eq resolved pass ip with ⟨_, _, _, _, same⟩
  rw [same]
  exact interned.congr rfl rfl

theorem Membered.groupsOf (membered : Membered number pass) (ip : IP) :
    Membered number (pass.groupsOf resolved ip).2 := by
  rcases @Pass.groupsOf_eq resolved pass ip with ⟨_, _, _, _, same⟩
  rw [same]
  exact membered.congr rfl rfl rfl fun _ _ => rfl

theorem Registered.addMember (registered : Registered resolved ips pass) (group : String)
    (account : ℕ) : Registered resolved ips (pass.addMember group account) := by
  rcases pass.addMember_eq group account with ⟨_, _, _, same⟩
  rw [same]
  exact registered.congr rfl rfl rfl rfl

theorem Interned.addMember (interned : Interned names pass) (group : String) (account : ℕ) :
    Interned names (pass.addMember group account) := by
  rcases pass.addMember_eq group account with ⟨_, _, _, same⟩
  rw [same]
  exact interned.congr rfl rfl

theorem Pass.groupsOf_accounts (pass : Pass) (ip : IP) :
    (pass.groupsOf resolved ip).2.accounts = pass.accounts ∧
      (pass.groupsOf resolved ip).2.account = pass.account := by
  rcases @Pass.groupsOf_eq resolved pass ip with ⟨_, _, _, _, same⟩
  rw [same]
  exact ⟨rfl, rfl⟩

theorem Pass.addMember_accounts (pass : Pass) (group : String) (account : ℕ) :
    (pass.addMember group account).accounts = pass.accounts ∧
      (pass.addMember group account).account = pass.account := by
  rcases pass.addMember_eq group account with ⟨_, _, _, same⟩
  rw [same]
  exact ⟨rfl, rfl⟩

end Frames

/-- The variables of a pass over the pairs of a set. -/
structure Counts (resolved : Resolutions) (pairs : Finset Pair) (pass : Pass) : Prop where
  registered : Registered resolved (addresses pairs) pass
  interned : Interned (usernames pairs) pass
  membered : Membered (numberOf resolved pairs pass.accounts) pass

namespace Counts

variable {resolved : Resolutions} {pairs : Finset Pair} {pass : Pass}

theorem start : Counts resolved ∅ .start where
  registered := registered_start
  interned := interned_start
  membered := membered_start.congr rfl rfl rfl fun _ _ => rfl

/-- A new account has no addresses so far. -/
theorem numberOf_intern (counts : Counts resolved pairs pass) {username : String}
    (latest : ∀ other ∈ usernames pairs, other ≤ username) :
    numberOf resolved pairs (pass.intern username).accounts =
      numberOf resolved pairs pass.accounts := by
  funext group account
  unfold Pass.intern
  split
  · rfl
  · rename_i isNew
    have unknown : username ∉ usernames pairs := by
      intro known
      have less := counts.interned.behind latest isNew username
        ((counts.interned.mem username).mpr known)
      exact lt_irrefl _ less
    dsimp only [numberOf]
    rw [List.getElem?_append]
    split
    · rfl
    · rename_i outside
      rw [List.getElem?_eq_none (not_lt.mp outside), Option.elim_none]
      cases found : [username][account - pass.accounts.length]? with
      | none => rfl
      | some other =>
          rw [List.mem_singleton.mp (List.mem_of_getElem? found), Option.elim_some,
            addressesOf_eq_empty unknown, Finset.filter_empty, Finset.card_empty]

/-- The numbers after a pair, of which the account is `account`. -/
theorem numberOf_insert {p : Pair} (isNew : p ∉ pairs) {accounts : List String}
    (distinct : accounts.Nodup) {account : ℕ} (named : accounts[account]? = some p.username)
    (group : String) (owner : ℕ) :
    numberOf resolved (insert p pairs) accounts group owner =
      numberOf resolved pairs accounts group owner +
        if InGroup resolved group p.ip ∧ owner = account then 1 else 0 := by
  dsimp only [numberOf]
  by_cases here : owner = account
  · subst here
    have fresh : p.ip ∉ addressesOf pairs p.username := by
      rw [mem_addressesOf]
      exact isNew
    rw [named, Option.elim_some, Option.elim_some, addressesOf_insert, if_pos rfl,
      card_filter_insert fresh]
    simp only [and_true]
  · rw [if_neg fun both => here both.2, Nat.add_zero]
    cases found : accounts[owner]? with
    | none => rfl
    | some username =>
        have other : p.username ≠ username := by
          intro same
          rw [same] at named
          have bound := (List.getElem?_eq_some_iff.mp found).1
          exact here ((List.getElem?_inj bound distinct).mp (found.trans named.symm))
        rw [Option.elim_some, Option.elim_some, addressesOf_insert, if_neg other]

/-- The memberships of the address of a pair. -/
theorem addMembers (resolved : Resolutions) {number : String → ℕ → ℕ}
    (membered : Membered number pass) (ip : IP) :
    Membered (fun group owner => number group owner +
        if InGroup resolved group ip ∧ owner = pass.account then 1 else 0)
      (if (classified resolved ip).groups.country ≠ "" then
        (pass.addMember (classified resolved ip).groups.location pass.account).addMember
          ("country:" ++ (classified resolved ip).groups.country) pass.account
      else pass.addMember (classified resolved ip).groups.location pass.account) := by
  have placed := membered.addMember (classified resolved ip).groups.location pass.account
  by_cases known : (classified resolved ip).groups.country ≠ ""
  · rw [if_pos known]
    apply (placed.addMember (countryGroup (classified resolved ip).groups.country)
      pass.account).congr rfl rfl rfl
    intro group owner
    have apart := countryGroup_ne resolved ip (classified resolved ip).code
    by_cases isCountry : group = countryGroup (classified resolved ip).groups.country
    · have inside : InGroup resolved group ip := .inr ⟨known, isCountry.symm⟩
      have elsewhere : group ≠ (classified resolved ip).groups.location := isCountry ▸ apart
      rw [if_neg fun both => elsewhere both.1, Nat.add_zero]
      exact congrArg _ (if_congr (and_congr_left' (iff_of_true isCountry inside)) rfl rfl)
    · have same : group = (classified resolved ip).groups.location ↔ InGroup resolved group ip :=
        ⟨fun here => .inl here.symm, fun inside =>
          inside.elim Eq.symm fun other => absurd other.2.symm isCountry⟩
      have absent : ¬(group = countryGroup (classified resolved ip).groups.country ∧
          owner = pass.account) := fun both => isCountry both.1
      rw [if_neg absent, Nat.add_zero]
      exact congrArg _ (if_congr (and_congr_left' same) rfl rfl)
  · rw [if_neg known]
    apply placed.congr rfl rfl rfl
    intro group owner
    have same : group = (classified resolved ip).groups.location ↔ InGroup resolved group ip :=
      ⟨fun here => .inl here.symm, fun inside =>
        inside.elim Eq.symm fun other => absurd other.1 known⟩
    exact congrArg _ (if_congr (and_congr_left' same) rfl rfl)

/-- Visiting a pair behind all others. -/
theorem visit (counts : Counts resolved pairs pass) {p : Pair}
    (behind : ∀ q ∈ pairs, q.order < p.order) :
    Counts resolved (insert p pairs) (pass.visit resolved p) := by
  have isNew : p ∉ pairs := fun mem => lt_irrefl _ (behind p mem)
  have latest : ∀ other ∈ usernames pairs, other ≤ p.username := by
    intro other mem
    rcases Finset.mem_image.mp mem with ⟨q, known, rfl⟩
    exact Prod.Lex.monotone_fst _ _ (behind q known).le
  set first := { pass with previous := p } with firstEq
  have started : Counts resolved pairs first := {
    registered := counts.registered.congr rfl rfl rfl rfl
    interned := counts.interned.congr rfl rfl
    membered := counts.membered.congr rfl rfl rfl fun _ _ => rfl }
  -- The account is interned, then the address is looked up.
  rcases started.interned.intern latest with ⟨interned, named⟩
  have unchanged := started.numberOf_intern latest
  set second := first.intern p.username with secondEq
  rcases (started.registered.intern p.username).groupsOf p.ip with ⟨groups, registered⟩
  rcases @Pass.groupsOf_accounts resolved second p.ip with ⟨sameAccounts, sameAccount⟩
  have known : Interned _ (second.groupsOf resolved p.ip).2 := interned.groupsOf p.ip
  have membered : Membered _ (second.groupsOf resolved p.ip).2 :=
    (started.membered.intern p.username).groupsOf p.ip
  have joined := addMembers resolved membered p.ip
  set third := (second.groupsOf resolved p.ip).2 with thirdEq
  have visited : pass.visit resolved p =
      if (classified resolved p.ip).groups.country ≠ "" then
        (third.addMember (classified resolved p.ip).groups.location third.account).addMember
          ("country:" ++ (classified resolved p.ip).groups.country) third.account
      else third.addMember (classified resolved p.ip).groups.location third.account := by
    unfold Pass.visit
    dsimp only
    rw [← firstEq, ← secondEq, groups, ← thirdEq, (third.addMember_accounts _ _).2]
  have accounts : (pass.visit resolved p).accounts = second.accounts := by
    rw [visited]
    split
    · rw [(Pass.addMember_accounts _ _ _).1, (Pass.addMember_accounts _ _ _).1, sameAccounts]
    · rw [(Pass.addMember_accounts _ _ _).1, sameAccounts]
  refine ⟨?_, ?_, ?_⟩
  · rw [addresses_insert, visited]
    split
    · exact (registered.addMember _ _).addMember _ _
    · exact registered.addMember _ _
  · rw [usernames_insert, visited]
    split
    · exact (known.addMember _ _).addMember _ _
    · exact known.addMember _ _
  · rw [accounts, visited]
    apply joined.congr rfl rfl rfl
    intro group owner
    rw [numberOf_insert isNew (interned.increasing.imp ne_of_lt) named, unchanged, sameAccount]

/-- A pass over increasing pairs. -/
theorem foldl_visit {visited : List Pair} (increasing : Increasing visited) :
    Counts resolved visited.toFinset (visited.foldl (Pass.visit resolved) .start) := by
  induction visited using List.reverseRecOn with
  | nil => exact start
  | append_singleton visited p ih =>
      rcases List.pairwise_append.mp increasing with ⟨front, _, ahead⟩
      have next := (ih front).visit (p := p) fun q mem =>
        ahead q (List.mem_toFinset.mp mem) p (List.mem_singleton_self p)
      rw [List.foldl_append, List.foldl_cons, List.foldl_nil]
      have same : (visited ++ [p]).toFinset = insert p visited.toFinset := by
        ext q
        simp
      rw [same]
      exact next

end Counts

end TelemtPanel.Geography
