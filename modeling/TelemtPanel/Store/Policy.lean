import Mathlib

/-!
# Storage policies

A storage policy switches one family of historical data on or off and bounds
its retention.  A store always holds one policy for each of the eight families.
The set comes either from the built-in defaults or from a list that passed
`validateStoragePolicies`, and `ActivePolicies` records that origin, so that a
store cannot hold an incomplete or out-of-range set.
-/

namespace TelemtPanel.Store

/-- Family of historical data.  Texts outside the known families can arrive from
outside and are kept as `other`. -/
inductive StorageCategory where
  | technical
  | events
  | audit
  | connectionIssues
  | traffic
  | userTraffic
  | userIPHistory
  | diagnostics
  | other (name : String)
deriving DecidableEq, Repr

namespace StorageCategory

/-- Text under which a family is stored and reported. -/
def name : StorageCategory → String
  | .technical => "technical"
  | .events => "events"
  | .audit => "audit"
  | .connectionIssues => "connection_issues"
  | .traffic => "traffic"
  | .userTraffic => "user_traffic"
  | .userIPHistory => "user_ip_history"
  | .diagnostics => "diagnostics"
  | .other name => name

end StorageCategory

/-- Controls persistence and retention for one history family. -/
structure StoragePolicy where
  category : StorageCategory
  enabled : Bool
  retentionDays : ℤ
  maxIPsPerUser : Option ℤ
deriving DecidableEq, Repr

def minRetentionDays : ℤ := 1

def maxRetentionDays : ℤ := 3650

def userIPPerUserLimit : ℤ := 256

def userIPSQLiteLimit : ℤ := 100000

/-- Stable order of the families in lists of policies. -/
def storageCategoryOrder : List StorageCategory :=
  [.technical, .events, .audit, .connectionIssues, .traffic, .userTraffic, .userIPHistory,
    .diagnostics]

/-- The recommended policy set. -/
def defaultStoragePolicies : List StoragePolicy :=
  [⟨.technical, true, 30, none⟩, ⟨.events, true, 30, none⟩, ⟨.audit, true, 90, none⟩,
    ⟨.connectionIssues, true, 30, none⟩, ⟨.traffic, true, 30, none⟩,
    ⟨.userTraffic, true, 365, none⟩, ⟨.userIPHistory, true, 30, some userIPPerUserLimit⟩,
    ⟨.diagnostics, true, 30, none⟩]

/-- Reasons for which a policy set is refused. -/
inductive StoragePolicyError where
  | categoryCount (got : ℕ)
  | unknownCategory (category : StorageCategory)
  | duplicateCategory (category : StorageCategory)
  | retentionDays (category : StorageCategory)
  | userIPHistoryDisabled
  | limitOutsideUserIPHistory
  | limitRange
deriving DecidableEq, Repr

/-- Text of a refusal. -/
def StoragePolicyError.text : StoragePolicyError → String
  | .categoryCount got => "storage policies: got " ++ toString got ++ " categories, want 8"
  | .unknownCategory category => "storage policies: unknown category \"" ++ category.name ++ "\""
  | .duplicateCategory category =>
      "storage policies: duplicate category \"" ++ category.name ++ "\""
  | .retentionDays category =>
      "storage policies: retention_days for \"" ++ category.name ++
        "\" must be between 1 and 3650"
  | .userIPHistoryDisabled => "storage policies: user_ip_history history cannot be disabled"
  | .limitOutsideUserIPHistory =>
      "storage policies: max_ips_per_user is only valid for user_ip_history"
  | .limitRange => "storage policies: max_ips_per_user must be between 0 and 100000"

/-- The checks made on one policy, given the families already seen. -/
def validateStoragePolicy (seen : List StorageCategory) (policy : StoragePolicy) :
    Except StoragePolicyError Unit :=
  if policy.category ∉ storageCategoryOrder then .error (.unknownCategory policy.category)
  else if policy.category ∈ seen then .error (.duplicateCategory policy.category)
  else if policy.retentionDays < minRetentionDays ∨ policy.retentionDays > maxRetentionDays then
    .error (.retentionDays policy.category)
  else if policy.category = .userIPHistory ∧ policy.enabled = false then
    .error .userIPHistoryDisabled
  else match policy.maxIPsPerUser with
    | none => .ok ()
    | some limit =>
        if policy.category ≠ .userIPHistory then .error .limitOutsideUserIPHistory
        else if limit < 0 ∨ limit > userIPSQLiteLimit then .error .limitRange
        else .ok ()

/-- The loop of `validateStoragePolicies`. -/
def validateStoragePolicyList (seen : List StorageCategory) :
    List StoragePolicy → Except StoragePolicyError Unit
  | [] => .ok ()
  | policy :: policies =>
      match validateStoragePolicy seen policy with
      | .error refusal => .error refusal
      | .ok () => validateStoragePolicyList (policy.category :: seen) policies

/-- Requires a complete, duplicate-free policy set. -/
def validateStoragePolicies (policies : List StoragePolicy) : Except StoragePolicyError Unit :=
  if policies.length ≠ storageCategoryOrder.length then .error (.categoryCount policies.length)
  else validateStoragePolicyList [] policies

/-- Resolves omitted and invalid per-user caps to the default; zero is unlimited. -/
def effectiveUserIPLimit (policy : StoragePolicy) : ℤ :=
  match policy.maxIPsPerUser with
  | none => userIPPerUserLimit
  | some limit => if limit < 0 ∨ limit > userIPSQLiteLimit then userIPPerUserLimit else limit

def cloneStoragePolicy (policy : StoragePolicy) : StoragePolicy :=
  match policy.maxIPsPerUser with
  | some _ => policy
  | none =>
      if policy.category = .userIPHistory then
        { policy with maxIPsPerUser := some userIPPerUserLimit }
      else policy

def storagePoliciesEqual (left right : StoragePolicy) : Bool :=
  left.category = right.category && left.enabled = right.enabled &&
    left.retentionDays = right.retentionDays &&
    effectiveUserIPLimit left = effectiveUserIPLimit right

/-- Retention of a policy in seconds. -/
def retentionSecs (policy : StoragePolicy) : ℤ := policy.retentionDays * 86400

/-- Policies addressed by their family. -/
abbrev PolicyMap : Type := StorageCategory → Option StoragePolicy

/-- Later entries of a list replace earlier ones of the same family. -/
def policyMap (policies : List StoragePolicy) : PolicyMap := fun category =>
  (policies.reverse.find? (·.category = category)).map cloneStoragePolicy

/-- Reading an absent family yields the zero policy. -/
def PolicyMap.get (policies : PolicyMap) (category : StorageCategory) : StoragePolicy :=
  (policies category).getD ⟨.other "", false, 0, none⟩

def policiesFromMap (policies : PolicyMap) : List StoragePolicy :=
  storageCategoryOrder.map fun category => cloneStoragePolicy (policies.get category)

/-- What `validateStoragePolicies` checks of a single policy of a known family. -/
structure StoragePolicy.Valid (policy : StoragePolicy) : Prop where
  known : policy.category ∈ storageCategoryOrder
  retentionLower : minRetentionDays ≤ policy.retentionDays
  retentionUpper : policy.retentionDays ≤ maxRetentionDays
  userIPHistoryEnabled : policy.category = .userIPHistory → policy.enabled = true
  limitFamily : policy.maxIPsPerUser ≠ none → policy.category = .userIPHistory
  limitRange : ∀ limit, policy.maxIPsPerUser = some limit → 0 ≤ limit ∧ limit ≤ userIPSQLiteLimit

theorem validateStoragePolicy_ok_iff {seen : List StorageCategory} {policy : StoragePolicy} :
    validateStoragePolicy seen policy = .ok () ↔ policy.Valid ∧ policy.category ∉ seen := by
  constructor
  · intro accepted
    unfold validateStoragePolicy at accepted
    split at accepted
    · cases accepted
    split at accepted
    · cases accepted
    split at accepted
    · cases accepted
    split at accepted
    · cases accepted
    rename_i known fresh range ipEnabled
    refine ⟨⟨by simpa using known, by omega, by omega, ?_, ?_, ?_⟩, fresh⟩
    · intro isIP
      cases enabled : policy.enabled with
      | true => rfl
      | false => exact absurd ⟨isIP, enabled⟩ ipEnabled
    · intro some_limit
      split at accepted
      · rename_i absent
        exact absurd absent some_limit
      · split at accepted
        · cases accepted
        · rename_i family
          simpa using family
    · intro limit isLimit
      rw [isLimit] at accepted
      simp only at accepted
      split at accepted
      · cases accepted
      · split at accepted
        · cases accepted
        · omega
  · rintro ⟨valid, fresh⟩
    have ipEnabled : ¬(policy.category = .userIPHistory ∧ policy.enabled = false) := by
      rintro ⟨isIP, disabled⟩
      rw [valid.userIPHistoryEnabled isIP] at disabled
      cases disabled
    have lower := valid.retentionLower
    have upper := valid.retentionUpper
    unfold validateStoragePolicy
    rw [if_neg (by simpa using valid.known), if_neg fresh, if_neg (by omega), if_neg ipEnabled]
    cases limitEq : policy.maxIPsPerUser with
    | none => rfl
    | some limit =>
        have range := valid.limitRange limit limitEq
        simp only
        rw [if_neg (by simpa using valid.limitFamily (by simp [limitEq])), if_neg (by omega)]

theorem validateStoragePolicyList_ok_iff {seen : List StorageCategory}
    {policies : List StoragePolicy} :
    validateStoragePolicyList seen policies = .ok () ↔
      (∀ policy ∈ policies, policy.Valid) ∧ (policies.map (·.category)).Nodup ∧
        ∀ policy ∈ policies, policy.category ∉ seen := by
  induction policies generalizing seen with
  | nil => simp [validateStoragePolicyList]
  | cons policy policies ih =>
      simp only [validateStoragePolicyList]
      cases checked : validateStoragePolicy seen policy with
      | error refusal =>
          have refused : ¬(policy.Valid ∧ policy.category ∉ seen) := by
            rw [← validateStoragePolicy_ok_iff, checked]
            simp
          simp only [List.mem_cons, forall_eq_or_imp, reduceCtorEq, false_iff]
          rintro ⟨⟨valid, -⟩, -, fresh, -⟩
          exact refused ⟨valid, fresh⟩
      | ok _ =>
          rcases validateStoragePolicy_ok_iff.mp checked with ⟨valid, fresh⟩
          simp only [ih, List.mem_cons, forall_eq_or_imp, List.map_cons, List.nodup_cons,
            List.mem_map, not_or, not_exists, not_and]
          constructor
          · rintro ⟨others, distinct, apart⟩
            exact ⟨⟨valid, others⟩, ⟨fun other mem same => (apart other mem).1 same, distinct⟩,
              fresh, fun other mem => (apart other mem).2⟩
          · rintro ⟨⟨-, others⟩, ⟨apart, distinct⟩, -, freshOthers⟩
            exact ⟨others, distinct, fun other mem => ⟨apart other mem, freshOthers other mem⟩⟩

theorem validateStoragePolicies_ok_iff {policies : List StoragePolicy} :
    validateStoragePolicies policies = .ok () ↔
      policies.length = storageCategoryOrder.length ∧ (∀ policy ∈ policies, policy.Valid) ∧
        (policies.map (·.category)).Nodup := by
  unfold validateStoragePolicies
  split
  · rename_i wrongLength
    simp [wrongLength]
  · rename_i rightLength
    simp only [validateStoragePolicyList_ok_iff, List.not_mem_nil, not_false_eq_true,
      implies_true, and_true]
    simp only [ne_eq, Decidable.not_not] at rightLength
    simp [rightLength]

/-- A validated set has a policy for every known family. -/
theorem exists_of_validated {policies : List StoragePolicy}
    (validated : validateStoragePolicies policies = .ok ()) {category : StorageCategory}
    (known : category ∈ storageCategoryOrder) :
    ∃ policy ∈ policies, policy.category = category := by
  rcases validateStoragePolicies_ok_iff.mp validated with ⟨length, valid, distinct⟩
  have subset : policies.map (·.category) ⊆ storageCategoryOrder := by
    intro family mem
    rcases List.mem_map.mp mem with ⟨policy, policyMem, rfl⟩
    exact (valid policy policyMem).known
  have complete := (List.subperm_of_subset distinct subset).perm_of_length_le (by
    rw [List.length_map, length])
  simpa using complete.mem_iff.mpr known

@[simp]
theorem cloneStoragePolicy_category (policy : StoragePolicy) :
    (cloneStoragePolicy policy).category = policy.category := by
  unfold cloneStoragePolicy
  split
  · rfl
  · split <;> rfl

@[simp]
theorem cloneStoragePolicy_clone (policy : StoragePolicy) :
    cloneStoragePolicy (cloneStoragePolicy policy) = cloneStoragePolicy policy := by
  unfold cloneStoragePolicy
  split
  · split <;> simp_all
  · split <;> split <;> simp_all

theorem StoragePolicy.Valid.clone {policy : StoragePolicy} (valid : policy.Valid) :
    (cloneStoragePolicy policy).Valid := by
  unfold cloneStoragePolicy
  split
  · exact valid
  · split
    · rename_i isIP
      exact ⟨valid.known, valid.retentionLower, valid.retentionUpper, valid.userIPHistoryEnabled,
        fun _ => isIP, by rintro limit ⟨rfl⟩; decide⟩
    · exact valid

/-- The policy set of a store: the policies of a validated list, addressed by family. -/
structure ActivePolicies where
  byCategory : PolicyMap
  validated : ∃ policies, validateStoragePolicies policies = .ok () ∧
    byCategory = policyMap policies

namespace ActivePolicies

@[ext]
theorem ext {left right : ActivePolicies} (same : left.byCategory = right.byCategory) :
    left = right := by
  cases left
  cases right
  cases same
  rfl

/-- The active set of a validated list. -/
def ofList (policies : List StoragePolicy)
    (validated : validateStoragePolicies policies = .ok ()) : ActivePolicies :=
  ⟨policyMap policies, policies, validated, rfl⟩

/-- `defaultPolicyMap` -/
def default : ActivePolicies := ofList defaultStoragePolicies (by decide)

/-- Policy of one family. -/
def get (policies : ActivePolicies) (category : StorageCategory) : StoragePolicy :=
  policies.byCategory.get category

/-- `policiesFromMap`: every policy in stable order. -/
def toList (policies : ActivePolicies) : List StoragePolicy :=
  policiesFromMap policies.byCategory

theorem exists_get (policies : ActivePolicies) {category : StorageCategory}
    (known : category ∈ storageCategoryOrder) :
    ∃ policy : StoragePolicy, policy.Valid ∧ policy.category = category ∧
      policies.byCategory category = some (cloneStoragePolicy policy) := by
  rcases policies with ⟨byCategory, list, validated, rfl⟩
  rcases exists_of_validated validated known with ⟨witness, mem, witnessCategory⟩
  cases found : list.reverse.find? (·.category = category) with
  | none =>
      have absent := List.find?_eq_none.mp found witness (by simpa using mem)
      simp [witnessCategory] at absent
  | some policy =>
      have policyMem : policy ∈ list := by simpa using List.mem_of_find?_eq_some found
      have policyCategory : policy.category = category := by
        simpa using List.find?_some found
      exact ⟨policy, (validateStoragePolicies_ok_iff.mp validated).2.1 policy policyMem,
        policyCategory, by simp [policyMap, found]⟩

theorem valid_get (policies : ActivePolicies) {category : StorageCategory}
    (known : category ∈ storageCategoryOrder) : (policies.get category).Valid := by
  rcases policies.exists_get known with ⟨policy, valid, -, found⟩
  simpa [get, PolicyMap.get, found] using valid.clone

theorem category_get (policies : ActivePolicies) {category : StorageCategory}
    (known : category ∈ storageCategoryOrder) : (policies.get category).category = category := by
  rcases policies.exists_get known with ⟨policy, -, policyCategory, found⟩
  simpa [get, PolicyMap.get, found] using policyCategory

theorem clone_get (policies : ActivePolicies) {category : StorageCategory}
    (known : category ∈ storageCategoryOrder) :
    cloneStoragePolicy (policies.get category) = policies.get category := by
  rcases policies.exists_get known with ⟨policy, -, -, found⟩
  simp [get, PolicyMap.get, found]

theorem byCategory_of_unknown (policies : ActivePolicies) {category : StorageCategory}
    (unknown : category ∉ storageCategoryOrder) : policies.byCategory category = none := by
  rcases policies with ⟨byCategory, list, validated, rfl⟩
  simp only [policyMap, Option.map_eq_none_iff, List.find?_eq_none, List.mem_reverse,
    decide_eq_true_eq]
  rintro policy mem rfl
  exact unknown ((validateStoragePolicies_ok_iff.mp validated).2.1 policy mem).known

theorem toList_eq (policies : ActivePolicies) :
    policies.toList = storageCategoryOrder.map policies.get := by
  unfold toList policiesFromMap
  apply List.map_congr_left
  intro category known
  exact policies.clone_get known

/-- Every active set passes the check made on incoming sets. -/
theorem validate_toList (policies : ActivePolicies) :
    validateStoragePolicies policies.toList = .ok () := by
  rw [validateStoragePolicies_ok_iff, toList_eq]
  refine ⟨by simp, ?_, ?_⟩
  · intro policy mem
    rcases List.mem_map.mp mem with ⟨category, known, rfl⟩
    exact policies.valid_get known
  · have categories : (storageCategoryOrder.map policies.get).map (·.category) =
        storageCategoryOrder := by
      rw [List.map_map]
      conv_rhs => rw [← List.map_id storageCategoryOrder]
      apply List.map_congr_left
      intro category known
      exact policies.category_get known
    rw [categories]
    decide

/-- Listing an active set and reading the list back gives the same set. -/
theorem policyMap_toList (policies : ActivePolicies) :
    policyMap policies.toList = policies.byCategory := by
  funext category
  by_cases known : category ∈ storageCategoryOrder
  · rcases policies.exists_get known with ⟨original, -, -, found⟩
    have getFound : policies.byCategory category = some (policies.get category) := by
      simp [get, PolicyMap.get, found]
    rw [getFound, toList_eq]
    -- The list has exactly one policy of the family, namely the active one.
    cases listed : (storageCategoryOrder.map policies.get).reverse.find?
        (·.category = category) with
    | none =>
        have absent := List.find?_eq_none.mp listed (policies.get category)
          (by simpa using ⟨category, known, rfl⟩)
        simp [policies.category_get known] at absent
    | some policy =>
        have policyMem := List.mem_of_find?_eq_some listed
        have policyCategory := List.find?_some listed
        simp only [List.mem_reverse, List.mem_map] at policyMem
        rcases policyMem with ⟨family, familyKnown, rfl⟩
        simp only [policies.category_get familyKnown, decide_eq_true_eq] at policyCategory
        subst policyCategory
        simp [policyMap, listed, policies.clone_get known]
  · rw [policies.byCategory_of_unknown known]
    exact (ofList policies.toList policies.validate_toList).byCategory_of_unknown known

@[simp]
theorem ofList_toList (policies : ActivePolicies) :
    ofList policies.toList policies.validate_toList = policies :=
  ext policies.policyMap_toList

end ActivePolicies

end TelemtPanel.Store
