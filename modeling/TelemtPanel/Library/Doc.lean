import Mathlib

/-!
# Trees of tables

A tree is a leaf, a list of trees or a table of named trees, as a decoded JSON
or TOML document is.  A sparse tree can be laid over another one: tables merge
and everything else replaces.  The sparse difference of two trees holds the
entries of the second one that are not equal to those of the first; laid over
the first tree it yields the second one.

Lists are replaced as a whole, so a *leaf* of a document is anything that is not
a table.  Tables are lists of fields with distinct names.
-/

namespace TelemtPanel.Library

universe u v w

inductive Doc (α : Type u) where
  | leaf (value : α)
  | list (items : List (Doc α))
  | table (fields : List (String × Doc α))

namespace Doc

variable {α : Type u}

abbrev Fields (α : Type u) : Type u := List (String × Doc α)

/-- Induction over the items of lists and the fields of tables. -/
theorem induction {motive : Doc α → Prop} (leaf : ∀ value, motive (.leaf value))
    (list : ∀ items, (∀ item ∈ items, motive item) → motive (.list items))
    (table : ∀ fields : Fields α, (∀ key tree, (key, tree) ∈ fields → motive tree) →
      motive (.table fields)) (tree : Doc α) : motive tree :=
  @Doc.rec α motive (fun items => ∀ item ∈ items, motive item)
    (fun fields => ∀ key tree, (key, tree) ∈ fields → motive tree) (fun field => motive field.2)
    leaf list table (by simp)
    (fun item items here rest => List.forall_mem_cons.mpr ⟨here, rest⟩) (by simp)
    (fun field fields here rest key tree mem => by
      rcases List.mem_cons.mp mem with rfl | later
      · exact here
      · exact rest key tree later)
    (fun key tree here => here) tree

def isTable : Doc α → Bool
  | .table _ => true
  | _ => false

/-- The fields of a table; anything else has none. -/
def fieldsOf : Option (Doc α) → Fields α
  | some (.table fields) => fields
  | _ => []

theorem fieldsOf_of_not_table {tree : Option (Doc α)}
    (noTable : ∀ fields, tree ≠ some (.table fields)) : fieldsOf tree = [] := by
  match tree with
  | none => rfl
  | some (.leaf _) => rfl
  | some (.list _) => rfl
  | some (.table fields) => exact absurd rfl (noTable fields)

section Distinct

mutual

/-- No table of the tree has two fields of one name. -/
def distinct : Doc α → Bool
  | .leaf _ => true
  | .list items => distinctItems items
  | .table fields => distinctFields fields

def distinctItems : List (Doc α) → Bool
  | [] => true
  | item :: items => item.distinct && distinctItems items

def distinctFields : List (String × Doc α) → Bool
  | [] => true
  | (key, tree) :: fields =>
      (fields.lookup key).isNone && tree.distinct && distinctFields fields

end

theorem distinctFields_cons {key : String} {tree : Doc α} {fields : Fields α} :
    distinctFields ((key, tree) :: fields) = true ↔
      fields.lookup key = none ∧ tree.distinct = true ∧ distinctFields fields = true := by
  simp [distinctFields, and_assoc]

theorem lookup_cons (key other : String) (tree : Doc α) (fields : Fields α) :
    List.lookup other ((key, tree) :: fields) =
      if other = key then some tree else fields.lookup other := by
  rw [List.lookup_cons]
  by_cases here : other = key
  · simp [here]
  · rw [if_neg here, beq_false_of_ne here]

theorem mem_of_lookup {fields : Fields α} {key : String} {tree : Doc α}
    (found : fields.lookup key = some tree) : (key, tree) ∈ fields := by
  induction fields with
  | nil => cases found
  | cons field fields ih =>
      rcases field with ⟨name, first⟩
      rw [lookup_cons] at found
      split at found
      · rename_i here
        cases found
        rw [here]
        exact List.mem_cons_self
      · exact List.mem_cons_of_mem _ (ih found)

theorem lookup_of_mem {fields : Fields α} (sound : distinctFields fields = true) {key : String}
    {tree : Doc α} (mem : (key, tree) ∈ fields) : fields.lookup key = some tree := by
  induction fields with
  | nil => cases mem
  | cons field fields ih =>
      rcases field with ⟨name, first⟩
      rcases distinctFields_cons.mp sound with ⟨fresh, -, rest⟩
      rw [lookup_cons]
      rcases List.mem_cons.mp mem with here | later
      · cases here
        rw [if_pos rfl]
      · have found := ih rest later
        rw [if_neg, found]
        rintro rfl
        rw [fresh] at found
        cases found

theorem distinct_of_mem {fields : Fields α} (sound : distinctFields fields = true) {key : String}
    {tree : Doc α} (mem : (key, tree) ∈ fields) : tree.distinct = true := by
  induction fields with
  | nil => cases mem
  | cons field fields ih =>
      rcases field with ⟨name, first⟩
      rcases distinctFields_cons.mp sound with ⟨-, here, rest⟩
      rcases List.mem_cons.mp mem with isHere | later
      · cases isHere
        exact here
      · exact ih rest later

theorem distinct_of_lookup {fields : Fields α} (sound : distinctFields fields = true)
    {key : String} {tree : Doc α} (found : fields.lookup key = some tree) :
    tree.distinct = true :=
  distinct_of_mem sound (mem_of_lookup found)

theorem distinct_of_mem_items {items : List (Doc α)} (sound : distinctItems items = true)
    {item : Doc α} (mem : item ∈ items) : item.distinct = true := by
  induction items with
  | nil => cases mem
  | cons first items ih =>
      rw [distinctItems, Bool.and_eq_true] at sound
      rcases List.mem_cons.mp mem with rfl | later
      · exact sound.1
      · exact ih sound.2 later

end Distinct

section Equal

variable {β : Type v} {γ : Type w} (same : α → β → Bool)

mutual

/-- Equality of documents: leaves by `same`, lists item by item, tables field by field in any
order. -/
def equal : Doc α → Doc β → Bool
  | .leaf a, .leaf b => same a b
  | .list a, .list b => equalItems a b
  | .table a, .table b => equalFields a b && b.all fun field => (a.lookup field.1).isSome
  | _, _ => false

def equalItems : List (Doc α) → List (Doc β) → Bool
  | [], [] => true
  | a :: as, b :: bs => equal a b && equalItems as bs
  | _, _ => false

def equalFields : List (String × Doc α) → List (String × Doc β) → Bool
  | [], _ => true
  | (key, a) :: as, bs =>
      (match bs.lookup key with
      | none => false
      | some b => equal a b) && equalFields as bs

end

/-- Equality where either side may be missing. -/
def equalOption : Option (Doc α) → Option (Doc β) → Bool
  | none, none => true
  | some a, some b => equal same a b
  | _, _ => false

variable {same}

theorem equalOption_table_of_not_table {tree : Option (Doc α)} {fields : Fields β}
    (noTable : ∀ known, tree ≠ some (.table known)) :
    equalOption same tree (some (.table fields)) = false := by
  match tree with
  | none => rfl
  | some (.leaf _) => rfl
  | some (.list _) => rfl
  | some (.table known) => exact absurd rfl (noTable known)

theorem equalFields_iff {a : Fields α} {b : Fields β} : equalFields same a b = true ↔
    ∀ key tree, (key, tree) ∈ a → equalOption same (some tree) (b.lookup key) = true := by
  induction a with
  | nil => simp [equalFields]
  | cons field a ih =>
      rcases field with ⟨name, first⟩
      rw [equalFields, Bool.and_eq_true, ih]
      have here : (match b.lookup name with
          | none => false
          | some found => equal same first found) = equalOption same (some first) (b.lookup name) := by
        cases b.lookup name <;> rfl
      rw [here]
      constructor
      · rintro ⟨isHere, rest⟩ key tree mem
        rcases List.mem_cons.mp mem with isFirst | later
        · cases isFirst
          exact isHere
        · exact rest key tree later
      · intro all
        exact ⟨all name first List.mem_cons_self, fun key tree mem =>
          all key tree (List.mem_cons_of_mem _ mem)⟩

/-- Tables are equal when they are so name by name. -/
theorem equal_table_iff {a : Fields α} {b : Fields β} (sound : distinctFields a = true) :
    equal same (.table a) (.table b) = true ↔
      ∀ key, equalOption same (a.lookup key) (b.lookup key) = true := by
  rw [equal, Bool.and_eq_true, equalFields_iff, List.all_eq_true]
  constructor
  · rintro ⟨left, right⟩ key
    cases found : a.lookup key with
    | some tree => exact left key tree (mem_of_lookup found)
    | none =>
        cases other : b.lookup key with
        | none => rfl
        | some tree =>
            have known := right (key, tree) (mem_of_lookup other)
            rw [found] at known
            cases known
  · intro all
    constructor
    · intro key tree mem
      have here := all key
      rwa [lookup_of_mem sound mem] at here
    · intro field mem
      have here := all field.1
      cases found : a.lookup field.1 with
      | some tree => rfl
      | none =>
          rw [found] at here
          cases other : b.lookup field.1 with
          | some tree =>
              rw [other] at here
              cases here
          | none =>
              have absent := List.lookup_eq_none_iff.mp other field mem
              simp at absent

theorem equalItems_self {same : α → α → Bool} {items : List (Doc α)}
    (all : ∀ item ∈ items, equal same item item = true) : equalItems same items items = true := by
  induction items with
  | nil => rfl
  | cons item items ih =>
      rcases List.forall_mem_cons.mp all with ⟨here, rest⟩
      rw [equalItems, here, ih rest]
      rfl

/-- A document equals itself. -/
theorem equal_self {same : α → α → Bool} (reflexive : ∀ value, same value value = true) (tree : Doc α)
    (sound : tree.distinct = true) : equal same tree tree = true := by
  induction tree using Doc.induction with
  | leaf value => exact reflexive value
  | list items ih =>
      apply equalItems_self
      intro item mem
      exact ih item mem (distinct_of_mem_items sound mem)
  | table fields ih =>
      rw [distinct] at sound
      rw [equal_table_iff sound]
      intro key
      cases found : fields.lookup key with
      | none => rfl
      | some tree =>
          exact ih key tree (mem_of_lookup found) (distinct_of_lookup sound found)

theorem equalOption_self {same : α → α → Bool} (reflexive : ∀ value, same value value = true) {tree : Option (Doc α)}
    (sound : ∀ t ∈ tree, t.distinct = true) : equalOption same tree tree = true := by
  cases tree with
  | none => rfl
  | some tree => exact equal_self reflexive tree (sound tree rfl)

end Equal

section Traverse

variable {β : Type v} {γ : Type w} {ε : Type}

mutual

/-- Replaces all leaf values; one that has no replacement is an error. -/
def traverse (f : α → Except ε β) : Doc α → Except ε (Doc β)
  | .leaf value => (f value).map .leaf
  | .list items => (traverseItems f items).map .list
  | .table fields => (traverseFields f fields).map .table

def traverseItems (f : α → Except ε β) : List (Doc α) → Except ε (List (Doc β))
  | [] => .ok []
  | item :: items =>
      match traverse f item with
      | .error error => .error error
      | .ok first => (traverseItems f items).map (first :: ·)

def traverseFields (f : α → Except ε β) : List (String × Doc α) → Except ε (List (String × Doc β))
  | [] => .ok []
  | (key, tree) :: fields =>
      match traverse f tree with
      | .error error => .error error
      | .ok first => (traverseFields f fields).map ((key, first) :: ·)

end

mutual

/-- All leaf values have a property. -/
def all (property : α → Bool) : Doc α → Bool
  | .leaf value => property value
  | .list items => allItems property items
  | .table fields => allFields property fields

def allItems (property : α → Bool) : List (Doc α) → Bool
  | [] => true
  | item :: items => item.all property && allItems property items

def allFields (property : α → Bool) : List (String × Doc α) → Bool
  | [] => true
  | (_, tree) :: fields => tree.all property && allFields property fields

end

variable {f : α → Except ε β} {g : β → Except ε γ}

theorem map_eq_ok {δ : Type*} {η : Type*} {result : Except ε δ} {h : δ → η} {out : η} :
    result.map h = .ok out ↔ ∃ value, result = .ok value ∧ h value = out := by
  cases result <;> simp [Except.map]

theorem traverseItems_cons {item : Doc α} {items : List (Doc α)} {out : List (Doc β)} :
    traverseItems f (item :: items) = .ok out ↔
      ∃ first rest, traverse f item = .ok first ∧ traverseItems f items = .ok rest ∧
        out = first :: rest := by
  rw [traverseItems]
  cases traverse f item with
  | error error => simp
  | ok first =>
      dsimp only
      rw [map_eq_ok]
      simp [eq_comm]

theorem traverseFields_cons {key : String} {tree : Doc α} {fields : Fields α} {out : Fields β} :
    traverseFields f ((key, tree) :: fields) = .ok out ↔
      ∃ first rest, traverse f tree = .ok first ∧ traverseFields f fields = .ok rest ∧
        out = (key, first) :: rest := by
  rw [traverseFields]
  cases traverse f tree with
  | error error => simp
  | ok first =>
      dsimp only
      rw [map_eq_ok]
      simp [eq_comm]

/-- The names stay, and what stands under them is replaced. -/
theorem lookup_traverseFields {fields : Fields α} {out : Fields β}
    (replaced : traverseFields f fields = .ok out) (key : String) :
    (fields.lookup key = none ∧ out.lookup key = none) ∨
      ∃ tree result, fields.lookup key = some tree ∧ out.lookup key = some result ∧
        traverse f tree = .ok result := by
  induction fields generalizing out with
  | nil =>
      cases replaced
      exact .inl ⟨rfl, rfl⟩
  | cons field fields ih =>
      rcases field with ⟨name, tree⟩
      rcases traverseFields_cons.mp replaced with ⟨first, rest, isFirst, isRest, rfl⟩
      rw [lookup_cons, lookup_cons]
      by_cases here : key = name
      · rw [if_pos here, if_pos here]
        exact .inr ⟨tree, first, rfl, rfl, isFirst⟩
      · rw [if_neg here, if_neg here]
        exact ih isRest

theorem distinct_traverse {tree : Doc α} {out : Doc β} (replaced : traverse f tree = .ok out)
    (sound : tree.distinct = true) : out.distinct = true := by
  induction tree using Doc.induction generalizing out with
  | leaf value =>
      rcases map_eq_ok.mp replaced with ⟨_, _, rfl⟩
      rfl
  | list items ih =>
      rcases map_eq_ok.mp replaced with ⟨results, isResults, rfl⟩
      rw [distinct] at sound ⊢
      clear replaced
      induction items generalizing results with
      | nil =>
          cases isResults
          rfl
      | cons item items ihItems =>
          rcases traverseItems_cons.mp isResults with ⟨first, rest, isFirst, isRest, rfl⟩
          rw [distinctItems, Bool.and_eq_true] at sound ⊢
          exact ⟨ih item List.mem_cons_self isFirst sound.1,
            ihItems (fun item mem => ih item (List.mem_cons_of_mem _ mem)) sound.2 rest isRest⟩
  | table fields ih =>
      rcases map_eq_ok.mp replaced with ⟨results, isResults, rfl⟩
      rw [distinct] at sound ⊢
      clear replaced
      induction fields generalizing results with
      | nil =>
          cases isResults
          rfl
      | cons field fields ihFields =>
          rcases field with ⟨key, tree⟩
          rcases traverseFields_cons.mp isResults with ⟨first, rest, isFirst, isRest, rfl⟩
          rcases distinctFields_cons.mp sound with ⟨fresh, treeSound, fieldsSound⟩
          refine distinctFields_cons.mpr ⟨?_, ih key tree List.mem_cons_self isFirst treeSound,
            ihFields (fun key tree mem => ih key tree (List.mem_cons_of_mem _ mem)) fieldsSound rest
              isRest⟩
          rcases lookup_traverseFields isRest key with ⟨-, absent⟩ | ⟨tree, result, found, -⟩
          · exact absent
          · rw [fresh] at found
            cases found

end Traverse

section Overlay

/-- Assigns a field, at its old place or at the end. -/
def setField (fields : Fields α) (key : String) (tree : Doc α) : Fields α :=
  match fields with
  | [] => [(key, tree)]
  | (name, old) :: rest =>
      if name = key then (key, tree) :: rest else (name, old) :: setField rest key tree

mutual

/-- Lays a patch over a base: tables merge, everything else replaces. -/
def overlay (base : Option (Doc α)) (patch : Doc α) : Doc α :=
  match patch, base with
  | .table fields, some (.table known) => .table (overlayFields known known fields)
  | .table fields, _ => .table fields
  | .leaf value, _ => .leaf value
  | .list items, _ => .list items

def overlayFields (base result : Fields α) : List (String × Doc α) → Fields α
  | [] => result
  | (key, tree) :: rest =>
      overlayFields base (setField result key (overlay (base.lookup key) tree)) rest

end

theorem overlay_of_not_table {base : Option (Doc α)}
    (noTable : ∀ fields, base ≠ some (.table fields)) (patch : Doc α) :
    overlay base patch = patch := by
  cases patch with
  | leaf value => rw [overlay]
  | list items => rw [overlay]
  | table fields =>
      cases base with
      | none => rw [overlay]; exact fun _ => by simp
      | some tree =>
          cases tree with
          | leaf value => rw [overlay]; exact fun _ => by simp
          | list items => rw [overlay]; exact fun _ => by simp
          | table known => exact absurd rfl (noTable known)

theorem lookup_setField (fields : Fields α) (key other : String) (tree : Doc α) :
    (setField fields key tree).lookup other =
      if other = key then some tree else fields.lookup other := by
  induction fields with
  | nil => rw [setField, lookup_cons]
  | cons field fields ih =>
      rcases field with ⟨name, old⟩
      rw [setField]
      split
      · rename_i here
        subst here
        simp only [lookup_cons]
        split <;> rfl
      · rename_i differ
        simp only [lookup_cons, ih]
        split
        · rename_i isName
          subst isName
          rw [if_neg differ]
        · rfl

theorem distinctFields_setField {fields : Fields α} (sound : distinctFields fields = true)
    (key : String) {tree : Doc α} (treeSound : tree.distinct = true) :
    distinctFields (setField fields key tree) = true := by
  induction fields with
  | nil => simp [setField, distinctFields, treeSound]
  | cons field fields ih =>
      rcases field with ⟨name, old⟩
      rcases distinctFields_cons.mp sound with ⟨fresh, oldSound, rest⟩
      rw [setField]
      split
      · rename_i here
        subst here
        exact distinctFields_cons.mpr ⟨fresh, treeSound, rest⟩
      · rename_i differ
        refine distinctFields_cons.mpr ⟨?_, oldSound, ih rest⟩
        rw [lookup_setField, if_neg differ, fresh]

/-- An overlaid table, name by name. -/
theorem lookup_overlayFields {patch : Fields α} (sound : distinctFields patch = true)
    (base result : Fields α) (key : String) :
    (overlayFields base result patch).lookup key =
      match patch.lookup key with
      | some tree => some (overlay (base.lookup key) tree)
      | none => result.lookup key := by
  induction patch generalizing result with
  | nil => rfl
  | cons field patch ih =>
      rcases field with ⟨name, tree⟩
      rcases distinctFields_cons.mp sound with ⟨fresh, -, rest⟩
      rw [overlayFields, ih rest, lookup_cons]
      by_cases here : key = name
      · subst here
        rw [if_pos rfl, fresh]
        dsimp only
        rw [lookup_setField, if_pos rfl]
      · rw [if_neg here]
        cases patch.lookup key with
        | some later => rfl
        | none =>
            dsimp only
            rw [lookup_setField, if_neg here]

theorem distinct_overlay (patch : Doc α) (patchSound : patch.distinct = true)
    {base : Option (Doc α)} (baseSound : ∀ t ∈ base, t.distinct = true) :
    (overlay base patch).distinct = true := by
  induction patch using Doc.induction generalizing base with
  | leaf value => rfl
  | list items ih => rwa [overlay]
  | table fields ih =>
      by_cases isTable : ∃ known, base = some (.table known)
      · rcases isTable with ⟨known, rfl⟩
        have knownSound : distinctFields known = true := baseSound _ rfl
        have each : ∀ (rest : Fields α), (∀ key tree, (key, tree) ∈ rest → (key, tree) ∈ fields) →
            ∀ result : Fields α, distinctFields result = true →
              distinctFields (overlayFields known result rest) = true := by
          intro rest
          induction rest with
          | nil => exact fun _ result sound => sound
          | cons field rest ihRest =>
              rcases field with ⟨name, tree⟩
              intro within result sound
              rw [overlayFields]
              apply ihRest fun key tree mem => within key tree (List.mem_cons_of_mem _ mem)
              have mem := within name tree List.mem_cons_self
              exact distinctFields_setField sound name (ih name tree mem
                (distinct_of_mem patchSound mem)
                fun t found => distinct_of_lookup knownSound found)
        rw [overlay, distinct]
        exact each fields (fun _ _ mem => mem) known knownSound
      · rw [overlay_of_not_table fun known isKnown => isTable ⟨known, isKnown⟩]
        exact patchSound

end Overlay

section Pick

/-- A choice made name by name. -/
theorem lookup_filterMap {fields : Fields α} (sound : distinctFields fields = true)
    (choose : String → Doc α → Option (Doc α)) (key : String) :
    List.lookup key (fields.filterMap fun field =>
        (choose field.1 field.2).map fun tree => (field.1, tree)) =
      (fields.lookup key).bind (choose key) := by
  induction fields with
  | nil => rfl
  | cons field fields ih =>
      rcases field with ⟨name, tree⟩
      rcases distinctFields_cons.mp sound with ⟨fresh, -, rest⟩
      rw [List.filterMap_cons, lookup_cons]
      by_cases here : key = name
      · subst here
        rw [if_pos rfl, Option.bind_some]
        cases chosen : choose key tree with
        | none =>
            rw [Option.map_none, ih rest, fresh]
            rfl
        | some chosen =>
            rw [Option.map_some, lookup_cons, if_pos rfl]
      · rw [if_neg here]
        cases choose name tree with
        | none => exact ih rest
        | some chosen =>
            rw [Option.map_some, lookup_cons, if_neg here]
            exact ih rest

theorem distinct_filterMap {fields : Fields α} (sound : distinctFields fields = true)
    {choose : String → Doc α → Option (Doc α)}
    (chosenSound : ∀ key tree, (key, tree) ∈ fields → ∀ chosen ∈ choose key tree,
      chosen.distinct = true) :
    distinctFields (fields.filterMap fun field =>
      (choose field.1 field.2).map fun tree => (field.1, tree)) = true := by
  induction fields with
  | nil => rfl
  | cons field fields ih =>
      rcases field with ⟨name, tree⟩
      rcases distinctFields_cons.mp sound with ⟨fresh, -, rest⟩
      have later := ih rest fun key tree mem => chosenSound key tree (List.mem_cons_of_mem _ mem)
      rw [List.filterMap_cons]
      cases chosen : choose name tree with
      | none => exact later
      | some entry =>
          refine distinctFields_cons.mpr ⟨?_, chosenSound name tree List.mem_cons_self _ chosen,
            later⟩
          rw [lookup_filterMap rest, fresh]
          rfl

end Pick

section Difference

variable (same : α → α → Bool)

mutual

/-- What has to be laid over the original to obtain the edited tree, if anything. -/
def diff (original : Option (Doc α)) (edited : Doc α) : Option (Doc α) :=
  match edited, original with
  | .table fields, some (.table known) =>
      match diffFields known fields with
      | [] => none
      | out => some (.table out)
  | .table fields, original =>
      if equalOption same original (some (.table fields)) then none else some (.table fields)
  | .leaf value, original =>
      if equalOption same original (some (.leaf value)) then none else some (.leaf value)
  | .list items, original =>
      if equalOption same original (some (.list items)) then none else some (.list items)

def diffFields (original : Fields α) : List (String × Doc α) → Fields α
  | [] => []
  | (key, tree) :: rest =>
      match diff (original.lookup key) tree with
      | none => diffFields original rest
      | some change => (key, change) :: diffFields original rest

end

mutual

/-- Wherever both trees have a table, the second one has all names of the first one. -/
def keeps (original : Option (Doc α)) (edited : Doc α) : Bool :=
  match edited, original with
  | .table fields, some (.table known) =>
      known.all (fun field => (fields.lookup field.1).isSome) && keepsFields known fields
  | _, _ => true

def keepsFields (original : Fields α) : List (String × Doc α) → Bool
  | [] => true
  | (key, tree) :: rest => keeps (original.lookup key) tree && keepsFields original rest

end

variable {same}

theorem diff_table_table (known fields : Fields α) :
    diff same (some (.table known)) (.table fields) =
      if diffFields same known fields = [] then none
      else some (.table (diffFields same known fields)) := by
  rw [diff]
  cases diffFields same known fields <;> simp

theorem diff_of_not_both {original : Option (Doc α)} {edited : Doc α}
    (notBoth : ∀ known fields, original = some (.table known) → edited ≠ .table fields) :
    diff same original edited =
      if equalOption same original (some edited) then none else some edited := by
  cases edited with
  | leaf value => rw [diff]
  | list items => rw [diff]
  | table fields =>
      rw [diff]
      intro known isTable
      exact notBoth known fields isTable rfl

theorem diff_none (edited : Doc α) : diff same none edited = some edited := by
  rw [diff_of_not_both fun _ _ isSome => by cases isSome]
  rfl

theorem diff_table (original : Option (Doc α)) (fields : Fields α) :
    diff same original (.table fields) = none ∨
      ∃ out, diff same original (.table fields) = some (.table out) := by
  by_cases isTable : ∃ known, original = some (.table known)
  · rcases isTable with ⟨known, rfl⟩
    rw [diff_table_table]
    split
    · exact .inl rfl
    · exact .inr ⟨_, rfl⟩
  · rw [diff_of_not_both fun known _ isKnown => absurd ⟨known, isKnown⟩ isTable]
    split
    · exact .inl rfl
    · exact .inr ⟨_, rfl⟩

theorem diffFields_eq_filterMap (original fields : Fields α) :
    diffFields same original fields = fields.filterMap fun field =>
      (diff same (original.lookup field.1) field.2).map fun tree => (field.1, tree) := by
  induction fields with
  | nil => rfl
  | cons field fields ih =>
      rcases field with ⟨name, tree⟩
      rw [diffFields, List.filterMap_cons, ih]
      cases diff same (original.lookup name) tree <;> rfl

/-- A difference, name by name. -/
theorem lookup_diffFields {fields : Fields α} (sound : distinctFields fields = true)
    (original : Fields α) (key : String) :
    (diffFields same original fields).lookup key =
      (fields.lookup key).bind (diff same (original.lookup key)) := by
  rw [diffFields_eq_filterMap]
  exact lookup_filterMap sound (fun key => diff same (original.lookup key)) key

theorem distinct_diff (edited : Doc α) (sound : edited.distinct = true)
    {original : Option (Doc α)} {change : Doc α}
    (isChange : diff same original edited = some change) : change.distinct = true := by
  induction edited using Doc.induction generalizing original change with
  | leaf value =>
      rw [diff_of_not_both fun _ _ _ => by simp] at isChange
      split at isChange
      · cases isChange
      · cases isChange
        rfl
  | list items ih =>
      rw [diff_of_not_both fun _ _ _ => by simp] at isChange
      split at isChange
      · cases isChange
      · cases isChange
        exact sound
  | table fields ih =>
      by_cases isTable : ∃ known, original = some (.table known)
      · rcases isTable with ⟨known, rfl⟩
        rw [diff_table_table] at isChange
        split at isChange
        · cases isChange
        cases isChange
        rw [distinct] at sound ⊢
        rw [diffFields_eq_filterMap]
        refine @distinct_filterMap _ _ sound (fun key => diff same (known.lookup key)) ?_
        intro key tree mem entry isEntry
        exact ih key tree mem (distinct_of_mem sound mem) isEntry
      · rw [diff_of_not_both fun known _ isKnown => absurd ⟨known, isKnown⟩ isTable] at isChange
        split at isChange
        · cases isChange
        · cases isChange
          exact sound

theorem keepsFields_iff {original fields : Fields α} : keepsFields original fields = true ↔
    ∀ key tree, (key, tree) ∈ fields → keeps (original.lookup key) tree = true := by
  induction fields with
  | nil => simp [keepsFields]
  | cons field fields ih =>
      rcases field with ⟨name, tree⟩
      simp only [keepsFields, Bool.and_eq_true, ih, List.mem_cons, Prod.mk.injEq]
      constructor
      · rintro ⟨here, rest⟩ key other (⟨rfl, rfl⟩ | later)
        · exact here
        · exact rest key other later
      · intro all
        exact ⟨all name tree (.inl ⟨rfl, rfl⟩), fun key other later => all key other (.inr later)⟩

/-- What it means to keep the names of a table. -/
theorem keeps_table_iff {known fields : Fields α} :
    keeps (some (.table known)) (.table fields) = true ↔
      (∀ key, fields.lookup key = none → known.lookup key = none) ∧
        ∀ key tree, (key, tree) ∈ fields → keeps (known.lookup key) tree = true := by
  rw [keeps, Bool.and_eq_true, keepsFields_iff, List.all_eq_true]
  refine and_congr_left' ?_
  constructor
  · intro all key absent
    cases found : known.lookup key with
    | none => rfl
    | some tree =>
        have kept := all (key, tree) (mem_of_lookup found)
        rw [absent] at kept
        cases kept
  · intro all field mem
    cases absent : fields.lookup field.1 with
    | some tree => rfl
    | none =>
        have gone := List.lookup_eq_none_iff.mp (all field.1 absent) field mem
        simp at gone

/-- Nothing has to be laid over equal trees, and only over these. -/
theorem diff_eq_none_iff (edited : Doc α) (sound : edited.distinct = true)
    {original : Option (Doc α)} (originalSound : ∀ t ∈ original, t.distinct = true)
    (kept : keeps original edited = true) :
    diff same original edited = none ↔ equalOption same original (some edited) = true := by
  induction edited using Doc.induction generalizing original with
  | leaf value =>
      rw [diff_of_not_both fun _ _ _ => by simp]
      simp
  | list items ih =>
      rw [diff_of_not_both fun _ _ _ => by simp]
      simp
  | table fields ih =>
      by_cases isTable : ∃ known, original = some (.table known)
      · rcases isTable with ⟨known, rfl⟩
        have knownSound : distinctFields known = true := originalSound _ rfl
        rcases keeps_table_iff.mp kept with ⟨names, nested⟩
        have equal_iff := @equal_table_iff α α same known fields knownSound
        rw [diff_table_table, equalOption, equal_iff]
        have member : ∀ key tree, (key, tree) ∈ fields →
            (diff same (known.lookup key) tree = none ↔
              equalOption same (known.lookup key) (fields.lookup key) = true) := by
          intro key tree mem
          rw [lookup_of_mem sound mem]
          exact ih key tree mem (distinct_of_mem sound mem)
            (fun t found => distinct_of_lookup knownSound found) (nested key tree mem)
        constructor
        · intro nothing key
          have empty : diffFields same known fields = [] := by
            by_contra some_
            rw [if_neg some_] at nothing
            cases nothing
          cases found : fields.lookup key with
          | none =>
              rw [names key found]
              rfl
          | some tree =>
              have change := @lookup_diffFields α same fields sound known key
              rw [empty, found, Option.bind_some] at change
              rw [← found]
              exact (member key tree (mem_of_lookup found)).mp change.symm
        · intro all
          rw [if_pos]
          apply List.eq_nil_iff_forall_not_mem.mpr
          rintro ⟨key, change⟩ mem
          have changed := @distinct_diff α same (.table fields) sound (some (.table known))
            (.table (diffFields same known fields)) (by rw [diff_table_table, if_neg (List.ne_nil_of_mem mem)])
          have found := lookup_of_mem changed mem
          rw [lookup_diffFields sound] at found
          rcases Option.bind_eq_some_iff.mp found with ⟨tree, isTree, isChange⟩
          rw [(member key tree (mem_of_lookup isTree)).mpr (all key)] at isChange
          cases isChange
      · rw [diff_of_not_both fun known _ isKnown => absurd ⟨known, isKnown⟩ isTable]
        simp

/-- A difference laid over the original yields the edited tree. -/
theorem overlay_diff (reflexive : ∀ value, same value value = true) (edited : Doc α)
    (sound : edited.distinct = true) {original : Doc α} (originalSound : original.distinct = true)
    (kept : keeps (some original) edited = true) :
    equal same (((diff same (some original) edited).map (overlay (some original))).getD original)
      edited = true := by
  induction edited using Doc.induction generalizing original with
  | leaf value =>
      rw [diff_of_not_both fun _ _ _ => by simp]
      split
      · rename_i unchanged
        exact unchanged
      · rw [Option.map_some, Option.getD_some, overlay, equal]
        exact reflexive value
  | list items ih =>
      rw [diff_of_not_both fun _ _ _ => by simp]
      split
      · rename_i unchanged
        exact unchanged
      · simpa [overlay] using equal_self reflexive (.list items) sound
  | table fields ih =>
      by_cases isTable : ∃ known, original = .table known
      · rcases isTable with ⟨known, rfl⟩
        rcases keeps_table_iff.mp kept with ⟨names, nested⟩
        rw [diff_table_table]
        split
        · rename_i nothing
          exact (@diff_eq_none_iff α same (.table fields) sound (some (.table known))
            (by rintro t ⟨rfl⟩; exact originalSound) kept).mp (by rw [diff_table_table, if_pos nothing])
        · rename_i some_
          have changeSound : distinctFields (diffFields same known fields) = true :=
            @distinct_diff α same (.table fields) sound (some (.table known))
              (.table (diffFields same known fields)) (by rw [diff_table_table, if_neg some_])
          have resultSound := @distinct_overlay α (.table (diffFields same known fields)) changeSound
            (some (.table known)) (by rintro t ⟨rfl⟩; exact originalSound)
          rw [Option.map_some, Option.getD_some]
          rw [overlay] at resultSound ⊢
          rw [equal_table_iff resultSound]
          intro key
          rw [lookup_overlayFields changeSound, lookup_diffFields sound]
          cases found : fields.lookup key with
          | none =>
              rw [Option.bind_none, names key found]
              rfl
          | some tree =>
              have treeSound := distinct_of_lookup sound found
              rw [Option.bind_some]
              cases original : known.lookup key with
              | none =>
                  rw [diff_none]
                  dsimp only
                  rw [overlay_of_not_table fun _ => by simp]
                  exact equal_self reflexive tree treeSound
              | some old =>
                  have here := ih key tree (mem_of_lookup found) treeSound
                    (distinct_of_lookup originalSound original)
                    (by rw [← original]; exact nested key tree (mem_of_lookup found))
                  cases change : diff same (some old) tree with
                  | none =>
                      rw [change] at here
                      exact here
                  | some change =>
                      rw [change] at here
                      exact here
      · rw [diff_of_not_both fun known _ isKnown => absurd
          ⟨known, by injection isKnown⟩ isTable]
        split
        · rename_i unchanged
          exact unchanged
        · rw [Option.map_some, Option.getD_some, overlay_of_not_table fun known isKnown => absurd
            ⟨known, by injection isKnown⟩ isTable]
          exact equal_self reflexive _ sound

/-- The difference from the original to an edited tree that may be missing. -/
def diffOption (same : α → α → Bool) (original edited : Option (Doc α)) : Option (Doc α) :=
  edited.bind (diff same original)

end Difference

section Path

/-- The node reached by following the names of a path from table to table. -/
def nodeAt (tree : Option (Doc α)) : List String → Option (Doc α)
  | [] => tree
  | key :: path => nodeAt ((fieldsOf tree).lookup key) path

def asLeaf : Option (Doc α) → Option (Doc α)
  | some (.table _) => none
  | tree => tree

/-- The leaf at a path: anything but a table. -/
def leafAt (tree : Option (Doc α)) (path : List String) : Option (Doc α) :=
  asLeaf (nodeAt tree path)

/-- A leaf stands strictly above the path. -/
def stops (tree : Option (Doc α)) : List String → Bool
  | [] => false
  | key :: path => (asLeaf tree).isSome || stops ((fieldsOf tree).lookup key) path

/-- All tables of a tree that may be missing have distinct names. -/
def Sound (tree : Option (Doc α)) : Prop :=
  ∀ t ∈ tree, t.distinct = true

theorem Sound.lookup {tree : Option (Doc α)} (sound : Sound tree) (key : String) :
    Sound ((fieldsOf tree).lookup key) := by
  intro t found
  match tree with
  | some (.table fields) =>
      have fieldsSound : distinctFields fields = true := sound _ rfl
      exact distinct_of_lookup fieldsSound found
  | some (.leaf _) => cases found
  | some (.list _) => cases found
  | none => cases found

theorem Sound.nodeAt {tree : Option (Doc α)} (sound : Sound tree) (path : List String) :
    Sound (nodeAt tree path) := by
  induction path generalizing tree with
  | nil => exact sound
  | cons key path ih => exact ih (sound.lookup key)

theorem asLeaf_eq_some {tree : Option (Doc α)} {leaf : Doc α} :
    asLeaf tree = some leaf ↔ tree = some leaf ∧ leaf.isTable = false := by
  match tree with
  | none => simp [asLeaf]
  | some (.table fields) =>
      simp only [asLeaf, reduceCtorEq, Option.some.injEq, false_iff, not_and, Bool.not_eq_false]
      rintro rfl
      rfl
  | some (.leaf value) =>
      simp only [asLeaf, Option.some.injEq, iff_self_and]
      rintro rfl
      rfl
  | some (.list items) =>
      simp only [asLeaf, Option.some.injEq, iff_self_and]
      rintro rfl
      rfl

theorem fieldsOf_of_asLeaf {tree : Option (Doc α)} (isLeaf : (asLeaf tree).isSome = true) :
    fieldsOf tree = [] := by
  match tree with
  | some (.leaf _) => rfl
  | some (.list _) => rfl

@[simp]
theorem nodeAt_none (path : List String) : nodeAt (none : Option (Doc α)) path = none := by
  induction path with
  | nil => rfl
  | cons key path ih => exact ih

@[simp]
theorem leafAt_none (path : List String) : leafAt (none : Option (Doc α)) path = none := by
  rw [leafAt, nodeAt_none, asLeaf]
  simp

@[simp]
theorem stops_none (path : List String) : stops (none : Option (Doc α)) path = false := by
  induction path with
  | nil => rfl
  | cons key path ih => exact ih

theorem nodeAt_append (tree : Option (Doc α)) (above path : List String) :
    nodeAt tree (above ++ path) = nodeAt (nodeAt tree above) path := by
  induction above generalizing tree with
  | nil => rfl
  | cons key above ih => exact ih _

/-- Below a leaf there is nothing. -/
theorem nodeAt_of_stops {tree : Option (Doc α)} {path : List String}
    (stopped : stops tree path = true) : nodeAt tree path = none := by
  induction path generalizing tree with
  | nil => cases stopped
  | cons key path ih =>
      rw [stops, Bool.or_eq_true] at stopped
      rcases stopped with isLeaf | below
      · rw [nodeAt, fieldsOf_of_asLeaf isLeaf]
        exact nodeAt_none path
      · exact ih below

/-- A path is stopped by a leaf strictly above it. -/
theorem stops_iff {tree : Option (Doc α)} {path : List String} : stops tree path = true ↔
    ∃ above key rest, path = above ++ key :: rest ∧ (leafAt tree above).isSome = true := by
  induction path generalizing tree with
  | nil => simp [stops]
  | cons first path ih =>
      rw [stops, Bool.or_eq_true, ih]
      constructor
      · rintro (isLeaf | ⟨above, key, rest, rfl, isLeaf⟩)
        · exact ⟨[], first, path, rfl, isLeaf⟩
        · exact ⟨first :: above, key, rest, rfl, isLeaf⟩
      · rintro ⟨above, key, rest, split, isLeaf⟩
        cases above with
        | nil => exact .inl isLeaf
        | cons head above =>
            rw [List.cons_append, List.cons.injEq] at split
            rcases split with ⟨rfl, split⟩
            exact .inr ⟨above, key, rest, split, isLeaf⟩

/-- The overlay of two trees that may be missing. -/
def overlayOption (base patch : Option (Doc α)) : Option (Doc α) :=
  match patch with
  | none => base
  | some patch => some (overlay base patch)

theorem lookup_overlayOption {fields : Fields α} (sound : distinctFields fields = true)
    (base : Option (Doc α)) (key : String) :
    (fieldsOf (overlayOption base (some (.table fields)))).lookup key =
      overlayOption ((fieldsOf base).lookup key) (fields.lookup key) := by
  by_cases isTable : ∃ known, base = some (.table known)
  · rcases isTable with ⟨known, rfl⟩
    rw [overlayOption, overlay, fieldsOf, fieldsOf, lookup_overlayFields sound]
    cases fields.lookup key <;> rfl
  · have noTable : ∀ known, base ≠ some (.table known) := fun known isKnown =>
      isTable ⟨known, isKnown⟩
    rw [overlayOption, overlay_of_not_table noTable, fieldsOf_of_not_table noTable]
    cases found : fields.lookup key with
    | none => rw [fieldsOf, found]; rfl
    | some tree =>
        rw [fieldsOf, found, overlayOption, overlay_of_not_table]
        simp

theorem asLeaf_overlay (base : Option (Doc α)) (patch : Doc α) :
    asLeaf (some (overlay base patch)) = asLeaf (some patch) := by
  cases patch with
  | leaf value => rw [overlay]
  | list items => rw [overlay]
  | table fields =>
      by_cases isTable : ∃ known, base = some (.table known)
      · rcases isTable with ⟨known, rfl⟩
        rw [overlay]
        rfl
      · rw [overlay_of_not_table fun known isKnown => isTable ⟨known, isKnown⟩]

/-- The leaves of an overlay: those of the patch, and of the base where the patch has nothing. -/
theorem leafAt_overlayOption {patch : Option (Doc α)} (sound : Sound patch)
    (base : Option (Doc α)) (path : List String) :
    leafAt (overlayOption base patch) path =
      if stops patch path then none
      else if (nodeAt patch path).isSome then leafAt patch path else leafAt base path := by
  induction path generalizing patch base with
  | nil =>
      match patch with
      | none => rfl
      | some patch => exact asLeaf_overlay base patch
  | cons key path ih =>
      match patch with
      | none => simp [overlayOption]
      | some (.leaf value) =>
          rw [overlayOption, overlay]
          exact leafAt_none path
      | some (.list items) =>
          rw [overlayOption, overlay]
          exact leafAt_none path
      | some (.table fields) =>
          have step := ih (sound.lookup key) ((fieldsOf base).lookup key)
          rw [fieldsOf, ← lookup_overlayOption (sound _ rfl)] at step
          exact step

variable {same : α → α → Bool}

theorem lookup_diffOption {fields : Fields α} (sound : distinctFields fields = true)
    (original : Option (Doc α)) (key : String) :
    (fieldsOf (diffOption same original (some (.table fields)))).lookup key =
      diffOption same ((fieldsOf original).lookup key) (fields.lookup key) := by
  by_cases isTable : ∃ known, original = some (.table known)
  · rcases isTable with ⟨known, rfl⟩
    have change := @lookup_diffFields α same fields sound known key
    rw [diffOption, Option.bind_some, diff_table_table]
    split
    · rename_i nothing
      rw [nothing] at change
      exact change
    · exact change
  · have noTable : ∀ known, original ≠ some (.table known) := fun known isKnown =>
      isTable ⟨known, isKnown⟩
    rw [diffOption, Option.bind_some, fieldsOf_of_not_table noTable,
      diff_of_not_both fun known _ isKnown => absurd isKnown (noTable known),
      equalOption_table_of_not_table noTable]
    cases found : fields.lookup key with
    | none => exact found
    | some tree =>
        rw [diffOption, Option.bind_some]
        exact found.trans (diff_none tree).symm

/-- A difference is taken node by node. -/
theorem nodeAt_diffOption {edited : Option (Doc α)} (sound : Sound edited)
    (original : Option (Doc α)) (path : List String) :
    nodeAt (diffOption same original edited) path =
      diffOption same (nodeAt original path) (nodeAt edited path) := by
  induction path generalizing original edited with
  | nil => rfl
  | cons key path ih =>
      match edited with
      | none =>
          rw [nodeAt_none]
          exact nodeAt_none (key :: path)
      | some (.leaf value) =>
          have isLeaf : fieldsOf (diffOption same original (some (.leaf value))) = [] := by
            rw [diffOption, Option.bind_some, diff]
            split <;> rfl
          rw [nodeAt, isLeaf]
          simp [nodeAt, fieldsOf, diffOption]
      | some (.list items) =>
          have isLeaf : fieldsOf (diffOption same original (some (.list items))) = [] := by
            rw [diffOption, Option.bind_some, diff]
            split <;> rfl
          rw [nodeAt, isLeaf]
          simp [nodeAt, fieldsOf, diffOption]
      | some (.table fields) =>
          rw [nodeAt, lookup_diffOption (sound _ rfl)]
          exact ih (sound.lookup key) ((fieldsOf original).lookup key)

/-- Wherever both trees have a table, the second one has all names of the first one. -/
def Keeps (original edited : Option (Doc α)) : Prop :=
  ∀ tree ∈ edited, keeps original tree = true

theorem Keeps.lookup {original edited : Option (Doc α)} (kept : Keeps original edited)
    (key : String) : Keeps ((fieldsOf original).lookup key) ((fieldsOf edited).lookup key) := by
  intro tree found
  match edited with
  | some (.table fields) =>
      match original with
      | some (.table known) =>
          exact (keeps_table_iff.mp (kept _ rfl)).2 key tree (mem_of_lookup found)
      | none => cases tree <;> rfl
      | some (.leaf _) => cases tree <;> rfl
      | some (.list _) => cases tree <;> rfl
  | none => cases found
  | some (.leaf _) => cases found
  | some (.list _) => cases found

theorem Keeps.nodeAt {original edited : Option (Doc α)} (kept : Keeps original edited)
    (path : List String) : Keeps (nodeAt original path) (nodeAt edited path) := by
  induction path generalizing original edited with
  | nil => exact kept
  | cons key path ih => exact ih (kept.lookup key)

theorem diffOption_eq_none_iff {original edited : Option (Doc α)} (editedSound : Sound edited)
    (originalSound : Sound original) (kept : Keeps original edited) :
    diffOption same original edited = none ↔
      edited = none ∨ equalOption same original edited = true := by
  cases edited with
  | none => simp [diffOption]
  | some tree =>
      rw [diffOption, Option.bind_some,
        diff_eq_none_iff tree (editedSound tree rfl) originalSound (kept tree rfl)]
      simp

/-- Where the trees differ, the leaf of the difference is the leaf of the edited tree. -/
theorem asLeaf_diffOption_of_changed {original edited : Option (Doc α)}
    (changed : equalOption same original edited = false) :
    asLeaf (diffOption same original edited) = asLeaf edited := by
  match edited with
  | none => rfl
  | some (.leaf value) =>
      rw [diffOption, Option.bind_some, diff_of_not_both fun _ _ _ => by simp, changed]
      rfl
  | some (.list items) =>
      rw [diffOption, Option.bind_some, diff_of_not_both fun _ _ _ => by simp, changed]
      rfl
  | some (.table fields) =>
      rw [diffOption, Option.bind_some]
      rcases @diff_table α same original fields with nothing | ⟨out, isTable⟩
      · rw [nothing]
        rfl
      · rw [isTable]
        rfl

/-- The leaves of a difference are those leaves of the edited tree that are not equal to what the
original tree has there. -/
theorem leafAt_diffOption {original edited : Option (Doc α)} (editedSound : Sound edited)
    (path : List String) (leaf : Doc α) :
    leafAt (diffOption same original edited) path = some leaf ↔
      leafAt edited path = some leaf ∧
        equalOption same (nodeAt original path) (some leaf) = false := by
  rw [leafAt, nodeAt_diffOption editedSound, leafAt]
  match nodeAt edited path with
  | none => simp [diffOption, asLeaf]
  | some (.leaf value) =>
      rw [diffOption, Option.bind_some, diff_of_not_both fun _ _ _ => by simp]
      split
      · rename_i unchanged
        simp only [asLeaf, reduceCtorEq, Option.some.injEq, false_iff, not_and, Bool.not_eq_false]
        rintro rfl
        exact unchanged
      · rename_i changed
        simp only [asLeaf, Option.some.injEq, iff_self_and]
        rintro rfl
        exact Bool.eq_false_iff.mpr changed
  | some (.list items) =>
      rw [diffOption, Option.bind_some, diff_of_not_both fun _ _ _ => by simp]
      split
      · rename_i unchanged
        simp only [asLeaf, reduceCtorEq, Option.some.injEq, false_iff, not_and, Bool.not_eq_false]
        rintro rfl
        exact unchanged
      · rename_i changed
        simp only [asLeaf, Option.some.injEq, iff_self_and]
        rintro rfl
        exact Bool.eq_false_iff.mpr changed
  | some (.table fields) =>
      rw [diffOption, Option.bind_some]
      rcases @diff_table α same (nodeAt original path) fields with nothing | ⟨out, isTable⟩
      · rw [nothing]
        simp [asLeaf]
      · rw [isTable]
        simp [asLeaf]

/-- What the edited tree lost of a kept original stands below a leaf that replaced a table. -/
theorem Keeps.stops {original : Option (Doc α)} {edited : Doc α}
    (kept : Keeps original (some edited)) {path : List String}
    (present : (Doc.nodeAt original path).isSome = true)
    (absent : Doc.nodeAt (some edited) path = none) :
    ∃ above key rest, path = above ++ key :: rest ∧ (leafAt (some edited) above).isSome = true ∧
      asLeaf (Doc.nodeAt original above) = none := by
  induction path generalizing original edited with
  | nil => cases absent
  | cons key path ih =>
      have isTable : asLeaf original = none := by
        by_contra isLeaf
        rw [Doc.nodeAt, fieldsOf_of_asLeaf (Option.isSome_iff_ne_none.mpr isLeaf)] at present
        simp at present
      cases edited with
      | leaf value => exact ⟨[], key, path, rfl, rfl, isTable⟩
      | list items => exact ⟨[], key, path, rfl, rfl, isTable⟩
      | table fields =>
          match original with
          | some (.leaf value) => cases isTable
          | some (.list items) => cases isTable
          | none => simp at present
          | some (.table known) =>
              rw [Doc.nodeAt, fieldsOf] at present absent
              cases entry : fields.lookup key with
              | none =>
                  rw [(keeps_table_iff.mp (kept _ rfl)).1 key entry, nodeAt_none] at present
                  cases present
              | some tree =>
                  rw [entry] at absent
                  have keptHere : Keeps (known.lookup key) (some tree) := by
                    have here := kept.lookup key
                    rwa [fieldsOf, fieldsOf, entry] at here
                  rcases ih keptHere present absent with ⟨above, name, rest, split, isLeaf, wasTable⟩
                  refine ⟨key :: above, name, rest, by rw [split]; rfl, ?_, wasTable⟩
                  rw [leafAt, Doc.nodeAt, fieldsOf, entry]
                  exact isLeaf

/-- Equal documents have equal nodes everywhere. -/
theorem equalOption_nodeAt {a b : Option (Doc α)} (sound : Sound a)
    (equal : equalOption same a b = true) (path : List String) :
    equalOption same (Doc.nodeAt a path) (Doc.nodeAt b path) = true := by
  induction path generalizing a b with
  | nil => exact equal
  | cons key path ih =>
      apply ih (sound.lookup key)
      match a, b with
      | none, none => rfl
      | some (.leaf _), some (.leaf _) => rfl
      | some (.list _), some (.list _) => rfl
      | some (.table known), some (.table fields) =>
          exact (equal_table_iff (sound _ rfl)).mp equal key

theorem equalOption_asLeaf {a b : Option (Doc α)} (equal : equalOption same a b = true) :
    equalOption same (asLeaf a) (asLeaf b) = true := by
  match a, b with
  | none, none => rfl
  | some (.leaf _), some (.leaf _) => exact equal
  | some (.list _), some (.list _) => exact equal
  | some (.table _), some (.table _) => rfl

end Path

end Doc

end TelemtPanel.Library
