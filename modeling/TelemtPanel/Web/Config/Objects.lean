import Mathlib
import TelemtPanel.Library.Doc

/-!
# Objects of a configuration

A JSON object is the list of its own fields.  Its names are distinct at every depth; the type
`Number` stands for the numbers under `===`.

Properties are read and assigned as on any object.  One that has no field `__proto__` of its own
inherits an accessor of that name: reading it gives `Object.prototype`, an object without
enumerable properties, and assigning it sets the prototype and adds no field.  Whatever else an
object inherits is a function, which compares with a value as a missing property does.
-/

namespace TelemtPanel.Web.Config

open Library

inductive Scalar (Number : Type) where
  | null
  | bool (value : Bool)
  | number (value : Number)
  | string (value : String)
  deriving DecidableEq

abbrev Value (Number : Type) : Type := Doc (Scalar Number)

abbrev Fields (Number : Type) : Type := Doc.Fields (Scalar Number)

/-- The sections of a configuration: a JSON object. -/
structure Sections (Number : Type) where
  fields : Fields Number
  sound : Doc.distinctFields fields = true

variable {Number : Type}

/-- The sections as a value. -/
def Sections.whole (sections : Sections Number) : Option (Value Number) :=
  some (.table sections.fields)

theorem Sections.whole_sound (sections : Sections Number) : Doc.Sound sections.whole := by
  rintro tree ⟨rfl⟩
  exact sections.sound

section Properties

/-- What a walk looks at: a value, `Object.prototype` or neither. -/
inductive Operand (Number : Type) where
  | missing
  | value (value : Value Number)
  | objectPrototype

def Operand.of : Option (Value Number) → Operand Number
  | none => .missing
  | some tree => .value tree

def protoKey : String := "__proto__"

def isPlainObject : Operand Number → Bool
  | .value (.table _) => true
  | .objectPrototype => true
  | _ => false

/-- The own fields of an object. -/
def Operand.entries : Operand Number → Fields Number
  | .value (.table fields) => fields
  | _ => []

/-- The property that an object inherits; `Object.prototype` itself has no prototype. -/
def Operand.inherited (object : Operand Number) (key : String) : Operand Number :=
  if key = protoKey then
    match object with
    | .objectPrototype => .value (.leaf .null)
    | _ => .objectPrototype
  else .missing

/-- Reads a property.  What is no object is read as the empty object that stands in for it. -/
def Operand.get (object : Operand Number) (key : String) : Operand Number :=
  match object.entries.lookup key with
  | some tree => .value tree
  | none => object.inherited key

/-- An assignment sets the prototype of the object. -/
def setsPrototype (fields : Fields Number) (key : String) : Bool :=
  decide (key = protoKey) && (fields.lookup key).isNone

/-- `fields[key] = value`. -/
def assign (fields : Fields Number) (key : String) (value : Value Number) : Fields Number :=
  if setsPrototype fields key then fields else Doc.setField fields key value

/-- Several assignments, one after the other. -/
def assignAll (fields assignments : Fields Number) : Fields Number :=
  assignments.foldl (fun fields assignment => assign fields assignment.1 assignment.2) fields

theorem assignAll_cons (fields : Fields Number) (key : String) (value : Value Number)
    (rest : Fields Number) :
    assignAll fields ((key, value) :: rest) = assignAll (assign fields key value) rest :=
  rfl

theorem entries_of (operand : Option (Value Number)) :
    (Operand.of operand).entries = Doc.fieldsOf operand := by
  match operand with
  | none => rfl
  | some (.leaf _) => rfl
  | some (.list _) => rfl
  | some (.table _) => rfl

theorem get_of_own {object : Operand Number} {key : String} {value : Value Number}
    (own : object.entries.lookup key = some value) : object.get key = .value value := by
  rw [Operand.get, own]

/-- A property that is not inherited is an own field or missing. -/
theorem get_eq_of {object : Operand Number} {key : String}
    (plain : key = protoKey → (object.entries.lookup key).isSome = true) :
    object.get key = Operand.of (object.entries.lookup key) := by
  rw [Operand.get]
  cases own : object.entries.lookup key with
  | some value => rfl
  | none =>
      rw [own] at plain
      exact if_neg fun isProto => Bool.false_ne_true (plain isProto)

/-- What an object inherits has no fields. -/
theorem entries_inherited (object : Operand Number) (key : String) :
    (object.inherited key).entries = [] := by
  unfold Operand.inherited
  split
  · match object with
    | .missing => rfl
    | .value _ => rfl
    | .objectPrototype => rfl
  · rfl

/-- An own field, and what is inherited under no other name than `__proto__`. -/
theorem get_of (value : Option (Value Number)) {key : String}
    (plain : key = protoKey → ((Doc.fieldsOf value).lookup key).isSome = true) :
    (Operand.of value).get key = Operand.of ((Doc.fieldsOf value).lookup key) := by
  rw [← entries_of] at plain ⊢
  exact get_eq_of plain

theorem isPlainObject_of_own {object : Operand Number} {key : String}
    (own : (object.entries.lookup key).isSome = true) : isPlainObject object = true := by
  match object with
  | .missing => cases own
  | .value (.leaf _) => cases own
  | .value (.list _) => cases own
  | .value (.table _) => rfl
  | .objectPrototype => rfl

def isTable : Option (Value Number) → Bool
  | some (.table _) => true
  | _ => false

theorem isTable_iff {value : Option (Value Number)} :
    isTable value = true ↔ ∃ fields, value = some (.table fields) := by
  match value with
  | none => simp [isTable]
  | some (.leaf _) => simp [isTable]
  | some (.list _) => simp [isTable]
  | some (.table _) => simp [isTable]

theorem ne_table {value : Option (Value Number)} (notTable : isTable value = false)
    (fields : Fields Number) : value ≠ some (.table fields) := by
  rintro rfl
  cases notTable

theorem isPlainObject_of (value : Option (Value Number)) :
    isPlainObject (Operand.of value) = isTable value := by
  match value with
  | none => rfl
  | some (.leaf _) => rfl
  | some (.list _) => rfl
  | some (.table _) => rfl

/-- A tree with something below it is a table. -/
theorem isTable_of_nodeAt {value : Option (Value Number)} {key : String} {path : List String}
    (present : (Doc.nodeAt value (key :: path)).isSome = true) : isTable value = true := by
  match value with
  | none => simp at present
  | some (.leaf _) => simp [Doc.nodeAt, Doc.fieldsOf] at present
  | some (.list _) => simp [Doc.nodeAt, Doc.fieldsOf] at present
  | some (.table _) => rfl

theorem distinct_assign {fields : Fields Number} (sound : Doc.distinctFields fields = true)
    (key : String) {value : Value Number} (valueSound : value.distinct = true) :
    Doc.distinctFields (assign fields key value) = true := by
  unfold assign
  split
  · exact sound
  · exact Doc.distinctFields_setField sound key valueSound

theorem distinct_assignAll {fields assignments : Fields Number}
    (sound : Doc.distinctFields fields = true)
    (assignmentsSound : Doc.distinctFields assignments = true) :
    Doc.distinctFields (assignAll fields assignments) = true := by
  induction assignments generalizing fields with
  | nil => exact sound
  | cons assignment rest ih =>
      rcases assignment with ⟨key, value⟩
      rcases Doc.distinctFields_cons.mp assignmentsSound with ⟨-, valueSound, restSound⟩
      exact ih (distinct_assign sound key valueSound) restSound

theorem setsPrototype_iff {fields : Fields Number} {key : String} :
    setsPrototype fields key = true ↔ key = protoKey ∧ fields.lookup key = none := by
  rw [setsPrototype, Bool.and_eq_true, decide_eq_true_eq, Option.isNone_iff_eq_none]

theorem lookup_assign (fields : Fields Number) (key other : String) (value : Value Number) :
    (assign fields key value).lookup other =
      if other = key ∧ setsPrototype fields key = false then some value
      else fields.lookup other := by
  unfold assign
  split
  · rename_i sets
    simp [sets]
  · rename_i kept
    simp [Doc.lookup_setField, Bool.eq_false_iff.mpr kept]

/-- The fields after some assignments: `__proto__` stays missing where it is no own field. -/
theorem lookup_assignAll {assignments : Fields Number}
    (sound : Doc.distinctFields assignments = true) (fields : Fields Number) (key : String) :
    (assignAll fields assignments).lookup key =
      if setsPrototype fields key then none
      else (assignments.lookup key).or (fields.lookup key) := by
  induction assignments generalizing fields with
  | nil =>
      rw [List.lookup_nil, Option.none_or]
      split
      · rename_i sets
        exact (setsPrototype_iff.mp sets).2
      · rfl
  | cons assignment rest ih =>
      rcases assignment with ⟨name, value⟩
      rcases Doc.distinctFields_cons.mp sound with ⟨fresh, -, restSound⟩
      have assigned := lookup_assign fields name key value
      rw [assignAll_cons, ih restSound, setsPrototype, assigned, Doc.lookup_cons]
      by_cases here : key = name
      · subst here
        rw [fresh, if_pos rfl, Option.none_or]
        cases sets : setsPrototype fields key with
        | true =>
            have absent := (setsPrototype_iff.mp sets).2
            simp only [Bool.true_eq_false, and_false, if_false, absent, ite_self, if_true]
        | false => simp
      · simp only [here, false_and, if_false]
        rfl

end Properties

section Equality

variable [DecidableEq Number]

/-- `===` on scalars. -/
def sameScalar (a b : Scalar Number) : Bool :=
  decide (a = b)

theorem sameScalar_self (value : Scalar Number) : sameScalar value value = true := by
  simp [sameScalar]

/-- Two JSON values, either of which may be missing, are the same. -/
def jsonEqual (a b : Option (Value Number)) : Bool :=
  Doc.equalOption sameScalar a b

def isNull : Value Number → Bool
  | .leaf .null => true
  | _ => false

/-- `valuesEqual` of `Object.prototype`, which has no names of its own and no prototype. -/
def prototypeEqual : Value Number → Bool
  | .table fields => fields.all fun field => decide (field.1 = protoKey) && isNull field.2
  | _ => false

mutual

/-- `valuesEqual` of a value: objects are compared under the names of both. -/
def valueEqual (b : Operand Number) : Value Number → Bool
  | .leaf value =>
      match b with
      | .value (.leaf other) => sameScalar value other
      | _ => false
  | .list items =>
      match b with
      | .value (.list others) => itemsEqual others items
      | _ => false
  | .table fields =>
      isPlainObject b && fieldsEqual b fields && b.entries.all fun field =>
        (fields.lookup field.1).isSome || (decide (field.1 = protoKey) && prototypeEqual field.2)

def itemsEqual (others : List (Value Number)) : List (Value Number) → Bool
  | [] => others.isEmpty
  | item :: items =>
      match others with
      | [] => false
      | other :: others => valueEqual (.value other) item && itemsEqual others items

def fieldsEqual (b : Operand Number) : List (String × Value Number) → Bool
  | [] => true
  | (key, value) :: fields => valueEqual (b.get key) value && fieldsEqual b fields

end

/-- `valuesEqual`. -/
def valuesEqual (a b : Operand Number) : Bool :=
  match a, b with
  | .value a, b => valueEqual b a
  | .objectPrototype, .value b => prototypeEqual b
  | .objectPrototype, .objectPrototype => true
  | .missing, .missing => true
  | _, _ => false

/-- The fields of a second table under names that the first one does not have. -/
def newFields (before after : Fields Number) : Fields Number :=
  after.filter fun field => (before.lookup field.1).isNone

/-- The names of either table. -/
def unionKeys (a b : Fields Number) : List String :=
  a.map Prod.fst ++ (newFields a b).map Prod.fst

omit [DecidableEq Number] in
theorem mem_newFields {before after : Fields Number} {field : String × Value Number} :
    field ∈ newFields before after ↔ field ∈ after ∧ before.lookup field.1 = none := by
  simp [newFields]

omit [DecidableEq Number] in
theorem mem_unionKeys {a b : Fields Number} {key : String}
    (present : (a.lookup key).isSome = true ∨ (b.lookup key).isSome = true) :
    key ∈ unionKeys a b := by
  rw [unionKeys, List.mem_append, List.mem_map, List.mem_map]
  cases found : a.lookup key with
  | some value => exact .inl ⟨(key, value), Doc.mem_of_lookup found, rfl⟩
  | none =>
      rw [found] at present
      rcases present with absurd_ | inAfter
      · cases absurd_
      rcases Option.isSome_iff_exists.mp inAfter with ⟨value, isValue⟩
      exact .inr ⟨(key, value), mem_newFields.mpr ⟨Doc.mem_of_lookup isValue, found⟩, rfl⟩

theorem fieldsEqual_iff {b : Operand Number} {fields : Fields Number} :
    fieldsEqual b fields = true ↔
      ∀ key value, (key, value) ∈ fields → valueEqual (b.get key) value = true := by
  induction fields with
  | nil => simp [fieldsEqual]
  | cons field fields ih =>
      rcases field with ⟨name, first⟩
      simp only [fieldsEqual, Bool.and_eq_true, ih, List.mem_cons, Prod.mk.injEq]
      constructor
      · rintro ⟨here, rest⟩ key value (⟨rfl, rfl⟩ | later)
        · exact here
        · exact rest key value later
      · intro all
        exact ⟨all name first (.inl ⟨rfl, rfl⟩), fun key value later => all key value (.inr later)⟩

/-- Lists are equal if their items are. -/
theorem itemsEqual_of_equalItems {items others : List (Value Number)}
    (each : ∀ item ∈ items, ∀ other, Doc.equal sameScalar item other = true →
      valueEqual (.value other) item = true)
    (same : Doc.equalItems sameScalar items others = true) : itemsEqual others items = true := by
  induction items generalizing others with
  | nil =>
      cases others with
      | nil => rfl
      | cons other others => cases same
  | cons item items ih =>
      cases others with
      | nil => cases same
      | cons other others =>
          rw [Doc.equalItems, Bool.and_eq_true] at same
          rw [itemsEqual, Bool.and_eq_true]
          rcases List.forall_mem_cons.mp each with ⟨here, later⟩
          exact ⟨here other same.1, ih later same.2⟩

/-- Tables are equal if their fields are. -/
theorem valueEqual_table {fields others : Fields Number}
    (sound : Doc.distinctFields fields = true)
    (each : ∀ key value, (key, value) ∈ fields → ∀ other, Doc.equal sameScalar value other = true →
      valueEqual (.value other) value = true)
    (same : Doc.equal sameScalar (.table fields) (.table others) = true) :
    valueEqual (.value (.table others)) (.table fields) = true := by
  rw [Doc.equal_table_iff sound] at same
  rw [valueEqual, Bool.and_eq_true, Bool.and_eq_true, fieldsEqual_iff, List.all_eq_true]
  refine ⟨⟨rfl, ?_⟩, ?_⟩
  · intro key value mem
    have here := same key
    rw [Doc.lookup_of_mem sound mem] at here
    cases own : others.lookup key with
    | none =>
        rw [own] at here
        cases here
    | some other =>
        rw [own] at here
        rw [get_of_own own]
        exact each key value mem other here
  · intro field mem
    rw [Bool.or_eq_true]
    have here := same field.1
    cases own : fields.lookup field.1 with
    | some value => exact .inl rfl
    | none =>
        rw [own] at here
        cases other : others.lookup field.1 with
        | some value =>
            rw [other] at here
            cases here
        | none =>
            have absent := List.lookup_eq_none_iff.mp other field mem
            simp at absent

/-- Values that are the same are equal. -/
theorem valueEqual_of_equal {a b : Value Number} (aSound : a.distinct = true)
    (same : Doc.equal sameScalar a b = true) : valueEqual (.value b) a = true := by
  induction a using Doc.induction generalizing b with
  | leaf value =>
      cases b with
      | leaf other => exact same
      | list others => cases same
      | table others => cases same
  | list items ih =>
      cases b with
      | leaf other => cases same
      | list others =>
          exact itemsEqual_of_equalItems (fun item mem _ =>
            ih item mem (Doc.distinct_of_mem_items aSound mem)) same
      | table others => cases same
  | table fields ih =>
      cases b with
      | leaf other => cases same
      | list others => cases same
      | table others =>
          exact valueEqual_table aSound (fun key value mem _ =>
            ih key value mem (Doc.distinct_of_mem aSound mem)) same

theorem valuesEqual_of_jsonEqual {a b : Option (Value Number)} (aSound : Doc.Sound a)
    (same : jsonEqual a b = true) : valuesEqual (Operand.of a) (Operand.of b) = true := by
  match a, b with
  | none, none => rfl
  | some a, some b => exact valueEqual_of_equal (aSound a rfl) same

theorem jsonEqual_self {value : Option (Value Number)} (sound : Doc.Sound value) :
    jsonEqual value value = true :=
  Doc.equalOption_self sameScalar_self sound

end Equality

end TelemtPanel.Web.Config
