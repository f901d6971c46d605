import Mathlib
import TelemtPanel.Web.Config.Patch

/-!
# Paths of a rebase

The walk over two fetches goes over the names of both objects, also below
`Object.prototype` where one of them inherits it.  It lists the leaves at which
the two differ as dotted paths, and the walk over a patch lists all of its leaves.
-/

namespace TelemtPanel.Web.Config

open Library

variable {Number : Type}

section Walks

variable [DecidableEq Number]

theorem collectDiffFields_eq (above : String) (b : Operand Number) (fields : Fields Number) :
    collectDiffFields above b fields = fields.flatMap fun field =>
      collectDiffPaths (.value field.2) (b.get field.1) (above ++ "." ++ field.1) := by
  induction fields with
  | nil => rfl
  | cons field fields ih =>
      rw [collectDiffFields, ih]
      rfl

omit [DecidableEq Number] in
theorem newFields_nil (fields : Fields Number) : newFields [] fields = fields := by
  simp [newFields]

theorem collectAdded_eq {a : Operand Number} (nameless : a.entries = []) (above : String)
    (b : Value Number) : collectAdded above a b = collectDiffPaths a (.value b) above := by
  cases a with
  | missing => rfl
  | objectPrototype => rfl
  | value value =>
      cases value with
      | table fields =>
          rw [show fields = [] from nameless, collectDiffPaths, collectDiff, newFields_nil,
            collectDiffFields]
          cases b <;> rfl
      | leaf value => cases b <;> rfl
      | list items => cases b <;> rfl

theorem collectAddedFields_eq (above : String) {a : Operand Number} {fields : Fields Number}
    (new : ∀ field ∈ fields, a.entries.lookup field.1 = none) :
    collectAddedFields above a fields = fields.flatMap fun field =>
      collectDiffPaths (a.get field.1) (.value field.2) (above ++ "." ++ field.1) := by
  induction fields with
  | nil => rfl
  | cons field fields ih =>
      rcases field with ⟨key, value⟩
      rcases List.forall_mem_cons.mp new with ⟨here, rest⟩
      have nameless : (a.get key).entries = [] := by
        rw [Operand.get, here]
        exact entries_inherited a key
      rw [collectAddedFields, ih rest, collectAdded_eq nameless]
      rfl

/-- Where one of the operands is an object, the walk goes over the fields of the first one and the
new fields of the second one. -/
theorem collectDiffPaths_eq_append {a b : Operand Number}
    (object : isPlainObject a = true ∨ isPlainObject b = true) (above : String) :
    collectDiffPaths a b above = collectDiffFields above b a.entries ++
      collectAddedFields above a (newFields a.entries b.entries) := by
  cases a with
  | value value =>
      cases value with
      | table fields => rfl
      | leaf value =>
          have isObject : isPlainObject b = true := object.resolve_left Bool.false_ne_true
          rw [collectDiffPaths, collectDiff, if_pos isObject]
          exact congrArg _ (newFields_nil b.entries).symm
      | list items =>
          have isObject : isPlainObject b = true := object.resolve_left Bool.false_ne_true
          rw [collectDiffPaths, collectDiff, if_pos isObject]
          exact congrArg _ (newFields_nil b.entries).symm
  | missing =>
      have isObject : isPlainObject b = true := object.resolve_left Bool.false_ne_true
      cases b with
      | value value =>
          cases value with
          | leaf _ => cases isObject
          | list _ => cases isObject
          | table fields => exact congrArg _ (newFields_nil fields).symm
      | objectPrototype => rfl
      | missing => cases isObject
  | objectPrototype =>
      cases b with
      | value value =>
          cases value with
          | leaf _ => rfl
          | list _ => rfl
          | table fields => exact congrArg _ (newFields_nil fields).symm
      | missing => rfl
      | objectPrototype => rfl

/-- Where one of the operands is an object, the walk goes over the names of both. -/
theorem collectDiffPaths_of_object {a b : Operand Number}
    (aSound : Doc.distinctFields a.entries = true) (bSound : Doc.distinctFields b.entries = true)
    (object : isPlainObject a = true ∨ isPlainObject b = true) (above : String) :
    collectDiffPaths a b above = (unionKeys a.entries b.entries).flatMap fun key =>
      collectDiffPaths (a.get key) (b.get key) (above ++ "." ++ key) := by
  have new : ∀ field ∈ newFields a.entries b.entries, a.entries.lookup field.1 = none :=
    fun field mem => (mem_newFields.mp mem).2
  rw [collectDiffPaths_eq_append object, unionKeys, List.flatMap_append, List.flatMap_map,
    List.flatMap_map, collectDiffFields_eq, collectAddedFields_eq above new]
  refine congrArg₂ _ (List.flatMap_congr fun field mem => ?_)
    (List.flatMap_congr fun field mem => ?_)
  · rw [get_of_own (Doc.lookup_of_mem aSound mem)]
  · rw [get_of_own (Doc.lookup_of_mem bSound (mem_newFields.mp mem).1)]

theorem collectDiffPaths_of_leaves {a b : Operand Number} (aLeaf : isPlainObject a = false)
    (bLeaf : isPlainObject b = false) (above : String) :
    collectDiffPaths a b above = if valuesEqual a b then [] else [above] := by
  match a, b with
  | .missing, .missing => rfl
  | .missing, .value (.leaf _) => rfl
  | .missing, .value (.list _) => rfl
  | .value (.leaf value), b =>
      rw [collectDiffPaths, collectDiff, bLeaf, if_neg Bool.false_ne_true]
  | .value (.list items), b =>
      rw [collectDiffPaths, collectDiff, bLeaf, if_neg Bool.false_ne_true]

end Walks

section Reading

/-- Reads the names of a path one after the other. -/
def Operand.readAt (object : Operand Number) : List String → Operand Number
  | [] => object
  | key :: path => (object.get key).readAt path

variable [DecidableEq Number]

/-- At the end of the path both operands read something that is no object, and not the same. -/
def Seen (a b : Operand Number) (path : List String) : Prop :=
  isPlainObject (a.readAt path) = false ∧ isPlainObject (b.readAt path) = false ∧
    valuesEqual (a.readAt path) (b.readAt path) = false

/-- What two operands inherit under one name. -/
inductive Inherited : Operand Number → Operand Number → Prop where
  | missing : Inherited .missing .missing
  | prototypes : Inherited .objectPrototype .objectPrototype
  | left : Inherited .objectPrototype (.value (.leaf .null))
  | right : Inherited (.value (.leaf .null)) .objectPrototype
  | null : Inherited (.value (.leaf .null)) (.value (.leaf .null))

omit [DecidableEq Number] in
theorem inherited_get {a b : Operand Number} {key : String} (aNone : a.entries.lookup key = none)
    (bNone : b.entries.lookup key = none) : Inherited (a.get key) (b.get key) := by
  rw [Operand.get, Operand.get, aNone, bNone]
  dsimp only
  unfold Operand.inherited
  split
  · cases a with
    | value _ =>
        cases b with
        | value _ => exact .prototypes
        | objectPrototype => exact .left
        | missing => exact .prototypes
    | objectPrototype =>
        cases b with
        | value _ => exact .right
        | objectPrototype => exact .null
        | missing => exact .right
    | missing =>
        cases b with
        | value _ => exact .prototypes
        | objectPrototype => exact .left
        | missing => exact .prototypes
  · exact .missing

/-- Nothing is seen below what both operands inherit. -/
theorem Inherited.not_seen {a b : Operand Number} (inherited : Inherited a b)
    (path : List String) : ¬ Seen a b path := by
  induction path generalizing a b with
  | nil =>
      rintro ⟨aLeaf, bLeaf, differ⟩
      rw [Operand.readAt] at aLeaf bLeaf
      rw [Operand.readAt, Operand.readAt] at differ
      cases inherited with
      | missing => cases differ
      | prototypes => cases aLeaf
      | left => cases aLeaf
      | right => cases bLeaf
      | null => simp [valuesEqual, valueEqual, sameScalar] at differ
  | cons key path ih =>
      have aNone : a.entries.lookup key = none := by cases inherited <;> rfl
      have bNone : b.entries.lookup key = none := by cases inherited <;> rfl
      exact ih (inherited_get aNone bNone)

/-- A path below a dotted one. -/
def dottedFrom (above : String) : List String → String
  | [] => above
  | key :: path => dottedFrom (above ++ "." ++ key) path

/-- A path below a flattened one: an empty one adds no dot. -/
def flattenedFrom (above : String) : List String → String
  | [] => above
  | key :: path => flattenedFrom (if above ≠ "" then above ++ "." ++ key else key) path

theorem dottedFrom_ne_empty {above : String} (nonempty : above ≠ "") (path : List String) :
    dottedFrom above path ≠ "" := by
  induction path generalizing above with
  | nil => exact nonempty
  | cons key path ih =>
      apply ih
      simp

theorem flattenedFrom_eq {above : String} (nonempty : above ≠ "") (path : List String) :
    flattenedFrom above path = dottedFrom above path := by
  induction path generalizing above with
  | nil => rfl
  | cons key path ih =>
      rw [flattenedFrom, if_pos nonempty, dottedFrom]
      apply ih
      simp

/-- A name on a path at whose end a difference is seen is a name of one of the objects. -/
theorem own_of_seen {a b : Operand Number} {key : String} {path : List String}
    (seen : Seen a b (key :: path)) :
    (a.entries.lookup key).isSome = true ∨ (b.entries.lookup key).isSome = true := by
  by_contra neither
  rw [not_or, Option.not_isSome_iff_eq_none, Option.not_isSome_iff_eq_none] at neither
  exact (inherited_get neither.1 neither.2).not_seen path seen

/-- Every difference that is seen is listed. -/
theorem mem_collectDiffPaths {a b : Operand Number}
    (aSound : Doc.distinctFields a.entries = true) (bSound : Doc.distinctFields b.entries = true)
    {path : List String} (seen : Seen a b path) (above : String) :
    dottedFrom above path ∈ collectDiffPaths a b above := by
  induction path generalizing a b above with
  | nil =>
      rcases seen with ⟨aLeaf, bLeaf, differ⟩
      rw [Operand.readAt] at aLeaf bLeaf
      rw [Operand.readAt, Operand.readAt] at differ
      rw [collectDiffPaths_of_leaves aLeaf bLeaf, differ]
      exact List.mem_singleton_self above
  | cons key path ih =>
      have present := own_of_seen seen
      have object := present.imp isPlainObject_of_own isPlainObject_of_own
      rw [collectDiffPaths_of_object aSound bSound object, List.mem_flatMap]
      exact ⟨key, mem_unionKeys present,
        ih (get_sound aSound key) (get_sound bSound key) seen _⟩

theorem mem_diffChangedSectionKeys {before after : Sections Number} {name : String}
    {path : List String} (seen : Seen before.operand after.operand (name :: path)) :
    dottedFrom name path ∈ diffChangedSectionKeys before after := by
  rw [diffChangedSectionKeys, sortPaths, Sorter.mem_sort, List.mem_flatMap]
  exact ⟨name, mem_unionKeys (own_of_seen seen),
    mem_collectDiffPaths (@get_sound _ before.operand before.sound name)
      (@get_sound _ after.operand after.sound name) seen name⟩

end Reading

section Flattened

theorem flattenEntries_eq (above : String) (fields : Fields Number) :
    flattenEntries above fields = fields.flatMap fun field =>
      flattenPatchPaths (if above ≠ "" then above ++ "." ++ field.1 else field.1) field.2 := by
  induction fields with
  | nil => rfl
  | cons field fields ih =>
      rw [flattenEntries, ih]
      rfl

/-- Every leaf of a patch is listed. -/
theorem mem_flattenPatchPaths {value leaf : Value Number} {path : List String}
    (found : Doc.leafAt (some value) path = some leaf) {above : String}
    (nonempty : flattenedFrom above path ≠ "") :
    flattenedFrom above path ∈ flattenPatchPaths above value := by
  induction path generalizing value above with
  | nil =>
      have here : above ≠ "" := nonempty
      cases value with
      | leaf scalar =>
          rw [flattenPatchPaths, if_pos here]
          · exact List.mem_singleton_self above
          · simp
      | list items =>
          rw [flattenPatchPaths, if_pos here]
          · exact List.mem_singleton_self above
          · simp
      | table fields => cases found
  | cons key path ih =>
      cases value with
      | leaf scalar =>
          rw [Doc.leafAt, Doc.nodeAt, Doc.fieldsOf, List.lookup_nil, Doc.nodeAt_none] at found
          · cases found
          · simp
      | list items =>
          rw [Doc.leafAt, Doc.nodeAt, Doc.fieldsOf, List.lookup_nil, Doc.nodeAt_none] at found
          · cases found
          · simp
      | table fields =>
          rw [flattenPatchPaths, flattenEntries_eq, List.mem_flatMap]
          rw [Doc.leafAt, Doc.nodeAt, Doc.fieldsOf] at found
          cases entry : fields.lookup key with
          | none =>
              rw [entry, Doc.nodeAt_none] at found
              cases found
          | some value =>
              rw [entry] at found
              exact ⟨(key, value), Doc.mem_of_lookup entry, ih found nonempty⟩

end Flattened

end TelemtPanel.Web.Config
