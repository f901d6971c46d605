import Mathlib
import TelemtPanel.Library.Sorter
import TelemtPanel.Web.Config.Objects

/-!
# Draft, patch and rebase of a configuration

The configuration page keeps the fetched sections, the draft of the administrator
and, after a revision conflict, the freshly fetched sections.  Three walks relate
them: the sparse patch of the draft, the dotted paths at which two fetches
differ, and the merge of a patch into a base.
-/

namespace TelemtPanel.Web.Config

open Library

variable {Number : Type}

/-- The sections as an object. -/
def Sections.operand (sections : Sections Number) : Operand Number :=
  .value (.table sections.fields)

section Patch

variable [DecidableEq Number]

mutual

/-- What `diffObject` assigns for an edited value, if it differs. -/
def diffValue (original : Operand Number) : Value Number → Option (Value Number)
  | .table edited =>
      if isPlainObject original then
        match diffAssignments original edited with
        | [] => none
        | out => some (.table (assignAll [] out))
      else if valuesEqual original (.value (.table edited)) then none else some (.table edited)
  | .leaf edited =>
      if valuesEqual original (.value (.leaf edited)) then none else some (.leaf edited)
  | .list edited =>
      if valuesEqual original (.value (.list edited)) then none else some (.list edited)

/-- The assignments of `diffObject`, in their order. -/
def diffAssignments (original : Operand Number) : List (String × Value Number) → Fields Number
  | [] => []
  | (key, edited) :: rest =>
      match diffValue (original.get key) edited with
      | none => diffAssignments original rest
      | some change => (key, change) :: diffAssignments original rest

end

/-- The changed entries of a table; nothing if nothing was assigned. -/
def diffObject (original : Operand Number) (edited : Fields Number) : Option (Fields Number) :=
  match diffAssignments original edited with
  | [] => none
  | out => some (assignAll [] out)

/-- What `buildConfigPatch` assigns for a section. -/
def sectionPatch (originalSection : Operand Number) : Value Number → Option (Value Number)
  | .table editedSection => (diffObject originalSection editedSection).map .table
  | editedSection =>
      if valuesEqual originalSection (.value editedSection) then none else some editedSection

omit [DecidableEq Number] in
/-- Assignments to a new object: `__proto__` is lost. -/
theorem lookup_assignAll_nil {assignments : Fields Number}
    (sound : Doc.distinctFields assignments = true) (key : String) :
    (assignAll [] assignments).lookup key =
      if key = protoKey then none else assignments.lookup key := by
  rw [lookup_assignAll sound, setsPrototype, List.lookup_nil, Option.or_none]
  simp

theorem diffAssignments_eq_filterMap (original : Operand Number) (edited : Fields Number) :
    diffAssignments original edited = edited.filterMap fun field =>
      (diffValue (original.get field.1) field.2).map fun change => (field.1, change) := by
  induction edited with
  | nil => rfl
  | cons field rest ih =>
      rcases field with ⟨name, tree⟩
      rw [diffAssignments, List.filterMap_cons, ih]
      cases diffValue (original.get name) tree <;> rfl

theorem diffObject_eq (original : Operand Number) (edited : Fields Number) :
    diffObject original edited =
      if diffAssignments original edited = [] then none
      else some (assignAll [] (diffAssignments original edited)) := by
  rw [diffObject]
  cases diffAssignments original edited <;> simp

theorem diffValue_table {original : Operand Number} (object : isPlainObject original = true)
    (edited : Fields Number) :
    diffValue original (.table edited) = (diffObject original edited).map .table := by
  rw [diffValue, if_pos object, diffObject]
  cases diffAssignments original edited <;> rfl

theorem diffValue_of_not_object {original : Operand Number} {edited : Value Number}
    (notObject : isPlainObject original = true → edited.isTable = false) :
    diffValue original edited =
      if valuesEqual original (.value edited) then none else some edited := by
  cases edited with
  | leaf value => rw [diffValue]
  | list items => rw [diffValue]
  | table fields =>
      rw [diffValue, if_neg]
      intro object
      cases notObject object

/-- The assignments, name by name. -/
theorem lookup_diffAssignments {edited : Fields Number} (sound : Doc.distinctFields edited = true)
    (original : Operand Number) (key : String) :
    (diffAssignments original edited).lookup key =
      (edited.lookup key).bind (diffValue (original.get key)) := by
  rw [diffAssignments_eq_filterMap]
  exact Doc.lookup_filterMap sound (fun key => diffValue (original.get key)) key

omit [DecidableEq Number] in
theorem distinct_of_unless {equal : Bool} {tree change : Value Number}
    (sound : tree.distinct = true) (isChange : (if equal then none else some tree) = some change) :
    change.distinct = true := by
  split at isChange
  · cases isChange
  · cases isChange
    exact sound

theorem distinct_diffValue (edited : Value Number) (sound : edited.distinct = true)
    {original : Operand Number} {change : Value Number}
    (isChange : diffValue original edited = some change) : change.distinct = true := by
  induction edited using Doc.induction generalizing original change with
  | leaf value =>
      rw [diffValue] at isChange
      exact distinct_of_unless sound isChange
  | list items ih =>
      rw [diffValue] at isChange
      exact distinct_of_unless sound isChange
  | table fields ih =>
      by_cases object : isPlainObject original = true
      · rw [diffValue_table object, diffObject] at isChange
        have assigned : Doc.distinctFields (diffAssignments original fields) = true := by
          rw [diffAssignments_eq_filterMap]
          refine @Doc.distinct_filterMap _ _ sound (fun key => diffValue (original.get key)) ?_
          intro key tree mem entry isEntry
          exact ih key tree mem (Doc.distinct_of_mem sound mem) isEntry
        split at isChange
        · cases isChange
        · cases isChange
          exact distinct_assignAll rfl assigned
      · rw [diffValue, if_neg object] at isChange
        exact distinct_of_unless sound isChange

theorem distinct_diffAssignments {edited : Fields Number}
    (sound : Doc.distinctFields edited = true) (original : Operand Number) :
    Doc.distinctFields (diffAssignments original edited) = true := by
  rw [diffAssignments_eq_filterMap]
  refine @Doc.distinct_filterMap _ _ sound (fun key => diffValue (original.get key)) ?_
  intro key tree mem entry isEntry
  exact distinct_diffValue tree (Doc.distinct_of_mem sound mem) isEntry

theorem distinct_sectionPatch {originalSection : Operand Number}
    {editedSection entry : Value Number} (sound : editedSection.distinct = true)
    (isEntry : sectionPatch originalSection editedSection = some entry) :
    entry.distinct = true := by
  cases editedSection with
  | leaf value => exact distinct_of_unless sound isEntry
  | list items => exact distinct_of_unless sound isEntry
  | table fields =>
      rw [sectionPatch, diffObject] at isEntry
      split at isEntry
      · cases isEntry
      · cases isEntry
        exact distinct_assignAll rfl (distinct_diffAssignments sound originalSection)

/-- The assignments of `buildConfigPatch`, in their order. -/
def sectionAssignments (original edited : Sections Number) : Fields Number :=
  edited.fields.filterMap fun field =>
    (sectionPatch (original.operand.get field.1) field.2).map fun entry => (field.1, entry)

theorem distinct_sectionAssignments (original edited : Sections Number) :
    Doc.distinctFields (sectionAssignments original edited) = true := by
  have chosen := @Doc.distinct_filterMap _ _ edited.sound
    (fun name editedSection => sectionPatch (original.operand.get name) editedSection)
  apply chosen
  intro name editedSection mem entry isEntry
  exact distinct_sectionPatch (Doc.distinct_of_mem edited.sound mem) isEntry

/-- The sparse patch: the sections that changed, each with its changed entries. -/
def buildConfigPatch (original edited : Sections Number) : Sections Number where
  fields := assignAll [] (sectionAssignments original edited)
  sound := distinct_assignAll rfl (distinct_sectionAssignments original edited)

theorem lookup_buildConfigPatch (original edited : Sections Number) (name : String) :
    (buildConfigPatch original edited).fields.lookup name =
      if name = protoKey then none
      else (edited.fields.lookup name).bind (sectionPatch (original.operand.get name)) := by
  rw [buildConfigPatch, lookup_assignAll_nil (distinct_sectionAssignments original edited)]
  refine congrArg (ite _ none) ?_
  exact Doc.lookup_filterMap edited.sound
    (fun name editedSection => sectionPatch (original.operand.get name) editedSection) name

end Patch

section Merge

mutual

/-- What `deepMerge` assigns for a value of the patch. -/
def mergeValue (base : Operand Number) : Value Number → Value Number
  | .table patch =>
      if isPlainObject base then .table (assignAll base.entries (mergeAssignments base patch))
      else .table patch
  | .leaf patch => .leaf patch
  | .list patch => .list patch

/-- The assignments of `deepMerge`, in their order. -/
def mergeAssignments (base : Operand Number) : List (String × Value Number) → Fields Number
  | [] => []
  | (key, patch) :: rest => (key, mergeValue (base.get key) patch) :: mergeAssignments base rest

end

theorem mergeAssignments_eq_filterMap (base : Operand Number) (patch : Fields Number) :
    mergeAssignments base patch = patch.filterMap fun field =>
      (some (mergeValue (base.get field.1) field.2)).map fun value => (field.1, value) := by
  induction patch with
  | nil => rfl
  | cons field rest ih =>
      rcases field with ⟨name, tree⟩
      rw [mergeAssignments, List.filterMap_cons, ih]
      rfl

theorem get_sound {object : Operand Number} (sound : Doc.distinctFields object.entries = true)
    (key : String) : Doc.distinctFields (object.get key).entries = true := by
  rw [Operand.get]
  cases own : object.entries.lookup key with
  | none =>
      dsimp only
      rw [entries_inherited]
      rfl
  | some tree =>
      have treeSound := Doc.distinct_of_lookup sound own
      cases tree with
      | leaf value => rfl
      | list items => rfl
      | table fields => exact treeSound

theorem distinct_mergeValue (patch : Value Number) (patchSound : patch.distinct = true)
    {base : Operand Number} (baseSound : Doc.distinctFields base.entries = true) :
    (mergeValue base patch).distinct = true := by
  induction patch using Doc.induction generalizing base with
  | leaf value => rfl
  | list items ih =>
      rw [mergeValue]
      exact patchSound
  | table fields ih =>
      rw [mergeValue]
      split
      · rw [Doc.distinct] at patchSound ⊢
        apply distinct_assignAll baseSound
        rw [mergeAssignments_eq_filterMap]
        refine @Doc.distinct_filterMap _ _ patchSound
          (fun key tree => some (mergeValue (base.get key) tree)) ?_
        rintro key tree mem merged ⟨rfl⟩
        exact ih key tree mem (Doc.distinct_of_mem patchSound mem) (get_sound baseSound key)
      · exact patchSound

theorem distinct_mergeAssignments {patch : Fields Number}
    (patchSound : Doc.distinctFields patch = true) {base : Operand Number}
    (baseSound : Doc.distinctFields base.entries = true) :
    Doc.distinctFields (mergeAssignments base patch) = true := by
  rw [mergeAssignments_eq_filterMap]
  refine @Doc.distinct_filterMap _ _ patchSound
    (fun key tree => some (mergeValue (base.get key) tree)) ?_
  rintro key tree mem merged ⟨rfl⟩
  exact distinct_mergeValue tree (Doc.distinct_of_mem patchSound mem) (get_sound baseSound key)

/-- The overlay of a patch on a base. -/
def deepMerge (base patch : Sections Number) : Sections Number where
  fields := assignAll base.fields (mergeAssignments base.operand patch.fields)
  sound := distinct_assignAll base.sound (distinct_mergeAssignments patch.sound base.sound)

/-- A merged object, name by name. -/
theorem lookup_mergeAssignments {patch : Fields Number}
    (patchSound : Doc.distinctFields patch = true) {base : Operand Number}
    (baseSound : Doc.distinctFields base.entries = true) (key : String) :
    (assignAll base.entries (mergeAssignments base patch)).lookup key =
      if setsPrototype base.entries key then none
      else ((patch.lookup key).map (mergeValue (base.get key))).or (base.entries.lookup key) := by
  rw [lookup_assignAll (distinct_mergeAssignments patchSound baseSound),
    mergeAssignments_eq_filterMap,
    Doc.lookup_filterMap patchSound (fun key tree => some (mergeValue (base.get key) tree)) key]
  cases patch.lookup key <;> rfl

end Merge

section Paths

mutual

/-- The leaves of a patch as dotted paths. -/
def flattenPatchPaths (above : String) : Value Number → List String
  | .table fields => flattenEntries above fields
  | _ => if above ≠ "" then [above] else []

def flattenEntries (above : String) : List (String × Value Number) → List String
  | [] => []
  | (key, value) :: rest =>
      flattenPatchPaths (if above ≠ "" then above ++ "." ++ key else key) value ++
        flattenEntries above rest

end

variable [DecidableEq Number]

mutual

/-- `collectDiffPaths` where the first operand has no names of its own. -/
def collectAdded (above : String) (a : Operand Number) : Value Number → List String
  | .table fields => collectAddedFields above a fields
  | .leaf value =>
      if isPlainObject a then [] else if valuesEqual a (.value (.leaf value)) then [] else [above]
  | .list items =>
      if isPlainObject a then [] else if valuesEqual a (.value (.list items)) then [] else [above]

def collectAddedFields (above : String) (a : Operand Number) :
    List (String × Value Number) → List String
  | [] => []
  | (key, value) :: rest =>
      collectAdded (above ++ "." ++ key) (a.get key) value ++ collectAddedFields above a rest

end

mutual

/-- `collectDiffPaths` where the first operand is a value. -/
def collectDiff (above : String) (b : Operand Number) : Value Number → List String
  | .table fields =>
      collectDiffFields above b fields ++
        collectAddedFields above (.value (.table fields)) (newFields fields b.entries)
  | .leaf value =>
      if isPlainObject b then collectAddedFields above (.value (.leaf value)) b.entries
      else if valuesEqual (.value (.leaf value)) b then [] else [above]
  | .list items =>
      if isPlainObject b then collectAddedFields above (.value (.list items)) b.entries
      else if valuesEqual (.value (.list items)) b then [] else [above]

def collectDiffFields (above : String) (b : Operand Number) :
    List (String × Value Number) → List String
  | [] => []
  | (key, value) :: rest =>
      collectDiff (above ++ "." ++ key) (b.get key) value ++ collectDiffFields above b rest

end

/-- The dotted paths of the leaves at which two values differ. -/
def collectDiffPaths (a b : Operand Number) (above : String) : List String :=
  match a, b with
  | .value a, b => collectDiff above b a
  | .missing, .value b => collectAdded above .missing b
  | .objectPrototype, .value b => collectAdded above .objectPrototype b
  | _, _ => []

/-- The order of JavaScript's `sort`: by UTF-16 code units. -/
def codeUnits (path : String) : List ℕ :=
  path.toList.flatMap fun char =>
    if char.toNat < 0x10000 then [char.toNat]
    else [0xD800 + (char.toNat - 0x10000) / 0x400, 0xDC00 + (char.toNat - 0x10000) % 0x400]

def sortPaths (paths : List String) : List String :=
  (Sorter.stable codeUnits).sort paths

/-- The sections' paths that differ between two fetches. -/
def diffChangedSectionKeys (before after : Sections Number) : List String :=
  sortPaths ((unionKeys before.fields after.fields).flatMap fun name =>
    collectDiffPaths (before.operand.get name) (after.operand.get name) name)

end Paths

structure RebaseResult (Number : Type) where
  edited : Sections Number
  overlapping : List String

/-- The draft on top of a fresh fetch, and the paths touched by both sides. -/
def rebaseEdits (freshBase pendingPatch : Sections Number) (serverChangedKeys : List String) :
    RebaseResult Number where
  edited := deepMerge freshBase pendingPatch
  overlapping := sortPaths
    ((flattenPatchPaths "" (.table pendingPatch.fields)).filter (serverChangedKeys.contains ·))

end TelemtPanel.Web.Config
