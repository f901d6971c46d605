import Mathlib
import TelemtPanel.Web.Config.Merge

/-!
# What a patch keeps of a draft

Without `__proto__` in the way the patch is the sparse difference of the draft
from the baseline, and a merge is an overlay.  Laid over the baseline the patch
then yields the draft.  It does so exactly if nothing of the draft is dropped: no
empty section, no field `__proto__` that is assigned to a new object, and no leaf
that is taken for another one.
-/

namespace TelemtPanel.Web.Config

open Library

variable {Number : Type}

section Conditions

variable [DecidableEq Number]

/-- In every table of both trees a field `__proto__` of the second one is that of the first one. -/
def KeepsProto (original edited : Option (Value Number)) : Prop :=
  ∀ above, (Doc.nodeAt edited (above ++ [protoKey])).isSome = true →
    isTable (Doc.nodeAt original above) = true →
      jsonEqual (Doc.nodeAt original (above ++ [protoKey]))
        (Doc.nodeAt edited (above ++ [protoKey])) = true

/-- What is taken for a leaf of the second tree is the same. -/
def TellsLeaves (original edited : Option (Value Number)) : Prop :=
  ∀ path, (Doc.leafAt edited path).isSome = true →
    valuesEqual (Operand.of (Doc.nodeAt original path)) (Operand.of (Doc.nodeAt edited path)) =
      true → jsonEqual (Doc.nodeAt original path) (Doc.nodeAt edited path) = true

theorem KeepsProto.lookup {original edited : Option (Value Number)}
    (kept : KeepsProto original edited) (key : String) :
    KeepsProto ((Doc.fieldsOf original).lookup key) ((Doc.fieldsOf edited).lookup key) :=
  fun above => kept (key :: above)

theorem TellsLeaves.lookup {original edited : Option (Value Number)}
    (told : TellsLeaves original edited) (key : String) :
    TellsLeaves ((Doc.fieldsOf original).lookup key) ((Doc.fieldsOf edited).lookup key) :=
  fun path => told (key :: path)

/-- A table that keeps the field `__proto__` has it if the edited one has. -/
theorem KeepsProto.own {known : Fields Number} {edited : Option (Value Number)}
    (kept : KeepsProto (some (.table known)) edited)
    (has : ((Doc.fieldsOf edited).lookup protoKey).isSome = true) :
    jsonEqual (known.lookup protoKey) ((Doc.fieldsOf edited).lookup protoKey) = true ∧
      (known.lookup protoKey).isSome = true := by
  have same : jsonEqual (known.lookup protoKey) ((Doc.fieldsOf edited).lookup protoKey) = true :=
    kept [] has rfl
  refine ⟨same, ?_⟩
  rcases Option.isSome_iff_exists.mp has with ⟨tree, isTree⟩
  cases own : known.lookup protoKey with
  | some value => rfl
  | none =>
      rw [own, isTree] at same
      cases same

/-- The draft keeps the keys of the baseline. -/
def KeepsKeys (original edited : Sections Number) : Prop :=
  Doc.Keeps original.whole edited.whole

/-- The patch sends all of the draft. -/
structure Sent (original edited : Sections Number) : Prop where
  /-- A section that is empty or has a field `__proto__` was a table. -/
  sections : ∀ name fields, edited.fields.lookup name = some (.table fields) →
    fields = [] ∨ (fields.lookup protoKey).isSome = true →
      isTable (original.fields.lookup name) = true
  proto : KeepsProto original.whole edited.whole
  told : TellsLeaves original.whole edited.whole

end Conditions

section Differences

variable [DecidableEq Number]

theorem valuesEqual_missing (value : Value Number) :
    valuesEqual .missing (.value value) = false := by
  cases value <;> rfl

omit [DecidableEq Number] in
theorem setField_of_new {fields : Fields Number} {key : String} (new : fields.lookup key = none)
    (value : Value Number) : Doc.setField fields key value = fields ++ [(key, value)] := by
  induction fields with
  | nil => rfl
  | cons field fields ih =>
      rcases field with ⟨name, old⟩
      rw [Doc.lookup_cons] at new
      split at new
      · cases new
      · rename_i differ
        rw [Doc.setField, if_neg fun same => differ same.symm, ih new]
        rfl

omit [DecidableEq Number] in
/-- Without `__proto__` the assignments to a new object are its fields. -/
theorem assignAll_nil {assignments : Fields Number}
    (sound : Doc.distinctFields assignments = true)
    (plain : assignments.lookup protoKey = none) : assignAll [] assignments = assignments := by
  have appended : ∀ rest done : Fields Number, Doc.distinctFields rest = true →
      rest.lookup protoKey = none → (∀ field ∈ rest, done.lookup field.1 = none) →
      assignAll done rest = done ++ rest := by
    intro rest
    induction rest with
    | nil =>
        intro done _ _ _
        exact (List.append_nil done).symm
    | cons field rest ih =>
        rcases field with ⟨key, value⟩
        intro done restSound restPlain new
        rcases Doc.distinctFields_cons.mp restSound with ⟨fresh, -, laterSound⟩
        rcases List.forall_mem_cons.mp new with ⟨isNew, laterNew⟩
        rw [Doc.lookup_cons] at restPlain
        split at restPlain
        · cases restPlain
        · rename_i notProto
          have assigned : assign done key value = done ++ [(key, value)] := by
            rw [assign, if_neg fun sets => notProto (setsPrototype_iff.mp sets).1.symm,
              setField_of_new isNew]
          rw [assignAll_cons, assigned, ih _ laterSound restPlain, List.append_assoc]
          · rfl
          · intro field mem
            have other : field.1 ≠ key := by
              rintro rfl
              have absent := List.lookup_eq_none_iff.mp fresh field mem
              simp at absent
            have before := laterNew field mem
            have after := Doc.lookup_setField done key field.1 value
            rw [setField_of_new isNew, if_neg other] at after
            exact after.trans before
  exact appended assignments [] sound plain fun _ _ => rfl

theorem diffValue_eq_diff_of_leaf {edited : Value Number} (isLeaf : edited.isTable = false)
    {original : Option (Value Number)} (originalSound : Doc.Sound original)
    (told : TellsLeaves original (some edited)) :
    diffValue (Operand.of original) edited = Doc.diff sameScalar original edited := by
  have present : (Doc.leafAt (some edited) []).isSome = true := by
    cases edited with
    | leaf _ => rfl
    | list _ => rfl
    | table _ => cases isLeaf
  have agree : valuesEqual (Operand.of original) (.value edited) =
      Doc.equalOption sameScalar original (some edited) := by
    rw [Bool.eq_iff_iff]
    exact ⟨told [] present, valuesEqual_of_jsonEqual originalSound⟩
  rw [diffValue_of_not_object fun _ => isLeaf, Doc.diff_of_not_both, agree]
  rintro known fields - rfl
  cases isLeaf

/-- The difference of two tables has no field `__proto__`. -/
theorem lookup_diffFields_proto {known fields : Fields Number}
    (knownSound : Doc.distinctFields known = true) (sound : Doc.distinctFields fields = true)
    (kept : Doc.keeps (some (.table known)) (.table fields) = true)
    (proto : KeepsProto (some (.table known)) (some (.table fields))) :
    (Doc.diffFields sameScalar known fields).lookup protoKey = none := by
  rw [Doc.lookup_diffFields sound]
  cases found : fields.lookup protoKey with
  | none => rfl
  | some tree =>
      have same := (proto.own (by rw [Doc.fieldsOf, found]; rfl)).1
      rw [Doc.fieldsOf, found] at same
      exact (Doc.diff_eq_none_iff tree (Doc.distinct_of_lookup sound found)
        (fun t isT => Doc.distinct_of_lookup knownSound isT)
        ((Doc.keeps_table_iff.mp kept).2 _ tree (Doc.mem_of_lookup found))).mpr same

/-- The assignments for a table are the fields of the difference, if those of its fields are. -/
theorem diffAssignments_eq_diffFields {known fields : Fields Number}
    (sound : Doc.distinctFields fields = true)
    (proto : KeepsProto (some (.table known)) (some (.table fields)))
    (each : ∀ key tree, (key, tree) ∈ fields → diffValue (Operand.of (known.lookup key)) tree =
      Doc.diff sameScalar (known.lookup key) tree) :
    diffAssignments (.value (.table known)) fields = Doc.diffFields sameScalar known fields := by
  rw [diffAssignments_eq_filterMap, Doc.diffFields_eq_filterMap]
  refine List.filterMap_congr fun field mem => ?_
  have read : (Operand.value (.table known)).get field.1 = Operand.of (known.lookup field.1) := by
    apply get_of (some (.table known))
    intro isProto
    have found := Doc.lookup_of_mem sound mem
    rw [isProto] at found ⊢
    exact (proto.own (by rw [Doc.fieldsOf, found]; rfl)).2
  rw [read, each field.1 field.2 mem]

/-- Without `__proto__` in the way an edited value's entry is the difference of the two. -/
theorem diffValue_eq_diff (edited : Value Number) (sound : edited.distinct = true)
    {original : Option (Value Number)} (originalSound : Doc.Sound original)
    (kept : Doc.keeps original edited = true) (proto : KeepsProto original (some edited))
    (told : TellsLeaves original (some edited)) :
    diffValue (Operand.of original) edited = Doc.diff sameScalar original edited := by
  induction edited using Doc.induction generalizing original with
  | leaf value => exact diffValue_eq_diff_of_leaf rfl originalSound told
  | list items ih => exact diffValue_eq_diff_of_leaf rfl originalSound told
  | table fields ih =>
      by_cases object : ∃ known, original = some (.table known)
      · rcases object with ⟨known, rfl⟩
        have knownSound : Doc.distinctFields known = true := originalSound _ rfl
        have assignments := @diffAssignments_eq_diffFields _ _ known fields sound proto
          (by
            intro key tree mem
            have found := Doc.lookup_of_mem sound mem
            have protoHere := proto.lookup key
            have toldHere := told.lookup key
            rw [Doc.fieldsOf, Doc.fieldsOf, found] at protoHere toldHere
            exact ih key tree mem (Doc.distinct_of_mem sound mem) (originalSound.lookup key)
              ((Doc.keeps_table_iff.mp kept).2 key tree mem) protoHere toldHere)
        have differenceSound :
            Doc.distinctFields (Doc.diffFields sameScalar known fields) = true := by
          rw [← assignments]
          exact distinct_diffAssignments sound _
        have plain := lookup_diffFields_proto knownSound sound kept proto
        rw [Operand.of, diffValue_table rfl, Doc.diff_table_table, diffObject_eq, assignments,
          assignAll_nil differenceSound plain]
        split <;> rfl
      · have notTable : isPlainObject (Operand.of original) = false := by
          rw [isPlainObject_of, Bool.eq_false_iff, Ne, isTable_iff]
          exact object
        have differ : Doc.equalOption sameScalar original (some (.table fields)) = false :=
          Doc.equalOption_table_of_not_table fun known isKnown => object ⟨known, isKnown⟩
        have told_ : valuesEqual (Operand.of original) (.value (.table fields)) = false := by
          rcases original with _ | (_ | _ | known)
          · rfl
          · rfl
          · rfl
          · exact absurd ⟨known, rfl⟩ object
        rw [diffValue, if_neg (Bool.eq_false_iff.mp notTable), told_,
          Doc.diff_of_not_both fun known _ isKnown => absurd ⟨known, isKnown⟩ object, differ]

theorem diffValue_missing (edited : Value Number) : diffValue .missing edited = some edited := by
  have notObject : isPlainObject (.missing : Operand Number) = true → edited.isTable = false := by
    intro object
    cases object
  rw [diffValue_of_not_object notObject, valuesEqual_missing]
  rfl

/-- Every field of a new table without `__proto__` is assigned. -/
theorem diffAssignments_new {original : Option (Value Number)} (notTable : isTable original = false)
    {fields : Fields Number} (sound : Doc.distinctFields fields = true)
    (plain : fields.lookup protoKey = none) :
    diffAssignments (Operand.of original) fields = fields := by
  have nothing : Doc.fieldsOf original = [] := Doc.fieldsOf_of_not_table (ne_table notTable)
  have each : ∀ field ∈ fields, ((diffValue ((Operand.of original).get field.1) field.2).map
      fun change => (field.1, change)) = some field := by
    intro field mem
    rw [get_of, nothing, List.lookup_nil, Operand.of, diffValue_missing]
    · rfl
    · intro isProto
      rw [← isProto, Doc.lookup_of_mem sound mem] at plain
      cases plain
  rw [diffAssignments_eq_filterMap, List.filterMap_congr each, List.filterMap_some]

end Differences

section Patches

variable [DecidableEq Number] {original edited : Sections Number}

theorem Sent.get_section (sent : Sent original edited) {name : String}
    (has : (edited.fields.lookup name).isSome = true) :
    original.operand.get name = Operand.of (original.fields.lookup name) := by
  apply get_of original.whole
  rintro rfl
  exact (@KeepsProto.own _ _ original.fields _ sent.proto has).2

/-- A section's entry is the difference of the two sections. -/
theorem sectionPatch_eq_diff (kept : KeepsKeys original edited) (sent : Sent original edited)
    {name : String} {editedSection : Value Number}
    (found : edited.fields.lookup name = some editedSection) :
    sectionPatch (original.operand.get name) editedSection =
      Doc.diff sameScalar (original.fields.lookup name) editedSection := by
  have sound := Doc.distinct_of_lookup edited.sound found
  have originalSound := original.whole_sound.lookup name
  have proto := sent.proto.lookup name
  have told := sent.told.lookup name
  have keptHere := kept.lookup name
  simp only [Sections.whole, Doc.fieldsOf, found] at originalSound proto told keptHere
  rw [sent.get_section (by rw [found]; rfl)]
  cases editedSection with
  | leaf value => exact @diffValue_eq_diff_of_leaf _ _ (.leaf value) rfl _ originalSound told
  | list items => exact @diffValue_eq_diff_of_leaf _ _ (.list items) rfl _ originalSound told
  | table fields =>
      cases table : isTable (original.fields.lookup name) with
      | true =>
          rw [sectionPatch, ← diffValue_table ((isPlainObject_of _).trans table)]
          exact diffValue_eq_diff _ sound originalSound (keptHere _ rfl) proto told
      | false =>
          have noTable : ¬ (fields = [] ∨ (fields.lookup protoKey).isSome = true) := by
            intro dropped
            have wasTable := sent.sections name fields found dropped
            rw [table] at wasTable
            cases wasTable
          rw [not_or, Option.not_isSome_iff_eq_none] at noTable
          have differ : Doc.equalOption sameScalar (original.fields.lookup name)
              (some (.table fields)) = false :=
            Doc.equalOption_table_of_not_table (ne_table table)
          rw [sectionPatch, diffObject_eq, diffAssignments_new table sound noTable.2,
            if_neg noTable.1, assignAll_nil sound noTable.2, Doc.diff_of_not_both, differ]
          · rfl
          · intro known _ isKnown
            exact absurd isKnown (ne_table table known)

/-- The patch of a draft of which everything is sent is its difference from the original. -/
theorem buildConfigPatch_fields (kept : KeepsKeys original edited) (sent : Sent original edited) :
    (buildConfigPatch original edited).fields =
      Doc.diffFields sameScalar original.fields edited.fields := by
  have assignments : sectionAssignments original edited =
      Doc.diffFields sameScalar original.fields edited.fields := by
    rw [Doc.diffFields_eq_filterMap, sectionAssignments]
    refine List.filterMap_congr fun field mem => ?_
    rw [sectionPatch_eq_diff kept sent (Doc.lookup_of_mem edited.sound mem)]
  have sound := distinct_sectionAssignments original edited
  have plain := lookup_diffFields_proto original.sound edited.sound (kept _ rfl) sent.proto
  rw [assignments] at sound
  have assigned : (buildConfigPatch original edited).fields =
      assignAll [] (sectionAssignments original edited) := rfl
  rw [assigned, assignments, assignAll_nil sound plain]

/-- The patch is the difference of the draft from the original, node by node. -/
theorem nodeAt_buildConfigPatch (kept : KeepsKeys original edited) (sent : Sent original edited)
    (name : String) (path : List String) :
    Doc.nodeAt (buildConfigPatch original edited).whole (name :: path) =
      Doc.diffOption sameScalar (Doc.nodeAt original.whole (name :: path))
        (Doc.nodeAt edited.whole (name :: path)) := by
  have taken := @Doc.nodeAt_diffOption _ sameScalar (edited.fields.lookup name)
    (edited.whole_sound.lookup name) (original.fields.lookup name) path
  have change := @Doc.lookup_diffFields _ sameScalar _ edited.sound original.fields name
  rw [← buildConfigPatch_fields kept sent] at change
  exact (congrArg (Doc.nodeAt · path) change).trans taken

end Patches

section Reproduction

variable [DecidableEq Number] {original edited : Sections Number}

/-- The patch of a table merged into the table, name by name. -/
theorem lookup_merged_diff {known fields : Fields Number}
    (knownSound : Doc.distinctFields known = true) (sound : Doc.distinctFields fields = true)
    (key : String) :
    (Doc.fieldsOf (mergeOption (some (.table known))
        (diffValue (.value (.table known)) (.table fields)))).lookup key =
      if key = protoKey then known.lookup key
      else mergeOption (known.lookup key)
        ((fields.lookup key).bind (diffValue ((Operand.value (.table known)).get key))) := by
  have assignments := lookup_diffAssignments sound (.value (.table known)) key
  have assignmentsSound := distinct_diffAssignments sound (.value (.table known))
  rw [diffValue_table rfl, diffObject_eq, ← assignments]
  split
  · rename_i nothing
    rw [nothing]
    exact (ite_self _).symm
  · rw [Option.map_some, lookup_merged knownSound (distinct_assignAll rfl assignmentsSound),
      lookup_assignAll_nil assignmentsSound]
    by_cases isProto : key = protoKey
    · rw [if_pos isProto, if_pos isProto]
      split
      · rename_i sets
        exact (setsPrototype_iff.mp sets).2.symm
      · rfl
    · rw [setsPrototype_of_ne isProto, if_neg Bool.false_ne_true, if_neg isProto, if_neg isProto]

/-- An entry that is not sent: it is named `__proto__` or a leaf that is taken for the old value. -/
def Unsent (object : Operand Number) (key : String) (entry : Value Number) : Prop :=
  key = protoKey ∨ (entry.isTable = false ∧ valuesEqual (object.get key) (.value entry) = true)

theorem diffValue_of_unsent {object : Operand Number} {key : String} {entry : Value Number}
    (unsent : Unsent object key entry) (other : key ≠ protoKey) :
    diffValue (object.get key) entry = none := by
  rcases unsent.resolve_left other with ⟨isLeaf, taken⟩
  rw [diffValue_of_not_object fun _ => isLeaf, if_pos taken]

omit [DecidableEq Number] in
theorem get_of_ne (value : Option (Value Number)) {key : String} (other : key ≠ protoKey) :
    (Operand.of value).get key = Operand.of ((Doc.fieldsOf value).lookup key) :=
  get_of value fun isProto => absurd isProto other

omit [DecidableEq Number] in
theorem fieldsOf_of_nodeAt {tree : Option (Value Number)} {key : String} {path : List String}
    (present : (Doc.nodeAt tree (key :: path)).isSome = true) :
    ∃ fields, tree = some (.table fields) :=
  isTable_iff.mp (isTable_of_nodeAt present)

/-- What is not sent stays as it was. -/
theorem nodeAt_merged_diff {tree base : Option (Value Number)} (sound : Doc.Sound tree)
    (baseSound : Doc.Sound base) {path : List String} {key : String} {entry : Value Number}
    (table : isTable (Doc.nodeAt base path) = true)
    (found : Doc.nodeAt tree (path ++ [key]) = some entry)
    (unsent : Unsent (Operand.of (Doc.nodeAt base path)) key entry) :
    Doc.nodeAt (mergeOption base (tree.bind (diffValue (Operand.of base)))) (path ++ [key]) =
      Doc.nodeAt base (path ++ [key]) := by
  induction path generalizing base tree with
  | nil =>
      rw [List.nil_append] at found ⊢
      rcases isTable_iff.mp table with ⟨known, isKnown⟩
      rw [Doc.nodeAt] at isKnown
      subst isKnown
      rcases fieldsOf_of_nodeAt (by rw [found]; rfl) with ⟨fields, rfl⟩
      have entryHere : fields.lookup key = some entry := found
      have merged := lookup_merged_diff (baseSound _ rfl) (sound _ rfl) key
      refine merged.trans ?_
      split
      · rfl
      · rename_i other
        have nothing := diffValue_of_unsent unsent other
        rw [entryHere, Option.bind_some]
        exact congrArg (mergeOption _) nothing
  | cons name path ih =>
      have inBase : (Doc.nodeAt base (name :: path)).isSome = true := by
        rcases isTable_iff.mp table with ⟨known, isKnown⟩
        rw [isKnown]
        rfl
      rcases fieldsOf_of_nodeAt inBase with ⟨known, rfl⟩
      rw [List.cons_append] at found ⊢
      rcases fieldsOf_of_nodeAt (by rw [found]; rfl) with ⟨fields, rfl⟩
      have merged := lookup_merged_diff (baseSound _ rfl) (sound _ rfl) name
      refine (congrArg (Doc.nodeAt · (path ++ [key])) merged).trans ?_
      split
      · rfl
      · rename_i other
        have read := get_of_ne (some (.table known)) other
        rw [Operand.of] at read
        rw [read]
        exact ih (sound.lookup name) (baseSound.lookup name) table found unsent

/-- A section's entry is that of any value, but where a table takes the place of something else. -/
theorem sectionPatch_eq_diffValue {section_ : Operand Number} {editedSection : Value Number}
    (tables : editedSection.isTable = true → isPlainObject section_ = true) :
    sectionPatch section_ editedSection = diffValue section_ editedSection := by
  cases editedSection with
  | leaf value => rw [diffValue]; rfl
  | list items => rw [diffValue]; rfl
  | table fields => rw [sectionPatch, diffValue_table (tables rfl)]

/-- The patch merged into the baseline, section by section. -/
theorem lookup_deepMerge_buildConfigPatch (original edited : Sections Number) (name : String) :
    (deepMerge original (buildConfigPatch original edited)).fields.lookup name =
      if name = protoKey then original.fields.lookup name
      else mergeOption (original.fields.lookup name)
        ((edited.fields.lookup name).bind
          (sectionPatch (Operand.of (original.fields.lookup name)))) := by
  have merged := lookup_merged original.sound (buildConfigPatch original edited).sound name
  have whole := whole_deepMerge original (buildConfigPatch original edited)
  rw [Sections.whole, Sections.whole, Sections.whole] at whole
  rw [← whole, Doc.fieldsOf, lookup_buildConfigPatch] at merged
  rw [merged]
  by_cases isProto : name = protoKey
  · rw [if_pos isProto, if_pos isProto]
    split
    · rename_i sets
      exact (setsPrototype_iff.mp sets).2.symm
    · rfl
  · have read := get_of_ne original.whole isProto
    rw [Sections.whole, Operand.of, Doc.fieldsOf] at read
    rw [setsPrototype_of_ne isProto, if_neg Bool.false_ne_true, if_neg isProto, if_neg isProto,
      Sections.operand, read]

/-- What is not sent of the draft is not merged into the baseline. -/
theorem nodeAt_deepMerge_of_unsent {path : List String} {key : String} {entry : Value Number}
    (table : isTable (Doc.nodeAt original.whole path) = true)
    (found : Doc.nodeAt edited.whole (path ++ [key]) = some entry)
    (unsent : Unsent (Operand.of (Doc.nodeAt original.whole path)) key entry) :
    Doc.nodeAt (deepMerge original (buildConfigPatch original edited)).whole (path ++ [key]) =
      Doc.nodeAt original.whole (path ++ [key]) := by
  cases path with
  | nil =>
      have entryHere : edited.fields.lookup key = some entry := found
      refine (lookup_deepMerge_buildConfigPatch original edited key).trans ?_
      split
      · rfl
      · rename_i other
        have nothing := diffValue_of_unsent unsent other
        have read := get_of_ne original.whole other
        rw [Doc.nodeAt, read, Sections.whole, Doc.fieldsOf] at nothing
        have isLeaf := (unsent.resolve_left other).1
        rw [entryHere, Option.bind_some, sectionPatch_eq_diffValue, nothing]
        · rfl
        · intro isTable_
          rw [isLeaf] at isTable_
          cases isTable_
  | cons name path =>
      rw [List.cons_append]
      have lookup := lookup_deepMerge_buildConfigPatch original edited name
      refine (congrArg (Doc.nodeAt · (path ++ [key])) lookup).trans ?_
      split
      · rfl
      · have inBase : isTable (original.fields.lookup name) = true := by
          cases path with
          | nil => exact table
          | cons second path =>
              apply @isTable_of_nodeAt _ _ second path
              rcases isTable_iff.mp table with ⟨known, isKnown⟩
              rw [Doc.nodeAt, Sections.whole, Doc.fieldsOf] at isKnown
              rw [isKnown]
              rfl
        have entries : (edited.fields.lookup name).bind
              (sectionPatch (Operand.of (original.fields.lookup name))) =
            (edited.fields.lookup name).bind
              (diffValue (Operand.of (original.fields.lookup name))) := by
          refine Option.bind_congr fun editedSection _ => ?_
          exact sectionPatch_eq_diffValue fun _ => (isPlainObject_of _).trans inBase
        rw [entries]
        exact nodeAt_merged_diff (edited.whole_sound.lookup name) (original.whole_sound.lookup name)
          table found unsent

omit [DecidableEq Number] in
theorem cons_of_snoc (above : List String) (key : String) :
    ∃ name path, above ++ [key] = name :: path := by
  cases above with
  | nil => exact ⟨key, [], rfl⟩
  | cons name above => exact ⟨name, above ++ [key], rfl⟩

/-- If everything is sent, no field `__proto__` is added to a table of the baseline. -/
theorem Sent.unlost (kept : KeepsKeys original edited) (sent : Sent original edited)
    {above : List String} (lacks : Lacks original.whole above) :
    Doc.nodeAt (buildConfigPatch original edited).whole (above ++ [protoKey]) = none := by
  have notAdded : Doc.nodeAt edited.whole (above ++ [protoKey]) = none := by
    by_contra present
    have same := sent.proto above (Option.isSome_iff_ne_none.mpr present) lacks.1
    rcases Option.ne_none_iff_exists'.mp present with ⟨tree, isTree⟩
    rw [lacks.2, isTree] at same
    cases same
  rcases cons_of_snoc above protoKey with ⟨name, path, split⟩
  rw [split] at notAdded ⊢
  rw [nodeAt_buildConfigPatch kept sent, notAdded]
  rfl

/-- A patch with all of the draft yields it. -/
theorem deepMerge_buildConfigPatch (kept : KeepsKeys original edited)
    (sent : Sent original edited) :
    jsonEqual (deepMerge original (buildConfigPatch original edited)).whole edited.whole =
      true := by
  have overlaid := @Doc.overlay_diff _ sameScalar sameScalar_self (.table edited.fields)
    edited.sound (.table original.fields) original.sound (kept _ rfl)
  have merged := @mergeValue_eq_overlay _ (.table (buildConfigPatch original edited).fields)
    (buildConfigPatch original edited).sound original.whole
    fun above lacks => sent.unlost kept lacks
  rw [whole_deepMerge]
  change Doc.equal sameScalar (mergeValue (Operand.of original.whole)
    (.table (buildConfigPatch original edited).fields)) (.table edited.fields) = true
  rw [merged, buildConfigPatch_fields kept sent, Sections.whole]
  rw [Doc.diff_table_table] at overlaid
  split at overlaid
  · rename_i nothing
    rw [nothing, Doc.overlay]
    exact overlaid
  · exact overlaid

/-- A node of the draft above which the baseline has a table, and that is not sent, is the same. -/
theorem same_of_unsent
    (same : jsonEqual (deepMerge original (buildConfigPatch original edited)).whole edited.whole =
      true) {path : List String} {key : String} {entry : Value Number}
    (table : isTable (Doc.nodeAt original.whole path) = true)
    (found : Doc.nodeAt edited.whole (path ++ [key]) = some entry)
    (unsent : Unsent (Operand.of (Doc.nodeAt original.whole path)) key entry) :
    jsonEqual (Doc.nodeAt original.whole (path ++ [key]))
      (Doc.nodeAt edited.whole (path ++ [key])) = true := by
  rw [← nodeAt_deepMerge_of_unsent table found unsent]
  exact Doc.equalOption_nodeAt (deepMerge original _).whole_sound same (path ++ [key])

/-- A draft that the patch yields keeps `__proto__`. -/
theorem keepsProto_of_same
    (same : jsonEqual (deepMerge original (buildConfigPatch original edited)).whole edited.whole =
      true) : KeepsProto original.whole edited.whole := by
  intro above has table
  rcases Option.isSome_iff_exists.mp has with ⟨entry, isEntry⟩
  exact same_of_unsent same table isEntry (.inl rfl)

/-- A draft that the patch yields has no leaf that is taken for another one. -/
theorem tellsLeaves_of_same
    (same : jsonEqual (deepMerge original (buildConfigPatch original edited)).whole edited.whole =
      true) : TellsLeaves original.whole edited.whole := by
  intro path isLeaf taken
  rcases Option.isSome_iff_exists.mp isLeaf with ⟨leaf, isLeaf⟩
  rcases Doc.asLeaf_eq_some.mp isLeaf with ⟨isNode, notTable⟩
  rw [isNode, Operand.of] at taken
  rcases List.eq_nil_or_concat path with rfl | ⟨above, key, rfl⟩
  · cases isLeaf
  · rw [List.concat_eq_append] at isNode taken ⊢
    cases known : Doc.nodeAt original.whole (above ++ [key]) with
    | none =>
        rw [known, Operand.of, valuesEqual_missing] at taken
        cases taken
    | some value =>
        have table : isTable (Doc.nodeAt original.whole above) = true := by
          apply @isTable_of_nodeAt _ _ key []
          rw [← Doc.nodeAt_append, known]
          rfl
        have unsent : Unsent (Operand.of (Doc.nodeAt original.whole above)) key leaf := by
          by_cases isProto : key = protoKey
          · exact .inl isProto
          · refine .inr ⟨notTable, ?_⟩
            rw [get_of_ne _ isProto]
            rw [Doc.nodeAt_append] at taken
            exact taken
        rw [← known]
        exact same_of_unsent same table isNode unsent

/-- Where a table takes the place of something else, the patch has neither an empty section nor a
field `__proto__`. -/
theorem isTable_of_same
    (same : jsonEqual (deepMerge original (buildConfigPatch original edited)).whole edited.whole =
      true) {name : String} {fields : Fields Number}
    (found : edited.fields.lookup name = some (.table fields))
    (dropped : fields = [] ∨ (fields.lookup protoKey).isSome = true) :
    isTable (original.fields.lookup name) = true := by
  by_contra notTable
  rw [Bool.not_eq_true] at notTable
  have kept (differ : Doc.nodeAt (deepMerge original (buildConfigPatch original edited)).whole
      [name] = original.fields.lookup name) : False := by
    have here := Doc.equalOption_nodeAt (deepMerge original _).whole_sound same [name]
    rw [differ, Doc.nodeAt, Sections.whole, Doc.fieldsOf, Doc.nodeAt, found,
      Doc.equalOption_table_of_not_table (ne_table notTable)] at here
    cases here
  have merged := lookup_deepMerge_buildConfigPatch original edited name
  have sound := Doc.distinct_of_lookup edited.sound found
  rw [Doc.distinct] at sound
  split at merged
  · exact kept merged
  · rw [found, Option.bind_some, sectionPatch, diffObject_eq] at merged
    split at merged
    · exact kept merged
    · rename_i changed
      rw [Option.map_some, mergeOption_of_not_table notTable] at merged
      rcases dropped with rfl | has
      · exact changed rfl
      · -- the section of the patch has lost the field
        have here := Doc.equalOption_nodeAt (deepMerge original _).whole_sound same [name, protoKey]
        rcases Option.isSome_iff_exists.mp has with ⟨tree, isTree⟩
        have lost := lookup_assignAll_nil
          (distinct_diffAssignments sound (Operand.of (original.fields.lookup name))) protoKey
        rw [if_pos rfl] at lost
        simp only [Doc.nodeAt, Sections.whole, Doc.fieldsOf, merged, found, lost, isTree] at here
        cases here

/-- The patch yields the draft exactly if all of it is sent. -/
theorem deepMerge_buildConfigPatch_iff (kept : KeepsKeys original edited) :
    jsonEqual (deepMerge original (buildConfigPatch original edited)).whole edited.whole = true ↔
      Sent original edited := by
  constructor
  · intro same
    exact {
      sections := fun _ _ found dropped => isTable_of_same same found dropped
      proto := keepsProto_of_same same
      told := tellsLeaves_of_same same }
  · exact deepMerge_buildConfigPatch kept

/-- A baseline with one section. -/
def plainSections : Sections ℕ where
  fields := [("a", .table [("x", .leaf (.number 1))])]
  sound := rfl

/-- A draft with a section named `__proto__`. -/
def protoSections : Sections ℕ where
  fields := [("a", .table [("x", .leaf (.number 1))]),
    ("__proto__", .table [("y", .leaf (.number 2))])]
  sound := rfl

-- the new section becomes the prototype of the patch
example : (buildConfigPatch plainSections protoSections).fields = [] := by rfl

end Reproduction

end TelemtPanel.Web.Config
