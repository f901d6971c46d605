import Mathlib
import TelemtPanel.Web.Config.Patch

/-!
# Merging a patch

A merge is the overlay of the patch on the base, but for `__proto__`: where the
base has a table without a field of that name, the merged table has none either.
-/

namespace TelemtPanel.Web.Config

open Library

variable {Number : Type}

/-- The merge of a patch that may be missing. -/
def mergeOption (base patch : Option (Value Number)) : Option (Value Number) :=
  match patch with
  | none => base
  | some patch => some (mergeValue (Operand.of base) patch)

theorem whole_deepMerge (base patch : Sections Number) :
    (deepMerge base patch).whole = mergeOption base.whole patch.whole := by
  rw [Sections.whole, Sections.whole, Sections.whole, mergeOption, mergeValue]
  rfl

theorem mergeValue_table (known fields : Fields Number) :
    mergeValue (.value (.table known)) (.table fields) =
      .table (assignAll known (mergeAssignments (.value (.table known)) fields)) := by
  rw [mergeValue]
  rfl

theorem mergeOption_of_not_table {base : Option (Value Number)} (notTable : isTable base = false)
    (patch : Value Number) : mergeOption base (some patch) = some patch := by
  rw [mergeOption]
  cases patch with
  | leaf value => rw [mergeValue]
  | list items => rw [mergeValue]
  | table fields => rw [mergeValue, isPlainObject_of, notTable, if_neg Bool.false_ne_true]

/-- Where one of the two is no table, a merge is the overlay. -/
theorem mergeOption_eq_overlayOption {base patch : Option (Value Number)}
    (noTable : isTable base = false ∨ isTable patch = false) :
    mergeOption base patch = Doc.overlayOption base patch := by
  rcases patch with _ | (value | items | fields)
  · rfl
  · rw [mergeOption, mergeValue, Doc.overlayOption, Doc.overlay]
  · rw [mergeOption, mergeValue, Doc.overlayOption, Doc.overlay]
  · have notTable : isTable base = false := noTable.resolve_right (by simp [isTable])
    rw [mergeOption_of_not_table notTable, Doc.overlayOption,
      Doc.overlay_of_not_table (ne_table notTable)]

/-- A merged table, name by name. -/
theorem lookup_merged {known fields : Fields Number} (knownSound : Doc.distinctFields known = true)
    (sound : Doc.distinctFields fields = true) (key : String) :
    (Doc.fieldsOf (mergeOption (some (.table known)) (some (.table fields)))).lookup key =
      if setsPrototype known key then none
      else mergeOption (known.lookup key) (fields.lookup key) := by
  have merged := @lookup_mergeAssignments _ _ sound (.value (.table known)) knownSound key
  rw [mergeOption, Operand.of, mergeValue_table]
  refine merged.trans ?_
  rw [Operand.entries]
  cases sets : setsPrototype known key with
  | true => rfl
  | false =>
      have read : (Operand.value (.table known)).get key = Operand.of (known.lookup key) := by
        apply get_of (some (.table known))
        intro isProto
        cases own : known.lookup key with
        | some value => rw [Doc.fieldsOf, own]; rfl
        | none =>
            rw [setsPrototype_iff.mpr ⟨isProto, own⟩] at sets
            cases sets
      rw [read]
      cases fields.lookup key <;> rfl

section Prototype

/-- At the end of the path stands a table without a field `__proto__`. -/
def Lacks (base : Option (Value Number)) (above : List String) : Prop :=
  isTable (Doc.nodeAt base above) = true ∧ Doc.nodeAt base (above ++ [protoKey]) = none

theorem lacks_nil_iff {known : Fields Number} :
    Lacks (some (.table known)) [] ↔ setsPrototype known protoKey = true := by
  rw [setsPrototype_iff]
  exact ⟨fun lacks => ⟨rfl, lacks.2⟩, fun sets => ⟨rfl, sets.2⟩⟩

theorem setsPrototype_of_ne {fields : Fields Number} {key : String} (other : key ≠ protoKey) :
    setsPrototype fields key = false := by
  rw [Bool.eq_false_iff]
  intro sets
  exact other (setsPrototype_iff.mp sets).1

/-- No field `__proto__` is added to a table. -/
theorem nodeAt_proto_of_lacks {base patch : Option (Value Number)} (baseSound : Doc.Sound base)
    (patchSound : Doc.Sound patch) {above : List String} (lacks : Lacks base above) :
    Doc.nodeAt (mergeOption base patch) (above ++ [protoKey]) = none := by
  induction above generalizing base patch with
  | nil =>
      rcases isTable_iff.mp lacks.1 with ⟨known, isKnown⟩
      rw [Doc.nodeAt] at isKnown
      subst isKnown
      rcases patch with _ | (value | items | fields)
      · exact lacks.2
      · rfl
      · rw [mergeOption, mergeValue]
        rfl
      · rw [List.nil_append, Doc.nodeAt, Doc.nodeAt,
          lookup_merged (baseSound _ rfl) (patchSound _ rfl), if_pos (lacks_nil_iff.mp lacks)]
  | cons key above ih =>
      have table : isTable base = true := by
        apply @isTable_of_nodeAt _ _ key above
        rcases isTable_iff.mp lacks.1 with ⟨known, isKnown⟩
        rw [isKnown]
        rfl
      rcases isTable_iff.mp table with ⟨known, rfl⟩
      rcases patch with _ | (value | items | fields)
      · exact lacks.2
      · rw [mergeOption, mergeValue]
        exact Doc.nodeAt_none _
      · rw [mergeOption, mergeValue]
        exact Doc.nodeAt_none _
      · rw [List.cons_append, Doc.nodeAt, lookup_merged (baseSound _ rfl) (patchSound _ rfl)]
        split
        · exact Doc.nodeAt_none _
        · exact ih (baseSound.lookup key) (patchSound.lookup key) lacks

/-- A merge has the leaves of the overlay, if no leaf of the patch stands at or below a field
`__proto__` that the base lacks. -/
theorem leafAt_mergeOption {base patch : Option (Value Number)} (baseSound : Doc.Sound base)
    (patchSound : Doc.Sound patch) (unlost : ∀ above, Lacks base above → ∀ rest,
      Doc.leafAt patch (above ++ protoKey :: rest) = none) (path : List String) :
    Doc.leafAt (mergeOption base patch) path = Doc.leafAt (Doc.overlayOption base patch) path := by
  induction path generalizing base patch with
  | nil =>
      by_cases noTable : isTable base = false ∨ isTable patch = false
      · rw [mergeOption_eq_overlayOption noTable]
      · rw [not_or, Bool.not_eq_false, Bool.not_eq_false] at noTable
        rcases isTable_iff.mp noTable.1 with ⟨known, rfl⟩
        rcases isTable_iff.mp noTable.2 with ⟨fields, rfl⟩
        rw [mergeOption, Operand.of, mergeValue_table, Doc.overlayOption, Doc.overlay]
        rfl
  | cons key path ih =>
      by_cases noTable : isTable base = false ∨ isTable patch = false
      · rw [mergeOption_eq_overlayOption noTable]
      · rw [not_or, Bool.not_eq_false, Bool.not_eq_false] at noTable
        rcases isTable_iff.mp noTable.1 with ⟨known, rfl⟩
        rcases isTable_iff.mp noTable.2 with ⟨fields, rfl⟩
        have fieldsSound : Doc.distinctFields fields = true := patchSound _ rfl
        have below := ih (baseSound.lookup key) (patchSound.lookup key)
          fun above lacks => unlost (key :: above) lacks
        rw [Doc.leafAt, Doc.leafAt, Doc.nodeAt, Doc.nodeAt, Doc.lookup_overlayOption fieldsSound,
          lookup_merged (baseSound _ rfl) fieldsSound]
        cases sets : setsPrototype known key with
        | false => exact below
        | true =>
            -- the entry is dropped, and it has no leaf here
            rcases setsPrototype_iff.mp sets with ⟨rfl, absent⟩
            have dropped := unlost [] (lacks_nil_iff.mpr sets) path
            rw [List.nil_append, Doc.leafAt, Doc.nodeAt, Doc.fieldsOf] at dropped
            rw [Doc.fieldsOf, absent, if_pos rfl, Doc.nodeAt_none]
            cases found : fields.lookup protoKey with
            | none => rw [Doc.overlayOption, Doc.nodeAt_none]
            | some tree =>
                rw [found] at dropped
                rw [Doc.overlayOption, Doc.overlay_of_not_table (by simp), dropped]
                rfl

/-- The assignments of a merge are those of the overlay, if each merged field is the overlaid one
and `__proto__` is only assigned where there is one. -/
theorem assignAll_mergeAssignments {known : Fields Number} (fields : Fields Number)
    {result : Fields Number}
    (each : ∀ field ∈ fields, mergeValue ((Operand.value (.table known)).get field.1) field.2 =
      Doc.overlay (known.lookup field.1) field.2)
    (own : ∀ field ∈ fields, field.1 = protoKey → (result.lookup protoKey).isSome = true) :
    assignAll result (mergeAssignments (.value (.table known)) fields) =
      Doc.overlayFields known result fields := by
  induction fields generalizing result with
  | nil => rfl
  | cons field fields ih =>
      rcases field with ⟨key, tree⟩
      rcases List.forall_mem_cons.mp each with ⟨here, later⟩
      rcases List.forall_mem_cons.mp own with ⟨ownHere, ownLater⟩
      have kept : setsPrototype result key = false := by
        rw [Bool.eq_false_iff]
        intro sets
        rcases setsPrototype_iff.mp sets with ⟨rfl, absent⟩
        have present := ownHere rfl
        rw [absent] at present
        cases present
      rw [mergeAssignments, here, assignAll_cons, assign, kept, if_neg Bool.false_ne_true,
        Doc.overlayFields]
      apply ih later
      intro field mem isProto
      rw [Doc.lookup_setField]
      split
      · rfl
      · exact ownLater field mem isProto

/-- A merge is the overlay, if the patch has no field `__proto__` that the base lacks. -/
theorem mergeValue_eq_overlay (patch : Value Number) (sound : patch.distinct = true)
    {base : Option (Value Number)} (unlost : ∀ above, Lacks base above →
      Doc.nodeAt (some patch) (above ++ [protoKey]) = none) :
    mergeValue (Operand.of base) patch = Doc.overlay base patch := by
  induction patch using Doc.induction generalizing base with
  | leaf value => rw [mergeValue, Doc.overlay]
  | list items ih => rw [mergeValue, Doc.overlay]
  | table fields ih =>
      cases table : isTable base with
      | false =>
          have same := @mergeOption_eq_overlayOption _ base (some (.table fields)) (.inl table)
          rw [mergeOption, Doc.overlayOption, Option.some_inj] at same
          exact same
      | true =>
          rcases isTable_iff.mp table with ⟨known, rfl⟩
          rw [Doc.distinct] at sound
          have own : ∀ field ∈ fields, field.1 = protoKey →
              (known.lookup protoKey).isSome = true := by
            rintro ⟨key, tree⟩ mem rfl
            by_contra absent
            rw [Option.not_isSome_iff_eq_none] at absent
            have gone := unlost [] ⟨rfl, absent⟩
            have found := Doc.lookup_of_mem sound mem
            rw [List.nil_append, Doc.nodeAt, Doc.nodeAt, Doc.fieldsOf, found] at gone
            cases gone
          rw [Operand.of, mergeValue_table, Doc.overlay]
          refine congrArg _ (assignAll_mergeAssignments fields ?_ own)
          rintro ⟨key, tree⟩ mem
          have found := Doc.lookup_of_mem sound mem
          have read : (Operand.value (.table known)).get key = Operand.of (known.lookup key) := by
            apply get_of (some (.table known))
            rintro rfl
            exact own _ mem rfl
          rw [read]
          apply ih key tree mem (Doc.distinct_of_mem sound mem)
          intro above lacks
          have gone := unlost (key :: above) lacks
          rwa [List.cons_append, Doc.nodeAt, Doc.fieldsOf, found] at gone

end Prototype

end TelemtPanel.Web.Config
