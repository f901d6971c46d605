import Mathlib
import TelemtPanel.Web.Config.Paths
import TelemtPanel.Web.Config.Reproduce

/-!
# What a rebase keeps

A draft is rebased on a fresh fetch when the server's configuration changed in
the meantime.  The rebase is safe where every leaf that either side changed has
that side's value.  The dotted paths of the two sides miss some collisions:
those where one side has a table and the other one a leaf, those below an
empty section name, and those at `__proto__`.  The last theorem says which.
-/

namespace TelemtPanel.Web.Config

open Library

variable {Number : Type} [DecidableEq Number]

/-- Leaves changed by one side have that side's value, all others the original one. -/
structure Rebased (original edited fresh merged : Sections Number) : Prop where
  draft : ∀ path,
    jsonEqual (Doc.leafAt original.whole path) (Doc.leafAt edited.whole path) = false →
      jsonEqual (Doc.leafAt merged.whole path) (Doc.leafAt edited.whole path) = true
  server : ∀ path,
    jsonEqual (Doc.leafAt original.whole path) (Doc.leafAt fresh.whole path) = false →
      jsonEqual (Doc.leafAt merged.whole path) (Doc.leafAt fresh.whole path) = true
  other : ∀ path,
    jsonEqual (Doc.leafAt original.whole path) (Doc.leafAt edited.whole path) = true →
      jsonEqual (Doc.leafAt original.whole path) (Doc.leafAt fresh.whole path) = true →
        jsonEqual (Doc.leafAt original.whole path) (Doc.leafAt merged.whole path) = true

/-- The draft has a leaf at the path that the original does not have there. -/
def Edited (original edited : Sections Number) (path : List String) : Prop :=
  (Doc.leafAt edited.whole path).isSome = true ∧
    jsonEqual (Doc.nodeAt original.whole path) (Doc.nodeAt edited.whole path) = false

/-- The server's leaf at a path does not collide with a change of the draft that the dotted
paths do not show. -/
structure Unharmed (original edited fresh : Sections Number) (path : List String) : Prop where
  leaf : Edited original edited path →
    ¬ Seen original.operand fresh.operand path ∨ path.head? = some "" →
    jsonEqual (Doc.leafAt edited.whole path) (Doc.leafAt fresh.whole path) = true
  table : (Doc.leafAt fresh.whole path).isSome = true →
    isTable (Doc.nodeAt edited.whole path) = true →
    jsonEqual (Doc.nodeAt original.whole path) (Doc.nodeAt edited.whole path) = true
  above : (Doc.leafAt fresh.whole path).isSome = true →
    ∀ above key rest, path = above ++ key :: rest → ¬ Edited original edited above

/-- No changed leaf of the draft stands at or below a field `__proto__` that a fetched table
lacks. -/
def Placed (original edited fresh : Sections Number) : Prop :=
  ∀ above, Lacks fresh.whole above →
    ∀ rest, ¬ Edited original edited (above ++ protoKey :: rest)

section PatchNodes

variable {original edited : Sections Number}

omit [DecidableEq Number] in
theorem leafAt_whole_nil (sections : Sections Number) : Doc.leafAt sections.whole [] = none :=
  rfl

theorem not_edited_nil : ¬ Edited original edited [] := by
  rintro ⟨isLeaf, -⟩
  cases isLeaf

/-- A changed leaf is not the leaf of the original. -/
theorem leaves_differ_of_edited {path : List String} (changed : Edited original edited path) :
    jsonEqual (Doc.leafAt original.whole path) (Doc.leafAt edited.whole path) = false := by
  rcases changed with ⟨isLeaf, differ⟩
  rcases Option.isSome_iff_exists.mp isLeaf with ⟨leaf, isLeaf⟩
  rcases Doc.asLeaf_eq_some.mp isLeaf with ⟨isNode, -⟩
  rw [isNode] at differ
  rw [isLeaf, Doc.leafAt]
  cases had : Doc.asLeaf (Doc.nodeAt original.whole path) with
  | none => rfl
  | some old =>
      rw [(Doc.asLeaf_eq_some.mp had).1] at differ
      exact differ

/-- The leaves of the patch are the changed leaves of the draft. -/
theorem leafAt_buildConfigPatch (kept : KeepsKeys original edited) (sent : Sent original edited)
    (path : List String) :
    (Doc.leafAt (buildConfigPatch original edited).whole path).isSome = true ↔
      Edited original edited path := by
  cases path with
  | nil => exact iff_of_false (by simp [leafAt_whole_nil]) not_edited_nil
  | cons name path =>
      rw [Doc.leafAt, nodeAt_buildConfigPatch kept sent, ← Doc.nodeAt_diffOption edited.whole_sound,
        Edited, Option.isSome_iff_exists, Option.isSome_iff_exists]
      constructor
      · rintro ⟨leaf, isLeaf⟩
        have changed := (Doc.leafAt_diffOption edited.whole_sound _ _).mp isLeaf
        refine ⟨⟨leaf, changed.1⟩, ?_⟩
        rw [(Doc.asLeaf_eq_some.mp changed.1).1]
        exact changed.2
      · rintro ⟨⟨leaf, isLeaf⟩, changed⟩
        rw [(Doc.asLeaf_eq_some.mp isLeaf).1] at changed
        exact ⟨leaf, (Doc.leafAt_diffOption edited.whole_sound _ _).mpr ⟨isLeaf, changed⟩⟩

/-- A changed leaf of the draft stands strictly above the path. -/
def EditedAbove (original edited : Sections Number) (path : List String) : Prop :=
  ∃ above key rest, path = above ++ key :: rest ∧ Edited original edited above

/-- Below a leaf of the draft the draft has nothing. -/
theorem nodeAt_of_editedAbove {path : List String} (above : EditedAbove original edited path) :
    Doc.nodeAt edited.whole path = none := by
  rcases above with ⟨above, key, rest, split, isLeaf, -⟩
  exact Doc.nodeAt_of_stops (Doc.stops_iff.mpr ⟨above, key, rest, split, isLeaf⟩)

theorem leafAt_of_editedAbove {path : List String} (above : EditedAbove original edited path) :
    Doc.leafAt edited.whole path = none := by
  rw [Doc.leafAt, nodeAt_of_editedAbove above]
  rfl

theorem stops_buildConfigPatch (kept : KeepsKeys original edited) (sent : Sent original edited)
    (path : List String) :
    Doc.stops (buildConfigPatch original edited).whole path = true ↔
      EditedAbove original edited path := by
  rw [Doc.stops_iff, EditedAbove]
  simp only [leafAt_buildConfigPatch kept sent]

/-- The patch has an entry where the draft's node is not the original one. -/
theorem isSome_nodeAt_buildConfigPatch (kept : KeepsKeys original edited)
    (sent : Sent original edited) (name : String) (path : List String) :
    (Doc.nodeAt (buildConfigPatch original edited).whole (name :: path)).isSome = true ↔
      (Doc.nodeAt edited.whole (name :: path)).isSome = true ∧
        jsonEqual (Doc.nodeAt original.whole (name :: path))
          (Doc.nodeAt edited.whole (name :: path)) = false := by
  have nothing := @Doc.diffOption_eq_none_iff _ sameScalar _ _
    (edited.whole_sound.nodeAt (name :: path)) (original.whole_sound.nodeAt (name :: path))
    (kept.nodeAt (name :: path))
  rw [nodeAt_buildConfigPatch kept sent, Option.isSome_iff_ne_none, Ne, nothing, not_or,
    Option.isSome_iff_ne_none, Bool.not_eq_true]
  rfl

omit [DecidableEq Number] in
theorem isTable_of_leafAt {tree : Option (Value Number)} {path : List String}
    (isLeaf : (Doc.leafAt tree path).isSome = true) : isTable (Doc.nodeAt tree path) = false := by
  rcases Option.isSome_iff_exists.mp isLeaf with ⟨leaf, isLeaf⟩
  rcases Doc.asLeaf_eq_some.mp isLeaf with ⟨isNode, notTable⟩
  rw [isNode]
  cases leaf with
  | leaf _ => rfl
  | list _ => rfl
  | table _ => cases notTable

omit [DecidableEq Number] in
/-- A node that is not a leaf is a table. -/
theorem isTable_of_no_leaf {tree : Option (Value Number)} {path : List String}
    (present : (Doc.nodeAt tree path).isSome = true) (noLeaf : Doc.leafAt tree path = none) :
    isTable (Doc.nodeAt tree path) = true := by
  rcases Option.isSome_iff_exists.mp present with ⟨node, isNode⟩
  rw [Doc.leafAt, isNode] at noLeaf
  rw [isNode]
  cases node with
  | leaf _ => cases noLeaf
  | list _ => cases noLeaf
  | table _ => rfl

omit [DecidableEq Number] in
theorem leafAt_sound (sections : Sections Number) (path : List String) :
    Doc.Sound (Doc.leafAt sections.whole path) := by
  intro tree isLeaf
  exact sections.whole_sound.nodeAt path tree (Doc.asLeaf_eq_some.mp isLeaf).1

end PatchNodes

section Merged

variable {original edited fresh : Sections Number}

/-- A patch whose leaves keep clear of missing fields `__proto__` is laid over the fetch. -/
theorem leafAt_deepMerge (kept : KeepsKeys original edited) (sent : Sent original edited)
    (placed : Placed original edited fresh) (path : List String) :
    Doc.leafAt (deepMerge fresh (buildConfigPatch original edited)).whole path =
      Doc.leafAt (Doc.overlayOption fresh.whole (buildConfigPatch original edited).whole) path := by
  rw [whole_deepMerge]
  apply leafAt_mergeOption fresh.whole_sound (buildConfigPatch original edited).whole_sound
  intro above lacks rest
  by_contra isLeaf
  have changed := (leafAt_buildConfigPatch kept sent _).mp (Option.isSome_iff_ne_none.mpr isLeaf)
  exact placed above lacks rest changed

/-- A leaf of the draft at or below a missing field `__proto__` is lost. -/
theorem placed_of_rebased
    (rebased : Rebased original edited fresh (deepMerge fresh (buildConfigPatch original edited))) :
    Placed original edited fresh := by
  intro above lacks rest changed
  have lost := nodeAt_proto_of_lacks fresh.whole_sound
    (buildConfigPatch original edited).whole_sound lacks
  rw [← whole_deepMerge] at lost
  have lostLeaf : Doc.leafAt (deepMerge fresh (buildConfigPatch original edited)).whole
      (above ++ protoKey :: rest) = none := by
    rw [List.append_cons above protoKey rest, Doc.leafAt, Doc.nodeAt_append, lost, Doc.nodeAt_none]
    rfl
  have gone := rebased.draft _ (leaves_differ_of_edited changed)
  rcases Option.isSome_iff_exists.mp changed.1 with ⟨leaf, isLeaf⟩
  rw [lostLeaf, isLeaf] at gone
  cases gone

/-- A merged leaf: gone below a changed leaf of the draft, the draft's where the draft changed,
else the server's. -/
theorem leafAt_rebased (kept : KeepsKeys original edited) (sent : Sent original edited)
    (placed : Placed original edited fresh) (path : List String) :
    (EditedAbove original edited path →
      Doc.leafAt (deepMerge fresh (buildConfigPatch original edited)).whole path = none) ∧
    (¬ EditedAbove original edited path → (Doc.nodeAt edited.whole path).isSome = true →
      jsonEqual (Doc.nodeAt original.whole path) (Doc.nodeAt edited.whole path) = false →
      Doc.leafAt (deepMerge fresh (buildConfigPatch original edited)).whole path =
        Doc.leafAt edited.whole path) ∧
    (¬ EditedAbove original edited path →
      ((Doc.nodeAt edited.whole path).isSome = true →
        jsonEqual (Doc.nodeAt original.whole path) (Doc.nodeAt edited.whole path) = true) →
      Doc.leafAt (deepMerge fresh (buildConfigPatch original edited)).whole path =
        Doc.leafAt fresh.whole path) := by
  have merged := Doc.leafAt_overlayOption
    (buildConfigPatch original edited).whole_sound fresh.whole path
  rw [← leafAt_deepMerge kept sent placed] at merged
  refine ⟨fun above => ?_, fun notAbove present changed => ?_, fun notAbove unchanged => ?_⟩
  · rw [merged, if_pos ((stops_buildConfigPatch kept sent path).mpr above)]
  · cases path with
    | nil => rfl
    | cons name path =>
        have inPatch := (isSome_nodeAt_buildConfigPatch kept sent name path).mpr ⟨present, changed⟩
        rw [merged, if_neg (mt (stops_buildConfigPatch kept sent _).mp notAbove), if_pos inPatch,
          Doc.leafAt, nodeAt_buildConfigPatch kept sent]
        have taken := @Doc.asLeaf_diffOption_of_changed _ sameScalar _ _ changed
        exact taken
  · cases path with
    | nil => rfl
    | cons name path =>
        have notInPatch := mt (isSome_nodeAt_buildConfigPatch kept sent name path).mp
          (by rintro ⟨present, changed⟩; rw [unchanged present] at changed; cases changed)
        rw [merged, if_neg (mt (stops_buildConfigPatch kept sent _).mp notAbove), if_neg notInPatch]

variable (kept : KeepsKeys original edited) (sent : Sent original edited)
  (placed : Placed original edited fresh) (path : List String)

include kept sent placed

/-- A changed leaf of the draft keeps the draft's value. -/
theorem rebased_draft
    (changed : jsonEqual (Doc.leafAt original.whole path) (Doc.leafAt edited.whole path) = false) :
    jsonEqual (Doc.leafAt (deepMerge fresh (buildConfigPatch original edited)).whole path)
      (Doc.leafAt edited.whole path) = true := by
  rcases @leafAt_rebased _ _ original edited fresh kept sent placed path with ⟨below, touched, _⟩
  by_cases above : EditedAbove original edited path
  · rw [below above, leafAt_of_editedAbove above]
    rfl
  · have nodesDiffer : jsonEqual (Doc.nodeAt original.whole path)
        (Doc.nodeAt edited.whole path) = false := by
      by_contra same
      rw [Bool.not_eq_false] at same
      have leavesSame : jsonEqual (Doc.leafAt original.whole path)
          (Doc.leafAt edited.whole path) = true := Doc.equalOption_asLeaf same
      rw [leavesSame] at changed
      cases changed
    have present : (Doc.nodeAt edited.whole path).isSome = true := by
      by_contra absent
      rw [Option.not_isSome_iff_eq_none] at absent
      -- the draft has nothing here, so the original has a leaf: the draft replaced a table above it
      have had : (Doc.nodeAt original.whole path).isSome = true := by
        by_contra neither
        rw [Option.not_isSome_iff_eq_none] at neither
        rw [Doc.leafAt, Doc.leafAt, neither, absent] at changed
        cases changed
      rcases Doc.Keeps.stops kept had absent with ⟨prefix_, key, rest, split, isLeaf, wasTable⟩
      refine above ⟨prefix_, key, rest, split, isLeaf, ?_⟩
      by_contra same
      rw [Bool.not_eq_false] at same
      have leavesSame : jsonEqual (Doc.leafAt original.whole prefix_)
          (Doc.leafAt edited.whole prefix_) = true := Doc.equalOption_asLeaf same
      have noLeaf : Doc.leafAt original.whole prefix_ = none := wasTable
      rcases Option.isSome_iff_exists.mp isLeaf with ⟨leaf, isLeaf⟩
      rw [noLeaf, show Doc.leafAt edited.whole prefix_ = some leaf from isLeaf] at leavesSame
      cases leavesSame
    rw [touched above present nodesDiffer]
    exact jsonEqual_self (leafAt_sound edited path)

/-- Leaves that neither side changed stay. -/
theorem rebased_other
    (sameDraft : jsonEqual (Doc.leafAt original.whole path) (Doc.leafAt edited.whole path) = true)
    (sameServer : jsonEqual (Doc.leafAt original.whole path) (Doc.leafAt fresh.whole path) = true) :
    jsonEqual (Doc.leafAt original.whole path)
      (Doc.leafAt (deepMerge fresh (buildConfigPatch original edited)).whole path) = true := by
  rcases @leafAt_rebased _ _ original edited fresh kept sent placed path with
    ⟨below, touched, untouched⟩
  by_cases above : EditedAbove original edited path
  · rw [below above, ← leafAt_of_editedAbove above]
    exact sameDraft
  · by_cases changed : (Doc.nodeAt edited.whole path).isSome = true ∧
        jsonEqual (Doc.nodeAt original.whole path) (Doc.nodeAt edited.whole path) = false
    · rw [touched above changed.1 changed.2]
      exact sameDraft
    · rw [untouched above fun present => by
        by_contra differ
        exact changed ⟨present, Bool.eq_false_iff.mpr differ⟩]
      exact sameServer

end Merged

section Overlap

variable {original edited fresh : Sections Number}

/-- A changed leaf of the draft is reported where the server's change is seen, unless the section
has no name. -/
theorem overlapping_of_edited (kept : KeepsKeys original edited) (sent : Sent original edited)
    {path : List String} (changed : Edited original edited path) (named : path.head? ≠ some "")
    (seen : Seen original.operand fresh.operand path) :
    (rebaseEdits fresh (buildConfigPatch original edited)
      (diffChangedSectionKeys original fresh)).overlapping ≠ [] := by
  cases path with
  | nil => exact absurd changed not_edited_nil
  | cons name path =>
      have nonempty : name ≠ "" := by
        rintro rfl
        exact named rfl
      have inServer := mem_diffChangedSectionKeys seen
      rcases Option.isSome_iff_exists.mp ((leafAt_buildConfigPatch kept sent _).mpr changed) with
        ⟨leaf, inPatch⟩
      have flattened : flattenedFrom "" (name :: path) = dottedFrom name path := by
        rw [flattenedFrom, if_neg (by simp), flattenedFrom_eq nonempty]
      have inPending := mem_flattenPatchPaths inPatch
        (by rw [flattened]; exact dottedFrom_ne_empty nonempty path)
      rw [flattened] at inPending
      apply List.ne_nil_of_mem
      rw [rebaseEdits, sortPaths, Sorter.mem_sort, List.mem_filter]
      exact ⟨inPending, List.contains_iff_mem.mpr inServer⟩

end Overlap

section Safety

variable {original edited fresh : Sections Number}

theorem jsonEqual_none_iff {leaf : Option (Value Number)} :
    jsonEqual none leaf = true ↔ leaf = none := by
  cases leaf with
  | none => exact iff_of_true rfl rfl
  | some leaf => exact iff_of_false (by intro same; cases same) (by intro same; cases same)

/-- Where a leaf of the draft replaced a table, any leaf of the server collides with it. -/
theorem unharmed_iff_of_editedAbove {path : List String}
    (above : EditedAbove original edited path) :
    Unharmed original edited fresh path ↔ Doc.leafAt fresh.whole path = none := by
  constructor
  · intro unharmed
    by_contra isLeaf
    rcases above with ⟨above, key, rest, split, changed⟩
    exact unharmed.above (Option.isSome_iff_ne_none.mpr isLeaf) above key rest split changed
  · intro noLeaf
    refine ⟨fun changed => ?_, fun isLeaf => ?_, fun isLeaf => ?_⟩
    · rw [Edited, leafAt_of_editedAbove above] at changed
      cases changed.1
    · rw [noLeaf] at isLeaf
      cases isLeaf
    · rw [noLeaf] at isLeaf
      cases isLeaf

/-- A changed table of the draft collides with any leaf of the server. -/
theorem unharmed_iff_of_table {path : List String}
    (table : isTable (Doc.nodeAt edited.whole path) = true)
    (changed : jsonEqual (Doc.nodeAt original.whole path) (Doc.nodeAt edited.whole path) = false) :
    Unharmed original edited fresh path ↔ Doc.leafAt fresh.whole path = none := by
  constructor
  · intro unharmed
    by_contra isLeaf
    have same := unharmed.table (Option.isSome_iff_ne_none.mpr isLeaf) table
    rw [changed] at same
    cases same
  · intro noLeaf
    refine ⟨fun isEdited => ?_, fun isLeaf => ?_, fun isLeaf => ?_⟩
    · have noTable := isTable_of_leafAt isEdited.1
      rw [table] at noTable
      cases noTable
    · rw [noLeaf] at isLeaf
      cases isLeaf
    · rw [noLeaf] at isLeaf
      cases isLeaf

section NotAbove

variable {path : List String} (notAbove : ¬ EditedAbove original edited path)

include notAbove

/-- A changed leaf of the draft that is not reported collides with any other leaf. -/
theorem unharmed_iff_of_edited (kept : KeepsKeys original edited) (sent : Sent original edited)
    (noOverlap : (rebaseEdits fresh (buildConfigPatch original edited)
      (diffChangedSectionKeys original fresh)).overlapping = [])
    (changed : Edited original edited path) :
    Unharmed original edited fresh path ↔
      jsonEqual (Doc.leafAt edited.whole path) (Doc.leafAt fresh.whole path) = true := by
  constructor
  · intro unharmed
    apply unharmed.leaf changed
    by_contra neither
    rw [not_or, not_not] at neither
    exact overlapping_of_edited kept sent changed neither.2 neither.1 noOverlap
  · intro same
    refine ⟨fun _ _ => same, fun _ table => ?_, fun _ above key rest split changed =>
      notAbove ⟨above, key, rest, split, changed⟩⟩
    have noTable := isTable_of_leafAt changed.1
    rw [table] at noTable
    cases noTable

/-- Where the draft changed nothing, there is no collision. -/
theorem unharmed_of_unchanged
    (unchanged : (Doc.nodeAt edited.whole path).isSome = true →
      jsonEqual (Doc.nodeAt original.whole path) (Doc.nodeAt edited.whole path) = true) :
    Unharmed original edited fresh path := by
  refine ⟨?_, fun _ table => ?_, fun _ above key rest split changed =>
    notAbove ⟨above, key, rest, split, changed⟩⟩
  · rintro ⟨isLeaf, changed⟩
    rcases Option.isSome_iff_exists.mp isLeaf with ⟨leaf, isLeaf⟩
    rw [unchanged (by rw [(Doc.asLeaf_eq_some.mp isLeaf).1]; rfl)] at changed
    cases changed
  · rcases isTable_iff.mp table with ⟨fields, isFields⟩
    exact unchanged (by rw [isFields]; rfl)

end NotAbove

/-- Without reported overlap, a fetched leaf survives exactly where it does not collide with the
draft. -/
theorem rebased_server_iff (kept : KeepsKeys original edited) (sent : Sent original edited)
    (placed : Placed original edited fresh)
    (noOverlap : (rebaseEdits fresh (buildConfigPatch original edited)
      (diffChangedSectionKeys original fresh)).overlapping = []) {path : List String} :
    jsonEqual (Doc.leafAt (deepMerge fresh (buildConfigPatch original edited)).whole path)
        (Doc.leafAt fresh.whole path) = true ↔
      Unharmed original edited fresh path := by
  rcases @leafAt_rebased _ _ original edited fresh kept sent placed path with
    ⟨below, touched, untouched⟩
  by_cases above : EditedAbove original edited path
  · -- a leaf of the draft replaced the table that holds the server's leaf
    rw [below above, unharmed_iff_of_editedAbove above, jsonEqual_none_iff]
  · by_cases changed : (Doc.nodeAt edited.whole path).isSome = true ∧
        jsonEqual (Doc.nodeAt original.whole path) (Doc.nodeAt edited.whole path) = false
    · rw [touched above changed.1 changed.2]
      cases draft : Doc.leafAt edited.whole path with
      | some leaf =>
          have isEdited : Edited original edited path := ⟨by rw [draft]; rfl, changed.2⟩
          rw [unharmed_iff_of_edited above kept sent noOverlap isEdited, draft]
      | none =>
          rw [unharmed_iff_of_table (isTable_of_no_leaf changed.1 draft) changed.2,
            jsonEqual_none_iff]
    · have unchanged : (Doc.nodeAt edited.whole path).isSome = true →
          jsonEqual (Doc.nodeAt original.whole path) (Doc.nodeAt edited.whole path) = true := by
        intro present
        by_contra same
        exact changed ⟨present, Bool.eq_false_iff.mpr same⟩
      rw [untouched above unchanged]
      exact iff_of_true (jsonEqual_self (leafAt_sound fresh path))
        (unharmed_of_unchanged above unchanged)

/-- Without reported overlap, nobody's change is lost exactly where all of the draft is sent, its
leaves keep clear of missing fields `__proto__` and no leaf of the server collides with a change of
the draft. -/
theorem rebase_keeps_changes_iff (original edited fresh : Sections Number)
    (kept : KeepsKeys original edited)
    (noOverlap : (rebaseEdits fresh (buildConfigPatch original edited)
      (diffChangedSectionKeys original fresh)).overlapping = []) :
    (Rebased original edited fresh (rebaseEdits fresh (buildConfigPatch original edited)
        (diffChangedSectionKeys original fresh)).edited ∧
      jsonEqual (deepMerge original (buildConfigPatch original edited)).whole edited.whole =
        true) ↔
      Sent original edited ∧ Placed original edited fresh ∧
        ∀ path, jsonEqual (Doc.leafAt original.whole path) (Doc.leafAt fresh.whole path) =
          false → Unharmed original edited fresh path := by
  rw [deepMerge_buildConfigPatch_iff kept, and_comm]
  refine and_congr_right fun sent => ?_
  constructor
  · intro rebased
    have placed := placed_of_rebased rebased
    exact ⟨placed, fun path differ =>
      (rebased_server_iff kept sent placed noOverlap).mp (rebased.server path differ)⟩
  · rintro ⟨placed, unharmed⟩
    exact {
      draft := fun path => rebased_draft kept sent placed path
      server := fun path differ =>
        (rebased_server_iff kept sent placed noOverlap).mpr (unharmed path differ)
      other := fun path => rebased_other kept sent placed path }

/-- A baseline with one table. -/
def sampleBaseline : Sections ℕ where
  fields := [("upstreams", .table [("weight", .leaf (.number 1))]),
    ("timeouts", .table [("client_handshake", .leaf (.number 15))])]
  sound := rfl

/-- The administrator changes another leaf. -/
def sampleDraft : Sections ℕ where
  fields := [("upstreams", .table [("weight", .leaf (.number 1))]),
    ("timeouts", .table [("client_handshake", .leaf (.number 30))])]
  sound := rfl

/-- The administrator turns the leaf into a table. -/
def sampleTableDraft : Sections ℕ where
  fields := [("upstreams", .table [("weight", .table [("low", .leaf (.number 1))])]),
    ("timeouts", .table [("client_handshake", .leaf (.number 15))])]
  sound := rfl

/-- The server's leaf changed. -/
def sampleFresh : Sections ℕ where
  fields := [("upstreams", .table [("weight", .leaf (.number 2))]),
    ("timeouts", .table [("client_handshake", .leaf (.number 15))])]
  sound := rfl

theorem sampleDraft_rebase_keeps_changes_iff :
    (Rebased sampleBaseline sampleDraft sampleFresh
        (rebaseEdits sampleFresh (buildConfigPatch sampleBaseline sampleDraft)
          (diffChangedSectionKeys sampleBaseline sampleFresh)).edited ∧
      jsonEqual (deepMerge sampleBaseline (buildConfigPatch sampleBaseline sampleDraft)).whole
        sampleDraft.whole = true) ↔
      Sent sampleBaseline sampleDraft ∧ Placed sampleBaseline sampleDraft sampleFresh ∧
        ∀ path, jsonEqual (Doc.leafAt sampleBaseline.whole path)
            (Doc.leafAt sampleFresh.whole path) = false →
          Unharmed sampleBaseline sampleDraft sampleFresh path :=
  rebase_keeps_changes_iff sampleBaseline sampleDraft sampleFresh
    (by rintro tree ⟨rfl⟩; decide) (by decide +kernel)

/-- The server's new leaf is lost, and no overlap is reported. -/
theorem sampleTableDraft_loses_change :
    KeepsKeys sampleBaseline sampleTableDraft ∧
      (rebaseEdits sampleFresh (buildConfigPatch sampleBaseline sampleTableDraft)
        (diffChangedSectionKeys sampleBaseline sampleFresh)).overlapping = [] ∧
      ¬ Rebased sampleBaseline sampleTableDraft sampleFresh
        (rebaseEdits sampleFresh (buildConfigPatch sampleBaseline sampleTableDraft)
          (diffChangedSectionKeys sampleBaseline sampleFresh)).edited := by
  refine ⟨by rintro tree ⟨rfl⟩; decide, by decide +kernel, fun rebased => ?_⟩
  have lost := rebased.server ["upstreams", "weight"] (by decide)
  revert lost
  decide

end Safety

end TelemtPanel.Web.Config
