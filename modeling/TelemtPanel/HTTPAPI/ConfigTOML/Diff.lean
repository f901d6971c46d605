import Mathlib
import TelemtPanel.HTTPAPI.ConfigTOML.Basic

/-!
# What the comparison reports

One walk over the current and the desired tree yields the patch, the changed
paths, the new sections, the replaced arrays and the missing keys.  The patch is
the sparse difference of the trees; each list is described here by the paths, as
lists of names, at which the trees are compared.
-/

namespace TelemtPanel.HTTPAPI

open Library

/-- The panel reports the path as changed: both trees have something there that is not a table on
both sides, and it differs; or the desired tree has a leaf where the current one has nothing. -/
def Changed (current desired : Option (Doc Scalar)) (path : List String) : Prop :=
  (∃ old new, Doc.nodeAt current path = some old ∧ Doc.nodeAt desired path = some new ∧
      (old.isTable && new.isTable) = false ∧ configValuesEqual old new = false) ∨
    (Doc.nodeAt current path = none ∧ Doc.stops current path = false ∧
      (Doc.leafAt desired path).isSome = true)

section Entries

variable {current desired : Doc.Fields Scalar}

theorem isTable_iff {value : Doc Scalar} : value.isTable = true ↔ ∃ fields, value = .table fields := by
  cases value <;> simp [Doc.isTable]

end Entries

section Walk

end Walk

section Reports

variable {currentMap desiredMap : Doc.Fields Scalar} {path reported : String}

end Reports

end TelemtPanel.HTTPAPI
