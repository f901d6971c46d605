import Mathlib
import TelemtPanel.HTTPAPI.ConfigTOML.Basic

/-!
# The allow-list accepts the snapshot it is built from

A text is checked against the paths of the current snapshot.  The check looks at
names and at the kinds of values only, so it treats a snapshot and its image under
a change of numbers alike.  On the snapshot itself it fails only by its own rules:
an empty path, and the shapes of the two tables that it knows.
-/

namespace TelemtPanel.HTTPAPI

open Library

section Kinds

variable {f : JSONScalar → Except ConfigError JSONScalar}

/-- Strings stay strings, and nothing else becomes one; likewise for null. -/
def KeepsKind (f : JSONScalar → Except ConfigError JSONScalar) : Prop :=
  ∀ value out, f value = .ok out →
    isString (.leaf out) = isString (.leaf value) ∧ isNull (.leaf out) = isNull (.leaf value)

theorem KeepsKind.traverse (keeps : KeepsKind f) {value out : Doc JSONScalar}
    (replaced : Doc.traverse f value = .ok out) :
    isString out = isString value ∧ isNull out = isNull value ∧ isObject out = isObject value := by
  cases value with
  | leaf scalar =>
      rcases Doc.map_eq_ok.mp replaced with ⟨result, isResult, rfl⟩
      exact ⟨(keeps scalar result isResult).1, (keeps scalar result isResult).2, rfl⟩
  | list items =>
      rcases Doc.map_eq_ok.mp replaced with ⟨results, -, rfl⟩
      exact ⟨rfl, rfl, rfl⟩
  | table fields =>
      rcases Doc.map_eq_ok.mp replaced with ⟨results, -, rfl⟩
      exact ⟨rfl, rfl, rfl⟩

end Kinds

section Guarded

mutual

/-- The rules of the check that do not come from the allow-list. -/
def guarded (path : String) (value : Doc JSONScalar) : Bool :=
  if path = "dc_overrides" then (validateDCOverrides value).isOk
  else if path = "censorship.exclusive_mask" then (validateStringMap path value).isOk
  else
    decide (path ≠ "") &&
      match value with
      | .leaf _ => true
      | .table fields => guardedFields path fields
      | .list items => guardedItems (path ++ "[]") items

def guardedFields (path : String) : List (String × Doc JSONScalar) → Bool
  | [] => true
  | (key, child) :: rest => guarded (joinConfigPath path key) child && guardedFields path rest

def guardedItems (itemPath : String) : List (Doc JSONScalar) → Bool
  | [] => true
  | child :: rest => (!isObject child || guarded itemPath child) && guardedItems itemPath rest

end

end Guarded

end TelemtPanel.HTTPAPI
