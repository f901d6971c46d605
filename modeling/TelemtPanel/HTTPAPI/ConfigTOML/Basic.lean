import Mathlib
import TelemtPanel.Library.Binary64
import TelemtPanel.Library.Doc
import TelemtPanel.Library.Int64
import TelemtPanel.Library.Sorter

/-!
# The TOML editor of the configuration

The panel shows Telemt's JSON configuration as a TOML text and turns an edited
text into a sparse patch.  Values pass from JSON to a generic tree, to TOML, back
to JSON and to a generic tree again.  JSON numbers are told apart by their text:
one without fraction and exponent is an integer, any other one a float.

The TOML library is a parameter.  The text of the patch, which repeats the patch,
is left out.
-/

namespace TelemtPanel.HTTPAPI

open Library

inductive JSONNumber where
  | integer (value : ℤ)
  | decimal (value : ℚ)
  deriving DecidableEq

inductive JSONScalar where
  | null
  | bool (value : Bool)
  | number (value : JSONNumber)
  | string (value : String)
  deriving DecidableEq

/-- A scalar of the generic tree. -/
inductive Scalar where
  | null
  | bool (value : Bool)
  | int64 (value : ℤ)
  | float64 (value : Binary64)
  | string (value : String)
  deriving DecidableEq

/-- A scalar of a TOML text; a date or time stands for its RFC 3339 text. -/
inductive TOMLScalar where
  | bool (value : Bool)
  | integer (value : ℤ)
  | float (value : Binary64)
  | infinityOrNaN
  | datetime (rfc3339 : String)
  | string (value : String)
  deriving DecidableEq

/-- A table with distinct names at every depth. -/
structure ConfigMap (α : Type) where
  fields : Doc.Fields α
  sound : Doc.distinctFields fields = true

inductive ConfigError where
  | upstream (message : String)
  | integerRange (value : ℤ)
  | numberRange (value : ℚ)
  | unsupportedValue
  | tomlProjection
  | revisionConflict
  | invalidTOML
  | unknownField (path : String)
  | mustBeString (path : String)
  | mustBeArray (path : String)
  | entriesMustBeStrings (path : String)
  | configUnsetUnsupported (paths : List String)
  deriving DecidableEq

section Numbers

def normalizeJSONNumbers : JSONScalar → Except ConfigError Scalar
  | .null => .ok .null
  | .bool value => .ok (.bool value)
  | .string value => .ok (.string value)
  | .number (.integer value) =>
      if minInt64 ≤ value ∧ value ≤ maxInt64 then .ok (.int64 value)
      else .error (.integerRange value)
  | .number (.decimal value) =>
      match Binary64.round value with
      | some value => .ok (.float64 value)
      | none => .error (.numberRange value)

/-- A float as JSON: without exponent from `1e-6` up to `1e21`. -/
def marshalFloat (value : Binary64) : JSONNumber :=
  if value.value ≠ 0 ∧ (|value.value| < 1 / 10 ^ 6 ∨ 10 ^ 21 ≤ |value.value|) then
    .decimal value.shortest
  else if value.shortest.den = 1 then .integer value.shortest.num
  else .decimal value.shortest

def marshalTOML : TOMLScalar → Except ConfigError JSONScalar
  | .bool value => .ok (.bool value)
  | .integer value => .ok (.number (.integer value))
  | .float value => .ok (.number (marshalFloat value))
  | .infinityOrNaN => .error .unsupportedValue
  | .datetime rfc3339 => .ok (.string rfc3339)
  | .string value => .ok (.string value)

def marshalScalar : Scalar → Except ConfigError JSONScalar
  | .null => .ok .null
  | .bool value => .ok (.bool value)
  | .int64 value => .ok (.number (.integer value))
  | .float64 value => .ok (.number (marshalFloat value))
  | .string value => .ok (.string value)

end Numbers

section Sections

/-- A table whose leaf values are all replaced. -/
def ConfigMap.traverse {α β : Type} (f : α → Except ConfigError β) (sections : ConfigMap α) :
    Except ConfigError (ConfigMap β) :=
  match isOut : Doc.traverseFields f sections.fields with
  | .error error => .error error
  | .ok fields => .ok {
      fields := fields
      sound := by
        have replaced : Doc.traverse f (.table sections.fields) = .ok (.table fields) := by
          rw [Doc.traverse, isOut]
          rfl
        exact Doc.distinct_traverse replaced sections.sound }

def decodeTelemtConfigSections (sections : ConfigMap JSONScalar) :
    Except ConfigError (ConfigMap Scalar) :=
  sections.traverse normalizeJSONNumbers

/-- `encodeTelemtConfigSections` of a decoded TOML text. -/
def encodeTOMLSections (sections : ConfigMap TOMLScalar) :
    Except ConfigError (ConfigMap JSONScalar) :=
  sections.traverse marshalTOML

end Sections

section Difference

def joinConfigPath (parent key : String) : String :=
  if parent = "" then key else parent ++ "." ++ key

def sameScalar : Scalar → Scalar → Bool
  | .int64 current, .float64 desired =>
      decide (|current| ≤ 2 ^ 53) && decide (Binary64.round current = some desired)
  | .float64 current, .int64 desired =>
      decide (|desired| ≤ 2 ^ 53) && decide (Binary64.round desired = some current)
  | current, desired => decide (current = desired)

/-- Tables are equal when their names agree and what stands under them is equal. -/
def configValuesEqual (current desired : Doc Scalar) : Bool :=
  Doc.equal sameScalar current desired

mutual

/-- The paths of the leaves of a new value. -/
def appendLeafPaths (path : String) : Doc Scalar → List String
  | .table fields => appendLeafPathsFields path fields
  | .list _ => [path]
  | .leaf _ => [path]

def appendLeafPathsFields (path : String) : List (String × Doc Scalar) → List String
  | [] => []
  | (key, value) :: rest =>
      appendLeafPaths (joinConfigPath path key) value ++ appendLeafPathsFields path rest

end

structure ConfigDiff (Patch : Type) where
  patch : Patch
  changed : List String
  materialized : List String
  arrays : List String
  missing : List String

def isArray : Doc Scalar → Bool
  | .list _ => true
  | _ => false

/-- The difference of two values that are not both tables. -/
def replaceValue (current : Doc Scalar) (path : String) (desired : Doc Scalar) :
    ConfigDiff (Option (Doc Scalar)) :=
  if configValuesEqual current desired then
    { patch := none, changed := [], materialized := [], arrays := [], missing := [] }
  else
    { patch := some desired, changed := [path], materialized := [],
      arrays := if isArray desired then [path] else [], missing := [] }

mutual

def diffTelemtConfigValue (current : Doc Scalar) (path : String) :
    Doc Scalar → ConfigDiff (Option (Doc Scalar))
  | .table desiredMap =>
      match current with
      | .table currentMap =>
          let entries := diffTelemtConfigEntries currentMap path desiredMap
          { patch := if entries.patch.isEmpty then none else some (.table entries.patch)
            changed := entries.changed
            materialized := entries.materialized
            arrays := entries.arrays
            missing := (currentMap.filter fun field => (desiredMap.lookup field.1).isNone).map
              (fun field => joinConfigPath path field.1) ++ entries.missing }
      | current => replaceValue current path (.table desiredMap)
  | .list items => replaceValue current path (.list items)
  | .leaf value => replaceValue current path (.leaf value)

def diffTelemtConfigEntries (currentMap : Doc.Fields Scalar) (path : String) :
    List (String × Doc Scalar) → ConfigDiff (Doc.Fields Scalar)
  | [] => { patch := [], changed := [], materialized := [], arrays := [], missing := [] }
  | (key, desiredChild) :: rest =>
      let others := diffTelemtConfigEntries currentMap path rest
      match currentMap.lookup key with
      | none =>
          { patch := (key, desiredChild) :: others.patch
            changed := appendLeafPaths (joinConfigPath path key) desiredChild ++ others.changed
            materialized := (if path = "" then [key] else []) ++ others.materialized
            arrays := (if isArray desiredChild then [joinConfigPath path key] else []) ++
              others.arrays
            missing := others.missing }
      | some currentChild =>
          let child := diffTelemtConfigValue currentChild (joinConfigPath path key) desiredChild
          { patch := (child.patch.map fun patch => (key, patch)).toList ++ others.patch
            changed := child.changed ++ others.changed
            materialized := child.materialized ++ others.materialized
            arrays := child.arrays ++ others.arrays
            missing := child.missing ++ others.missing }

end

def diffTelemtConfig (current desired : ConfigMap Scalar) : ConfigDiff (Doc.Fields Scalar) :=
  let diff := diffTelemtConfigValue (.table current.fields) "" (.table desired.fields)
  { diff with patch := Doc.fieldsOf diff.patch }

end Difference

section AllowList

/-- What adding a path to the allow-list adds: the path with all its parents. -/
def addedPaths (path : String) : List String :=
  if path = "" then []
  else ((path.toList.splitOn '.').inits.tail).flatMap fun parts =>
    let parent := List.intercalate ['.'] parts
    if ['[', ']'] <:+ parent then
      [String.ofList parent, String.ofList parent.dropLast.dropLast]
    else [String.ofList parent]

mutual

/-- The paths that a value adds to the allow-list. -/
def collectTelemtConfigPaths (path : String) : Doc JSONScalar → List String
  | .leaf _ => addedPaths path
  | .table fields => addedPaths path ++ collectTelemtConfigFields path fields
  | .list items =>
      addedPaths path ++ addedPaths (path ++ "[]") ++ collectTelemtConfigItems (path ++ "[]") items

def collectTelemtConfigFields (path : String) : List (String × Doc JSONScalar) → List String
  | [] => []
  | (key, child) :: rest =>
      collectTelemtConfigPaths (joinConfigPath path key) child ++
        collectTelemtConfigFields path rest

def collectTelemtConfigItems (itemPath : String) : List (Doc JSONScalar) → List String
  | [] => []
  | child :: rest =>
      collectTelemtConfigPaths itemPath child ++ collectTelemtConfigItems itemPath rest

end

/-- The allow-list of a snapshot and of the catalogued fields. -/
def telemtConfigPaths (snapshot : ConfigMap JSONScalar) (catalog : List String) : List String :=
  (snapshot.fields.flatMap fun field => collectTelemtConfigPaths field.1 field.2) ++
    catalog.flatMap addedPaths

def isObject : Doc JSONScalar → Bool
  | .table _ => true
  | _ => false

def isString : Doc JSONScalar → Bool
  | .leaf (.string _) => true
  | _ => false

def isNull : Doc JSONScalar → Bool
  | .leaf .null => true
  | _ => false

def validateStringEntry (path : String) (field : String × Doc JSONScalar) :
    Except ConfigError Unit :=
  if isString field.2 || isNull field.2 then .ok ()
  else .error (.mustBeString (path ++ "." ++ field.1))

def validateStringMap (path : String) : Doc JSONScalar → Except ConfigError Unit
  | .table fields => forM fields (validateStringEntry path)
  | _ => .ok ()

def validateDCOverride (field : String × Doc JSONScalar) : Except ConfigError Unit :=
  match field.2 with
  | .list addresses =>
      if addresses.all isString then .ok ()
      else .error (.entriesMustBeStrings ("dc_overrides." ++ field.1))
  | _ => .error (.mustBeArray ("dc_overrides." ++ field.1))

def validateDCOverrides : Doc JSONScalar → Except ConfigError Unit
  | .table fields => forM fields validateDCOverride
  | _ => .ok ()

mutual

def validateTelemtConfigValue (paths : List String) (path : String) (value : Doc JSONScalar) :
    Except ConfigError Unit :=
  if path = "dc_overrides" then validateDCOverrides value
  else if path = "censorship.exclusive_mask" then validateStringMap path value
  else if path ∉ paths then .error (.unknownField path)
  else
    match value with
    | .leaf _ => .ok ()
    | .table fields => validateTelemtConfigFields paths path fields
    | .list items => validateTelemtConfigItems paths (path ++ "[]") items

def validateTelemtConfigFields (paths : List String) (path : String) :
    List (String × Doc JSONScalar) → Except ConfigError Unit
  | [] => .ok ()
  | (key, child) :: rest =>
      match validateTelemtConfigValue paths (joinConfigPath path key) child with
      | .error error => .error error
      | .ok () => validateTelemtConfigFields paths path rest

def validateTelemtConfigItems (paths : List String) (itemPath : String) :
    List (Doc JSONScalar) → Except ConfigError Unit
  | [] => .ok ()
  | child :: rest =>
      if isObject child then
        if itemPath ∉ paths then .error (.unknownField itemPath)
        else
          match validateTelemtConfigValue paths itemPath child with
          | .error error => .error error
          | .ok () => validateTelemtConfigItems paths itemPath rest
      else validateTelemtConfigItems paths itemPath rest

end

def validateTelemtConfigPatch (sections snapshot : ConfigMap JSONScalar) (catalog : List String) :
    Except ConfigError Unit :=
  let paths := telemtConfigPaths snapshot catalog
  forM sections.fields fun field => validateTelemtConfigValue paths field.1 field.2

end AllowList

section Preview

/-- The TOML library. -/
structure TOMLLibrary where
  encode : ConfigMap Scalar → Option String
  decode : String → Option (ConfigMap TOMLScalar)

structure TelemtConfigTOMLPreview where
  revision : String
  patch : Doc.Fields JSONScalar
  changedPaths : List String
  materializedSections : List String
  arrayReplacements : List String

def sortStrings (paths : List String) : List String :=
  (Sorter.stable fun path : String => path).sort paths

/-- The preview and the patch of an edited text. -/
def buildTelemtConfigTOMLPreview (library : TOMLLibrary) (catalog : List String)
    (fetched : Except ConfigError (ConfigMap JSONScalar × String))
    (expectedRevision projection : String) :
    Except ConfigError (TelemtConfigTOMLPreview × Doc.Fields Scalar) := do
  let (currentRaw, currentRevision) ← fetched
  if currentRevision ≠ expectedRevision then
    .error .revisionConflict
  else
    let current ← decodeTelemtConfigSections currentRaw
    match library.decode projection with
    | none => .error .invalidTOML
    | some decoded =>
        let desiredRaw ← encodeTOMLSections decoded
        validateTelemtConfigPatch desiredRaw currentRaw catalog
        let desired ← decodeTelemtConfigSections desiredRaw
        let diff := diffTelemtConfig current desired
        if diff.missing ≠ [] then
          .error (.configUnsetUnsupported (sortStrings diff.missing))
        else
          let patchRaw ← Doc.traverseFields marshalScalar diff.patch
          .ok ({
            revision := currentRevision
            patch := patchRaw
            changedPaths := sortStrings diff.changed
            materializedSections := sortStrings diff.materialized
            arrayReplacements := sortStrings diff.arrays }, diff.patch)

end Preview

end TelemtPanel.HTTPAPI
