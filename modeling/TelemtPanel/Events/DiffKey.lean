import TelemtPanel.Library.Binary64
import TelemtPanel.Library.Canonical

/-!
# Comparison keys

The comparison key of a payload is what `encoding/json` makes of it after the volatile fields have
been set to zero.  A number passes through a double on the way, so that two integers that are
rounded to the same double have the same key.

A payload is the tree of its text, with its literals as they are written.  The text of a decoded
value is determined by the value and determines it: fields are sorted, and a double is printed so
that it reads back.  It therefore stands as the value itself.
-/

namespace TelemtPanel.Events

open Library

/-- A number of a JSON document; zero has two signs. -/
structure Number where
  negative : Bool
  magnitude : ℚ
deriving DecidableEq

/-- A literal of a payload with its text. -/
inductive Literal where
  | null
  | bool (value : Bool)
  | number (text : String) (value : Number)
  | string (text : String) (value : String)
deriving DecidableEq

/-- A JSON value that is no array and no object, with numbers of any precision. -/
inductive Scalar where
  | null
  | bool (value : Bool)
  | number (value : Number)
  | string (value : String)
deriving DecidableEq

def Literal.value : Literal → Scalar
  | null => .null
  | bool value => .bool value
  | number _ value => .number value
  | string _ value => .string value

/-- What a value of type `any` holds: a number is the double that is nearest. -/
def Scalar.any : Scalar → Scalar
  | number value => .number { value with magnitude := Binary64.onGrid value.magnitude }
  | scalar => scalar

/-- A number that is no infinite double. -/
def Literal.inRange : Literal → Bool
  | number _ value => decide (|Binary64.onGrid value.magnitude| < 2 ^ 1024)
  | _ => true

abbrev Payload := Doc Literal

/-- `json.Unmarshal` into `any`; a number that is too large is an error. -/
def unmarshal (data : Payload) : Option (Doc Scalar) :=
  if data.all Literal.inRange then
    some (Doc.canonical (data.map fun literal => literal.value.any))
  else none

def volatileTimestampKey : String := "generated_at_epoch_secs"

def volatileKeysByTopic (topic : String) : List String :=
  if topic = "web" then ["lifecycle_age_ms", "age_ms", "last_outcome_age_ms"] else []

def volatileKeysFor (topic : String) : List String :=
  volatileTimestampKey :: volatileKeysByTopic topic

def zero : Doc Scalar := .leaf (.number { negative := false, magnitude := 0 })

def stripVolatileTimestamps (keys : List String) (value : Doc Scalar) : Doc Scalar :=
  Doc.blank (fun key => keys.contains key) zero value

/-- A payload as it is, or the text of a value. -/
inductive Key where
  | raw (data : Payload)
  | normalized (value : Doc Scalar)

def diffKey (topic : String) (data : Payload) : Key :=
  if topic = "users" then .raw data
  else
    match unmarshal data with
    | none => .raw data
    | some value => .normalized (stripVolatileTimestamps (volatileKeysFor topic) value)

section Noise

variable (topic : String)

/-- The value of a payload after the volatile fields of its topic have been set to zero. -/
def settled (data : Payload) : Doc Scalar :=
  Doc.blank (fun key => (volatileKeysFor topic).contains key) zero
    (Doc.canonical (data.map Literal.value))

/-- The payloads do not only differ in numbers that are rounded to the same double.  If one of
them has a number beyond the range of doubles, they are the same or differ outside of the volatile
fields. -/
def Distinguishable (a b : Payload) : Prop :=
  if a.all Literal.inRange = true ∧ b.all Literal.inRange = true then
    (settled topic a).map Scalar.any = (settled topic b).map Scalar.any →
      settled topic a = settled topic b
  else settled topic a = settled topic b → a = b

variable {topic}

theorem any_zero : zero.map Scalar.any = zero := by
  have grid : Binary64.onGrid 0 = 0 := by
    have whole := @Binary64.onGrid_intCast 0 (by norm_num)
    simpa using whole
  simp only [zero, Doc.map, Scalar.any, grid]

/-- The key of a payload holds its value with all numbers rounded. -/
theorem stripVolatileTimestamps_canonical (data : Payload) :
    stripVolatileTimestamps (volatileKeysFor topic)
        (Doc.canonical (data.map fun literal => literal.value.any)) =
      (settled topic data).map Scalar.any := by
  unfold settled stripVolatileTimestamps
  rw [Doc.map_blank, any_zero, Doc.map_canonical, Doc.map_map]
  rfl

theorem diffKey_inRange (polled : topic ≠ "users") {data : Payload}
    (inRange : data.all Literal.inRange = true) :
    diffKey topic data = .normalized ((settled topic data).map Scalar.any) := by
  rw [diffKey, if_neg polled, unmarshal, if_pos inRange]
  exact congrArg Key.normalized (stripVolatileTimestamps_canonical data)

theorem diffKey_outOfRange (polled : topic ≠ "users") {data : Payload}
    (outOfRange : ¬data.all Literal.inRange = true) : diffKey topic data = .raw data := by
  rw [diffKey, if_neg polled, unmarshal, if_neg outOfRange]

/-- Keys are equal exactly when the payloads are up to the volatile fields, if they are
distinguishable. -/
theorem diffKey_eq_iff (polled : topic ≠ "users") (a b : Payload) :
    (diffKey topic a = diffKey topic b ↔ settled topic a = settled topic b) ↔
      Distinguishable topic a b := by
  unfold Distinguishable
  by_cases first : a.all Literal.inRange = true
  · by_cases second : b.all Literal.inRange = true
    · rw [if_pos ⟨first, second⟩, diffKey_inRange polled first, diffKey_inRange polled second,
        Key.normalized.injEq]
      exact ⟨Iff.mp, fun same => ⟨same, congrArg _⟩⟩
    · rw [if_neg fun both => second both.2, diffKey_inRange polled first,
        diffKey_outOfRange polled second]
      have differ : a ≠ b := fun same => second (same ▸ first)
      constructor
      · intro iff same
        exact Key.noConfusion (iff.mpr same)
      · intro same
        exact ⟨Key.noConfusion, fun equal => absurd (same equal) differ⟩
  · rw [if_neg fun both => first both.1, diffKey_outOfRange polled first]
    by_cases second : b.all Literal.inRange = true
    · rw [diffKey_inRange polled second]
      have differ : a ≠ b := fun same => first (same ▸ second)
      constructor
      · intro iff same
        exact Key.noConfusion (iff.mpr same)
      · intro same
        exact ⟨Key.noConfusion, fun equal => absurd (same equal) differ⟩
    · rw [diffKey_outOfRange polled second, Key.raw.injEq]
      constructor
      · exact Iff.mpr
      · intro same
        refine ⟨?_, same⟩
        rintro rfl
        rfl

/-- A payload with one counter. -/
def counter (value : ℕ) : Payload :=
  .table [("connections_total",
    .leaf (.number (toString value) { negative := false, magnitude := value }))]

theorem settled_counter (value : ℕ) : settled "stats" (counter value) =
    .table [("connections_total", .leaf (.number { negative := false, magnitude := value }))] := by
  simp only [settled, counter, Doc.map, Doc.mapFields, Literal.value, Doc.canonical,
    Doc.canonicalFields, Doc.insertField, Doc.blank, Doc.blankFields]
  simp [volatileKeysFor, volatileTimestampKey, volatileKeysByTopic]

/-- A counter that has grown past 53 bits by one keeps its key. -/
theorem diffKey_counter :
    ¬∀ (topic : String) (a b : Payload), topic ≠ "users" →
      (diffKey topic a = diffKey topic b ↔ settled topic a = settled topic b) := by
  intro exact_
  have rounded : Binary64.onGrid 9007199254740993 = 9007199254740992 := by
    decide +kernel
  have kept : Binary64.onGrid 9007199254740992 = 9007199254740992 := by
    decide +kernel
  have inRange : ∀ value : ℕ, Binary64.onGrid value = 9007199254740992 →
      (counter value).all Literal.inRange = true := by
    intro value grid
    simp only [counter, Doc.all, Doc.allFields, Literal.inRange, grid, Bool.and_true]
    decide +kernel
  have sameKey : diffKey "stats" (counter 9007199254740993) =
      diffKey "stats" (counter 9007199254740992) := by
    rw [diffKey_inRange (by decide) (inRange _ rounded),
      diffKey_inRange (by decide) (inRange _ kept), settled_counter, settled_counter]
    simp only [Doc.map, Doc.mapFields, Scalar.any, Nat.cast_ofNat, rounded, kept]
  have same := (exact_ "stats" (counter 9007199254740993) (counter 9007199254740992)
    (by decide)).mp sameKey
  rw [settled_counter, settled_counter] at same
  simp at same

end Noise

end TelemtPanel.Events
