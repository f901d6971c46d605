import TelemtPanel.Library.Doc

/-!
# Canonical trees

A decoded table has no order, and of several fields of one name the last one counts.  The canonical
form of a tree lists the fields of its tables by name, so that two trees hold the same data exactly
when their canonical forms are equal.  Replacing the leaves keeps that form.
-/

namespace TelemtPanel.Library.Doc

universe u v w

variable {α : Type u} {β : Type v} {γ : Type w}

mutual

def map (f : α → β) : Doc α → Doc β
  | .leaf value => .leaf (f value)
  | .list items => .list (mapItems f items)
  | .table fields => .table (mapFields f fields)

def mapItems (f : α → β) : List (Doc α) → List (Doc β)
  | [] => []
  | item :: items => map f item :: mapItems f items

def mapFields (f : α → β) : List (String × Doc α) → List (String × Doc β)
  | [] => []
  | (key, tree) :: fields => (key, map f tree) :: mapFields f fields

end

/-- Adds a field to a table that is sorted by name; a field of the same name is replaced. -/
def insertField (key : String) (tree : Doc α) : Fields α → Fields α
  | [] => [(key, tree)]
  | (other, old) :: rest =>
      if key < other then (key, tree) :: (other, old) :: rest
      else if key = other then (key, tree) :: rest
      else (other, old) :: insertField key tree rest

mutual

def canonical : Doc α → Doc α
  | .leaf value => .leaf value
  | .list items => .list (canonicalItems items)
  | .table fields => .table (canonicalFields [] fields)

def canonicalItems : List (Doc α) → List (Doc α)
  | [] => []
  | item :: items => canonical item :: canonicalItems items

/-- The fields are added to those that have been read. -/
def canonicalFields (read : Fields α) : List (String × Doc α) → Fields α
  | [] => read
  | (key, tree) :: fields => canonicalFields (insertField key (canonical tree) read) fields

end

mutual

/-- Fields of some names get a fixed value, at any depth. -/
def blank (names : String → Bool) (fixed : Doc α) : Doc α → Doc α
  | .leaf value => .leaf value
  | .list items => .list (blankItems names fixed items)
  | .table fields => .table (blankFields names fixed fields)

def blankItems (names : String → Bool) (fixed : Doc α) : List (Doc α) → List (Doc α)
  | [] => []
  | item :: items => blank names fixed item :: blankItems names fixed items

def blankFields (names : String → Bool) (fixed : Doc α) :
    List (String × Doc α) → List (String × Doc α)
  | [] => []
  | (key, tree) :: fields =>
      (key, if names key then fixed else blank names fixed tree) :: blankFields names fixed fields

end

variable (f : α → β)

theorem mapFields_insertField (key : String) (tree : Doc α) (fields : Fields α) :
    mapFields f (insertField key tree fields) = insertField key (map f tree) (mapFields f fields) := by
  induction fields with
  | nil => rfl
  | cons field rest ih =>
      rcases field with ⟨other, old⟩
      simp only [insertField, mapFields]
      split
      · simp only [mapFields]
      · split
        · simp only [mapFields]
        · simp only [mapFields, ih]

theorem map_canonical (tree : Doc α) : map f (canonical tree) = canonical (map f tree) := by
  induction tree using induction with
  | leaf value => simp only [canonical, map]
  | list items ih =>
      have each : mapItems f (canonicalItems items) = canonicalItems (mapItems f items) := by
        induction items with
        | nil => simp only [canonicalItems, mapItems]
        | cons item items rest =>
            simp only [canonicalItems, mapItems, ih item List.mem_cons_self,
              rest fun other isOther => ih other (List.mem_cons_of_mem _ isOther)]
      simp only [canonical, map, each]
  | table fields ih =>
      have each : ∀ read : Fields α, mapFields f (canonicalFields read fields) =
          canonicalFields (mapFields f read) (mapFields f fields) := by
        induction fields with
        | nil =>
            intro read
            simp only [canonicalFields, mapFields]
        | cons field fields rest =>
            intro read
            rcases field with ⟨key, tree⟩
            simp only [canonicalFields, mapFields]
            rw [rest fun key tree mem => ih key tree (List.mem_cons_of_mem _ mem),
              mapFields_insertField, ih key tree List.mem_cons_self]
      simp only [canonical, map, each]
      rfl

theorem map_blank (names : String → Bool) (fixed tree : Doc α) :
    map f (blank names fixed tree) = blank names (map f fixed) (map f tree) := by
  induction tree using induction with
  | leaf value => simp only [blank, map]
  | list items ih =>
      have each : mapItems f (blankItems names fixed items) =
          blankItems names (map f fixed) (mapItems f items) := by
        induction items with
        | nil => simp only [blankItems, mapItems]
        | cons item items rest =>
            simp only [blankItems, mapItems, ih item List.mem_cons_self,
              rest fun other isOther => ih other (List.mem_cons_of_mem _ isOther)]
      simp only [blank, map, each]
  | table fields ih =>
      have each : mapFields f (blankFields names fixed fields) =
          blankFields names (map f fixed) (mapFields f fields) := by
        induction fields with
        | nil => simp only [blankFields, mapFields]
        | cons field fields rest =>
            rcases field with ⟨key, tree⟩
            simp only [blankFields, mapFields,
              rest fun key tree mem => ih key tree (List.mem_cons_of_mem _ mem)]
            split
            · rfl
            · rw [ih key tree List.mem_cons_self]
      simp only [blank, map, each]

theorem map_map (g : β → γ) (tree : Doc α) : map g (map f tree) = map (g ∘ f) tree := by
  induction tree using induction with
  | leaf value => simp only [map, Function.comp_apply]
  | list items ih =>
      have each : mapItems g (mapItems f items) = mapItems (g ∘ f) items := by
        induction items with
        | nil => simp only [mapItems]
        | cons item items rest =>
            simp only [mapItems, ih item List.mem_cons_self,
              rest fun other isOther => ih other (List.mem_cons_of_mem _ isOther)]
      simp only [map, each]
  | table fields ih =>
      have each : mapFields g (mapFields f fields) = mapFields (g ∘ f) fields := by
        induction fields with
        | nil => simp only [mapFields]
        | cons field fields rest =>
            rcases field with ⟨key, tree⟩
            simp only [mapFields, ih key tree List.mem_cons_self,
              rest fun key tree mem => ih key tree (List.mem_cons_of_mem _ mem)]
      simp only [map, each]

end TelemtPanel.Library.Doc
