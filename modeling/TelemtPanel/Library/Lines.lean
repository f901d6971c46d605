import Mathlib

/-!
# Lines of a growing text

A text that ends each line with a separator consists of its closed lines and of
the open one behind the last separator.  Both are read off the pieces between the
separators, and this file says how they change when the text grows.
-/

namespace TelemtPanel.Library

universe u

variable {α : Type u} [DecidableEq α]

/-- Lines of a text that a separator ends. -/
def closedLines (sep : α) (text : List α) : List (List α) := (text.splitOn sep).dropLast

/-- What stands behind the last separator of a text. -/
def openLine (sep : α) (text : List α) : List α := (text.splitOn sep).getLastD []

variable {sep : α} {text piece : List α}

theorem closedLines_nil (sep : α) : closedLines sep [] = [] := by
  rw [closedLines, List.splitOn_nil]
  rfl

theorem openLine_nil (sep : α) : openLine sep [] = [] := by
  rw [openLine, List.splitOn_nil]
  rfl

theorem closed_append_open (sep : α) (text : List α) :
    closedLines sep text ++ [openLine sep text] = text.splitOn sep := by
  rw [closedLines, openLine, List.getLastD_eq_getLast?,
    List.getLast?_eq_some_getLast (List.splitOn_ne_nil sep text), Option.getD_some,
    List.dropLast_append_getLast]

/-- A piece without separators goes to the last piece. -/
theorem splitOn_append_piece (noSep : sep ∉ piece) {pieces : List (List α)} {last : List α}
    (split : text.splitOn sep = pieces ++ [last]) :
    (text ++ piece).splitOn sep = pieces ++ [last ++ piece] := by
  induction text generalizing pieces last with
  | nil =>
      rw [List.splitOn_nil] at split
      replace split : [] ++ [[]] = pieces ++ [last] := split
      rcases List.append_inj' split rfl with ⟨rfl, same⟩
      rw [List.nil_append, List.splitOn_eq_singleton noSep, ← List.head_eq_of_cons_eq same]
      rfl
  | cons x text ih =>
      rw [List.splitOn_cons_eq_if_modifyHead] at split
      rw [List.cons_append, List.splitOn_cons_eq_if_modifyHead]
      split_ifs at split ⊢
      · cases pieces with
        | nil => cases List.splitOn_ne_nil sep text (List.tail_eq_of_cons_eq split)
        | cons first pieces =>
            rw [List.cons_append, List.cons_eq_cons] at split
            rw [ih split.2, split.1, List.cons_append]
      · have before := closed_append_open sep text
        rw [← before] at split
        rw [ih before.symm]
        cases known : closedLines sep text with
        | nil =>
            rw [known] at split
            replace split : [] ++ [x :: openLine sep text] = pieces ++ [last] := split
            rcases List.append_inj' split rfl with ⟨rfl, same⟩
            rw [← List.head_eq_of_cons_eq same]
            rfl
        | cons first others =>
            rw [known] at split
            replace split :
              ((x :: first) :: others) ++ [openLine sep text] = pieces ++ [last] := split
            rcases List.append_inj' split rfl with ⟨rfl, same⟩
            rw [← List.head_eq_of_cons_eq same]
            rfl

theorem closedLines_eq_of_splitOn {pieces : List (List α)} {last : List α}
    (split : text.splitOn sep = pieces ++ [last]) :
    closedLines sep text = pieces ∧ openLine sep text = last := by
  rcases List.append_inj' ((closed_append_open sep text).trans split) rfl with ⟨closed, same⟩
  exact ⟨closed, List.head_eq_of_cons_eq same⟩

theorem lines_append_piece (noSep : sep ∉ piece) :
    closedLines sep (text ++ piece) = closedLines sep text ∧
      openLine sep (text ++ piece) = openLine sep text ++ piece :=
  closedLines_eq_of_splitOn (splitOn_append_piece noSep (closed_append_open sep text).symm)

theorem lines_append_sep (sep : α) (text : List α) :
    closedLines sep (text ++ [sep]) = closedLines sep text ++ [openLine sep text] ∧
      openLine sep (text ++ [sep]) = [] := by
  refine closedLines_eq_of_splitOn ?_
  rw [List.splitOn_append_cons_self, List.splitOn_nil, closed_append_open]

/-- The lines that are closed stay closed when the text grows. -/
theorem closedLines_prefix_append (sep : α) (text more : List α) :
    closedLines sep text <+: closedLines sep (text ++ more) := by
  induction more using List.reverseRecOn with
  | nil => simp
  | append_singleton more x ih =>
      refine ih.trans ?_
      rw [← List.append_assoc]
      rcases eq_or_ne sep x with rfl | other
      · rw [(lines_append_sep _ _).1]
        exact List.prefix_append _ _
      · have noSep : sep ∉ [x] := by simpa using other
        rw [(lines_append_piece noSep).1]

end TelemtPanel.Library
