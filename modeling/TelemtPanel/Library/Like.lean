import Mathlib

/-!
# Patterns of the LIKE operator

`text LIKE pattern ESCAPE escape`, as SQLite evaluates it: `%` stands for any
run of characters, `_` for any single one, the character after the escape
character for itself, and ASCII letters match regardless of case.  Pattern and
text are read up to their first NUL character.
-/

namespace TelemtPanel.Library

/-- What a position of a pattern asks for. -/
inductive LikeToken where
  | anyRun
  | anyOne
  | exactly (c : Char)

/-- Up to the first NUL character. -/
def cString (text : List Char) : List Char := text.takeWhile (· ≠ Char.ofNat 0)

/-- Tokens of a pattern; a pattern that ends with the escape character matches nothing. -/
def likeTokens (escape : Char) : List Char → Option (List LikeToken)
  | [] => some []
  | c :: pattern =>
      if c = escape then
        match pattern with
        | [] => none
        | literal :: pattern => (likeTokens escape pattern).map (.exactly literal :: ·)
      else
        let token := if c = '%' then .anyRun else if c = '_' then .anyOne else .exactly c
        (likeTokens escape pattern).map (token :: ·)

def likeMatches : List LikeToken → List Char → Bool
  | [], text => text.isEmpty
  | .anyRun :: tokens, text => text.tails.any (likeMatches tokens)
  | .anyOne :: tokens, text =>
      match text with
      | [] => false
      | _ :: text => likeMatches tokens text
  | .exactly c :: tokens, text =>
      match text with
      | [] => false
      | d :: text => c.toLower == d.toLower && likeMatches tokens text

/-- `text LIKE pattern ESCAPE escape` -/
def like (escape : Char) (pattern text : List Char) : Bool :=
  (likeTokens escape (cString pattern)).any fun tokens => likeMatches tokens (cString text)

/-- Puts the escape character before every character that is special in a pattern. -/
def escapeLike (escape : Char) (text : List Char) : List Char :=
  text.flatMap fun c => if c = escape ∨ c = '%' ∨ c = '_' then [escape, c] else [c]

variable {escape : Char}

theorem cString_eq_self {text : List Char} (clean : Char.ofNat 0 ∉ text) :
    cString text = text := by
  apply List.takeWhile_eq_self_iff.mpr
  intro c mem
  simp only [decide_eq_true_eq]
  rintro rfl
  exact clean mem

theorem mem_escapeLike {text : List Char} {c : Char} (mem : c ∈ escapeLike escape text) :
    c = escape ∨ c ∈ text := by
  rcases List.mem_flatMap.mp mem with ⟨original, originalMem, here⟩
  split at here
  · rcases List.mem_cons.mp here with rfl | isOriginal
    · exact .inl rfl
    · rw [List.mem_singleton.mp isOriginal]
      exact .inr originalMem
  · rw [List.mem_singleton.mp here]
    exact .inr originalMem

theorem likeTokens_escape (literal : Char) (pattern : List Char) :
    likeTokens escape (escape :: literal :: pattern) =
      (likeTokens escape pattern).map (.exactly literal :: ·) := by
  rw [likeTokens.eq_def]
  simp only [↓reduceIte]

theorem likeTokens_of_ne {c : Char} (plain : c ≠ escape) (pattern : List Char) :
    likeTokens escape (c :: pattern) = (likeTokens escape pattern).map
      ((if c = '%' then .anyRun else if c = '_' then .anyOne else .exactly c) :: ·) := by
  rw [likeTokens.eq_def]
  simp only [plain, ↓reduceIte]

/-- Escaped text asks for its characters one by one. -/
theorem likeTokens_escapeLike (text pattern : List Char) :
    likeTokens escape (escapeLike escape text ++ pattern) =
      (likeTokens escape pattern).map (text.map .exactly ++ ·) := by
  induction text with
  | nil => simp [escapeLike]
  | cons c text ih =>
      have unfolded : escapeLike escape (c :: text) ++ pattern =
          (if c = escape ∨ c = '%' ∨ c = '_' then [escape, c] else [c]) ++
            (escapeLike escape text ++ pattern) := by
        simp [escapeLike]
      rw [unfolded]
      split
      · simp only [List.cons_append, List.nil_append, likeTokens_escape, ih, Option.map_map]
        rfl
      · rename_i plain
        simp only [not_or] at plain
        simp only [List.cons_append, List.nil_append, likeTokens_of_ne plain.1, plain.2.1,
          plain.2.2, ↓reduceIte, ih, Option.map_map]
        rfl

/-- Literal characters match the beginning of the text, up to case. -/
theorem likeMatches_exactly_append (literal : List Char) (tokens : List LikeToken)
    (text : List Char) :
    likeMatches (literal.map .exactly ++ tokens) text = true ↔
      ∃ rest, text.map Char.toLower = literal.map Char.toLower ++ rest.map Char.toLower ∧
        rest <:+ text ∧ likeMatches tokens rest = true := by
  induction literal generalizing text with
  | nil =>
      simp only [List.map_nil, List.nil_append]
      constructor
      · intro matched
        exact ⟨text, rfl, List.suffix_refl text, matched⟩
      · rintro ⟨rest, same, suffix, matched⟩
        have length : rest.length = text.length := by
          simpa using (congrArg List.length same).symm
        rwa [suffix.eq_of_length length] at matched
  | cons c literal ih =>
      cases text with
      | nil => simp [likeMatches]
      | cons d text =>
          simp only [List.map_cons, List.cons_append, likeMatches, Bool.and_eq_true,
            beq_iff_eq, ih]
          constructor
          · rintro ⟨same, rest, split, suffix, matched⟩
            exact ⟨rest, by rw [same, split], suffix.trans (List.suffix_cons d text), matched⟩
          · rintro ⟨rest, split, suffix, matched⟩
            rcases List.cons.inj split with ⟨same, split⟩
            refine ⟨same.symm, rest, split, ?_, matched⟩
            have length := congrArg List.length split
            simp only [List.length_map, List.length_append] at length
            rcases List.suffix_cons_iff.mp suffix with rfl | inside
            · simp only [List.length_cons] at length
              omega
            · exact inside

theorem map_toLower_eq_self {text : List Char} (lower : ∀ c ∈ text, c.isUpper = false) :
    text.map Char.toLower = text := by
  conv_rhs => rw [← List.map_id text]
  apply List.map_congr_left
  intro c mem
  exact Char.toLower_eq_of_not_isUpper (by simp [lower c mem])

/-- An escaped text between two runs searches for the text. -/
theorem like_contains {needle text : List Char} (plainEscape : escape ≠ Char.ofNat 0)
    (apart : escape ≠ '%') (clean : Char.ofNat 0 ∉ needle) (cleanText : Char.ofNat 0 ∉ text)
    (lower : ∀ c ∈ needle, c.isUpper = false) (lowerText : ∀ c ∈ text, c.isUpper = false) :
    like escape ('%' :: escapeLike escape needle ++ ['%']) text = true ↔ needle <:+: text := by
  have cleanPattern : Char.ofNat 0 ∉ '%' :: escapeLike escape needle ++ ['%'] := by
    simp only [List.cons_append, List.mem_cons, List.mem_append, List.not_mem_nil, or_false,
      not_or]
    refine ⟨by decide, fun mem => ?_, by decide⟩
    rcases mem_escapeLike mem with isEscape | there
    · exact plainEscape isEscape.symm
    · exact clean there
  have tokens : likeTokens escape ('%' :: escapeLike escape needle ++ ['%']) =
      some (.anyRun :: (needle.map .exactly ++ [.anyRun])) := by
    have last : likeTokens escape ['%'] = some [.anyRun] := by
      rw [likeTokens_of_ne apart.symm]
      rfl
    rw [List.cons_append, likeTokens_of_ne apart.symm, likeTokens_escapeLike, last]
    rfl
  have anything : ∀ rest : List Char, likeMatches [.anyRun] rest = true := by
    intro rest
    simp only [likeMatches, List.any_eq_true, List.mem_tails, List.isEmpty_iff]
    exact ⟨[], List.nil_suffix, rfl⟩
  unfold like
  rw [cString_eq_self cleanPattern, cString_eq_self cleanText, tokens, Option.any_some,
    likeMatches, List.any_eq_true]
  constructor
  · rintro ⟨tail, tailMem, matched⟩
    have suffix := (List.mem_tails _ _).mp tailMem
    rcases (likeMatches_exactly_append _ _ _).mp matched with ⟨rest, split, restSuffix, -⟩
    have lowerTail : ∀ c ∈ tail, c.isUpper = false := fun c mem =>
      lowerText c (suffix.subset mem)
    have lowerRest : ∀ c ∈ rest, c.isUpper = false := fun c mem =>
      lowerTail c (restSuffix.subset mem)
    rw [map_toLower_eq_self lowerTail, map_toLower_eq_self lower,
      map_toLower_eq_self lowerRest] at split
    rcases suffix with ⟨before, rfl⟩
    exact ⟨before, rest, by rw [split, List.append_assoc]⟩
  · rintro ⟨before, after, rfl⟩
    refine ⟨needle ++ after, (List.mem_tails _ _).mpr ⟨before, by rw [List.append_assoc]⟩, ?_⟩
    exact (likeMatches_exactly_append _ _ _).mpr ⟨after, by rw [List.map_append],
      List.suffix_append needle after, anything after⟩

end TelemtPanel.Library
