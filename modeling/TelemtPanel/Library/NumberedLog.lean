import Mathlib

/-!
# Numbered logs

The entries of a log carry the numbers 1, 2, 3, and so on.  Who has seen every entry
up to some number then needs exactly the entries with a larger one.  A reader that
keeps only the end of the log can still serve everyone who has seen what it dropped.
-/

namespace TelemtPanel.Library

universe u

variable {Entry : Type u} {number : Entry → ℕ} {log : List Entry}

def Numbered (number : Entry → ℕ) (log : List Entry) : Prop :=
  log.map number = List.range' 1 log.length

/-- The wanted entries with a number above `since`. -/
def entriesSince (number : Entry → ℕ) (log : List Entry) (since : ℕ) (wanted : Entry → Bool) :
    List Entry :=
  log.filter fun entry => decide (since < number entry) && wanted entry

theorem numbered_nil : Numbered number [] := rfl

theorem Numbered.append (numbered : Numbered number log) {entry : Entry}
    (next : number entry = log.length + 1) : Numbered number (log ++ [entry]) := by
  simp only [Numbered, List.map_append, List.map_cons, List.map_nil, List.length_append,
    List.length_cons, List.length_nil] at numbered ⊢
  rw [numbered, next, List.range'_concat]
  simp [Nat.add_comm]

theorem Numbered.take (numbered : Numbered number log) (count : ℕ) :
    Numbered number (log.take count) := by
  simp only [Numbered, List.map_take, List.length_take] at numbered ⊢
  rw [numbered]
  rcases Nat.le_total count log.length with short | long
  · rw [List.take_range'_of_length_ge short, Nat.min_eq_left short]
  · rw [List.take_range'_of_length_le long, Nat.min_eq_right long]

theorem Numbered.number_le (numbered : Numbered number log) {entry : Entry}
    (member : entry ∈ log) : 1 ≤ number entry ∧ number entry ≤ log.length := by
  have listed : number entry ∈ log.map number := List.mem_map_of_mem member
  rw [numbered, List.mem_range'_1] at listed
  omega

theorem Numbered.pairwise (numbered : Numbered number log) :
    log.Pairwise fun earlier later => number earlier < number later := by
  have sorted : (log.map number).Pairwise (· < ·) := by
    rw [numbered]
    exact List.pairwise_lt_range'
  exact List.pairwise_map.mp sorted

theorem Numbered.eq_of_number_eq (numbered : Numbered number log) {first second : Entry}
    (firstMember : first ∈ log) (secondMember : second ∈ log)
    (same : number first = number second) : first = second := by
  have distinct : (log.map number).Nodup := by
    rw [numbered]
    exact List.nodup_range'
  exact List.inj_on_of_nodup_map distinct firstMember secondMember same

theorem Numbered.le_of_mem_take (numbered : Numbered number log) {count : ℕ} {entry : Entry}
    (member : entry ∈ log.take count) : number entry ≤ count := by
  have bound := ((numbered.take count).number_le member).2
  rw [List.length_take] at bound
  omega

theorem Numbered.lt_of_mem_drop (numbered : Numbered number log) {count : ℕ} {entry : Entry}
    (member : entry ∈ log.drop count) : count < number entry := by
  have listed : number entry ∈ (log.map number).drop count := by
    rw [← List.map_drop]
    exact List.mem_map_of_mem member
  rw [numbered, List.drop_range', List.mem_range'_1] at listed
  omega

theorem Numbered.number_head_drop (numbered : Numbered number log) {count : ℕ} {entry : Entry}
    {rest : List Entry} (first : log.drop count = entry :: rest) : number entry = count + 1 := by
  have listed : (log.drop count).map number = List.range' (1 + count) (log.length - count) := by
    rw [List.map_drop, numbered, List.drop_range', Nat.mul_one]
  rw [first, List.map_cons] at listed
  cases remaining : log.length - count with
  | zero => simp [remaining] at listed
  | succ left =>
      rw [remaining, List.range'_succ] at listed
      have same := (List.cons.inj listed).1
      omega

theorem Numbered.mem_take (numbered : Numbered number log) {count : ℕ} {entry : Entry}
    (member : entry ∈ log) (small : number entry ≤ count) : entry ∈ log.take count := by
  rw [← List.take_append_drop count log, List.mem_append] at member
  rcases member with early | late
  · exact early
  · have large := numbered.lt_of_mem_drop late
    omega

theorem Numbered.mem_drop (numbered : Numbered number log) {count : ℕ} {entry : Entry}
    (member : entry ∈ log) (large : count < number entry) : entry ∈ log.drop count := by
  rw [← List.take_append_drop count log, List.mem_append] at member
  rcases member with early | late
  · have small := numbered.le_of_mem_take early
    omega
  · exact late

/-- What comes after a number is the end of the log. -/
theorem Numbered.entriesSince_eq (numbered : Numbered number log) (since : ℕ)
    (wanted : Entry → Bool) :
    entriesSince number log since wanted = (log.drop since).filter wanted := by
  have early : (log.take since).filter
      (fun entry => decide (since < number entry) && wanted entry) = [] := by
    apply List.filter_eq_nil_iff.mpr
    intro entry member
    have small := numbered.le_of_mem_take member
    simp [Nat.not_lt.mpr small]
  have late : (log.drop since).filter (fun entry => decide (since < number entry) && wanted entry) =
      (log.drop since).filter wanted := by
    apply List.filter_congr
    intro entry member
    simp [numbered.lt_of_mem_drop member]
  conv_lhs => rw [entriesSince, ← List.take_append_drop since log]
  rw [List.filter_append, early, late, List.nil_append]

theorem entriesSince_append (entries later : List Entry) (since : ℕ) (wanted : Entry → Bool) :
    entriesSince number (entries ++ later) since wanted =
      entriesSince number entries since wanted ++ entriesSince number later since wanted :=
  List.filter_append ..

/-- The entries after a number, cut at a later one. -/
theorem Numbered.entriesSince_split (numbered : Numbered number log) {since cut : ℕ}
    (ordered : since ≤ cut) (wanted : Entry → Bool) :
    entriesSince number log since wanted =
      entriesSince number (log.take cut) since wanted ++
        entriesSince number log cut wanted := by
  have late : entriesSince number (log.drop cut) since wanted =
      (log.drop cut).filter wanted := by
    apply List.filter_congr
    intro entry member
    have large := numbered.lt_of_mem_drop member
    simp [Nat.lt_of_le_of_lt ordered large]
  conv_lhs => rw [← List.take_append_drop cut log]
  rw [entriesSince_append, late, numbered.entriesSince_eq]

/-- The end of a log serves whoever has seen the entries before it. -/
theorem Numbered.entriesSince_drop (numbered : Numbered number log) {dropped since : ℕ}
    (seen : dropped ≤ since) (wanted : Entry → Bool) :
    entriesSince number (log.drop dropped) since wanted =
      entriesSince number log since wanted := by
  have early : entriesSince number (log.take dropped) since wanted = [] := by
    apply List.filter_eq_nil_iff.mpr
    intro entry member
    have small := numbered.le_of_mem_take member
    simp [Nat.not_lt.mpr (Nat.le_trans small seen)]
  conv_rhs => rw [← List.take_append_drop dropped log]
  rw [entriesSince_append, early, List.nil_append]

/-- Skipping what has been served up to its last entry leaves what comes after. -/
theorem filter_entriesSince {since cut : ℕ} {fresh wanted : Entry → Bool}
    (skipped : ∀ entry ∈ log, since < number entry → wanted entry = true →
      (fresh entry = true ↔ cut < number entry)) (ordered : since ≤ cut) :
    (entriesSince number log since wanted).filter fresh = entriesSince number log cut wanted := by
  rw [entriesSince, entriesSince, List.filter_filter]
  apply List.filter_congr
  intro entry member
  rw [Bool.eq_iff_iff]
  simp only [Bool.and_eq_true, decide_eq_true_eq]
  constructor
  · rintro ⟨isFresh, above, isWanted⟩
    exact ⟨(skipped entry member above isWanted).mp isFresh, isWanted⟩
  · rintro ⟨late, isWanted⟩
    have above : since < number entry := Nat.lt_of_le_of_lt ordered late
    exact ⟨(skipped entry member above isWanted).mpr late, above, isWanted⟩

theorem mem_entriesSince {since : ℕ} {wanted : Entry → Bool} {entry : Entry} :
    entry ∈ entriesSince number log since wanted ↔
      entry ∈ log ∧ since < number entry ∧ wanted entry = true := by
  simp [entriesSince]

end TelemtPanel.Library
