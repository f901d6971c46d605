import TelemtPanel.Library.WallClock
import TelemtPanel.QuotaReset.OncePerSlot

/-!
# Slots of day intervals

The search for the next slot starts at the last date that is not after the local date.  Local
dates and instants are not in the same order if the clock has been put back, and a date has no
slot if the clock has skipped its time.  As long as the clock is not put back by more than two
days the first instants that show the times of later dates are later, so that the search may stop
at the first slot that lies ahead.
-/

namespace TelemtPanel.QuotaReset

open Library.Calendar Library.WallClock

/-- A time zone with finitely many transitions, in seconds, more than four days apart. -/
structure Zone where
  initial : ℤ
  transitions : List (ℤ × ℤ)
  apart : transitions.IsChain fun first next => first.1 + 4 * 86400 < next.1

def Zone.offset (zone : Zone) : ℤ → ℤ := offsetFrom zone.initial zone.transitions

/-- The clock is not put back by more than two days, and not forward by less than a minute. -/
structure Zone.Moderate (zone : Zone) : Prop where
  back : ∀ instant, zone.offset instant - zone.offset (instant + 1) ≤ 48 * 3600
  forward : ∀ instant, ¬(0 < zone.offset (instant + 1) - zone.offset instant ∧
    zone.offset (instant + 1) - zone.offset instant < 60)

/-- A location with the offsets of a zone.  A date that is shown is resolved to an instant that
shows it.  One that is skipped is resolved with the offset before or after the transition. -/
structure Location.Follows (loc : Location) (zone : Zone) : Prop where
  offset : ∀ instant, loc.offset instant = zone.offset (instant / second)
  shown : ∀ wall, (∃ seconds, reading zone.offset seconds = wall) →
    ∃ seconds, loc.date wall = seconds * second ∧ reading zone.offset seconds = wall
  skipped : ∀ wall, (∀ seconds, reading zone.offset seconds ≠ wall) →
    ∃ change, change + zone.offset (change - 1) ≤ wall ∧ wall < change + zone.offset change ∧
      (loc.date wall = (wall - zone.offset (change - 1)) * second ∨
        loc.date wall = (wall - zone.offset change) * second)

/-- What a clock shows on a day at some minute. -/
def wallOf (day hour minute : ℤ) : ℤ := day * 86400 + hour * 3600 + minute * 60

/-- The first instant that shows a time. -/
def Location.FirstShows (loc : Location) (wall instant : ℤ) : Prop :=
  IsLeast {instant | loc.wall instant = wall} instant

section Clock

variable {loc : Location} {zone : Zone} {day hour minute wall seconds : ℤ}

theorem Zone.steady (zone : Zone) (moderate : zone.Moderate) :
    Steady (48 * 3600) zone.offset where
  positive := by decide
  apart := by
    intro start stop _ near
    exact changesOnce_offsetFrom zone.transitions zone.initial zone.apart near
  back := moderate.back

theorem Location.Follows.wall_eq (follows : loc.Follows zone) (instant : ℤ) :
    loc.wall instant = reading zone.offset (instant / second) := by
  rw [Location.wall, follows.offset, reading]

theorem mul_second_ediv (seconds : ℤ) : seconds * second / second = seconds :=
  Int.mul_ediv_cancel seconds (by decide)

theorem Location.Follows.wall_mul (follows : loc.Follows zone) (seconds : ℤ) :
    loc.wall (seconds * second) = reading zone.offset seconds := by
  rw [follows.wall_eq, mul_second_ediv]

theorem Location.Follows.offset_mul (follows : loc.Follows zone) (seconds : ℤ) :
    loc.offset (seconds * second) = zone.offset seconds := by
  rw [follows.offset, mul_second_ediv]

/-- Instants that show a time have whole seconds that show it. -/
theorem Location.Follows.firstShows_iff (follows : loc.Follows zone) (instant : ℤ) :
    loc.FirstShows wall instant ↔ ∃ seconds, instant = seconds * second ∧
      IsLeast {seconds | reading zone.offset seconds = wall} seconds := by
  have least : ∀ seconds, IsLeast {seconds | reading zone.offset seconds = wall} seconds →
      loc.FirstShows wall (seconds * second) := by
    intro seconds isLeast
    refine ⟨?_, ?_⟩
    · exact (follows.wall_mul seconds).trans isLeast.1
    · intro other shows
      have whole := isLeast.2 ((follows.wall_eq other).symm.trans shows)
      simp only [second] at whole ⊢
      omega
  constructor
  · intro first
    have shows := (follows.wall_eq instant).symm.trans first.1
    have isLeast : IsLeast {seconds | reading zone.offset seconds = wall} (instant / second) := by
      refine ⟨shows, ?_⟩
      intro other otherShows
      have after := first.2 (show other * second ∈ {instant | loc.wall instant = wall} from
        (follows.wall_mul other).trans otherShows)
      simp only [second] at after ⊢
      omega
    exact ⟨instant / second, first.unique (least _ isLeast), isLeast⟩
  · rintro ⟨seconds, rfl, isLeast⟩
    exact least seconds isLeast

/-- A minute is shown when the clock is at its start or less than a minute later. -/
theorem shows_iff (hours : 0 ≤ hour ∧ hour < 24) (minutes : 0 ≤ minute ∧ minute < 60)
    (instant : ℤ) :
    loc.shows day hour minute instant = true ↔
      wallOf day hour minute ≤ loc.wall instant ∧
        loc.wall instant < wallOf day hour minute + 60 := by
  simp only [Location.shows, Location.day, Location.hour, Location.minute, Bool.and_eq_true,
    beq_iff_eq, wallOf]
  omega

variable (follows : loc.Follows zone) (moderate : zone.Moderate)
  (hours : 0 ≤ hour ∧ hour < 24) (minutes : 0 ≤ minute ∧ minute < 60)

include follows moderate hours minutes

/-- The first instant that shows a time stays the resolved one. -/
theorem earlierFold_of_least {first : ℤ} (sample : ℤ)
    (least : IsLeast {seconds | reading zone.offset seconds = wallOf day hour minute} first) :
    earlierFold loc day hour minute (first * second) sample = first * second := by
  have candidate : first * second + (loc.offset (first * second) - loc.offset sample) * second =
      (first + (loc.offset (first * second) - loc.offset sample)) * second := by ring
  simp only [earlierFold, candidate]
  refine if_neg ?_
  rintro ⟨earlier, shows⟩
  have before : first + (loc.offset (first * second) - loc.offset sample) < first :=
    lt_of_mul_lt_mul_right earlier (by decide)
  have smaller := (zone.steady moderate).reading_lt least before
  rw [shows_iff hours minutes, follows.wall_mul] at shows
  exact absurd shows.1 (not_le_of_gt smaller)

/-- A time that is shown again is resolved to the first instant, two days back. -/
theorem earlierFold_of_again {start stop : ℤ} (ordered : start < stop)
    (shown : reading zone.offset start = wallOf day hour minute)
    (again : reading zone.offset stop = wallOf day hour minute) :
    earlierFold loc day hour minute (stop * second) (stop * second - 48 * 3600 * second) =
      start * second := by
  rcases (zone.steady moderate).fold ordered (by omega) with ⟨limit, same⟩
  have difference : stop + (zone.offset stop - zone.offset start) = start := by
    unfold reading at shown again
    omega
  have sample : loc.offset (stop * second - 48 * 3600 * second) = zone.offset start := by
    rw [← sub_mul, follows.offset_mul]
    exact same _ le_rfl (by omega)
  have candidate : stop * second +
      (loc.offset (stop * second) - loc.offset (stop * second - 48 * 3600 * second)) * second =
        start * second := by
    rw [sample, follows.offset_mul, ← add_mul, difference]
  simp only [earlierFold, candidate]
  refine if_pos ⟨?_, ?_⟩
  · simp only [second]
    omega
  · rw [shows_iff hours minutes, follows.wall_mul, shown]
    omega

theorem wallTime_of_shown (shown : ∃ seconds, reading zone.offset seconds = wallOf day hour minute) :
    ∃ slot, wallTime loc day hour minute = some slot ∧
      loc.FirstShows (wallOf day hour minute) slot := by
  rcases follows.shown _ shown with ⟨stop, resolved, again⟩
  have shows : loc.shows day hour minute (stop * second) = true := by
    rw [shows_iff hours minutes, follows.wall_mul, again]
    omega
  have value : wallTime loc day hour minute = some (earlierFold loc day hour minute
      (earlierFold loc day hour minute (stop * second) (stop * second - 48 * 3600 * second))
      (stop * second + 48 * 3600 * second)) := by
    simp only [wallTime, show day * 86400 + hour * 3600 + minute * 60 = wallOf day hour minute
      from rfl, resolved, if_pos shows]
  rw [value]
  by_cases first : ∃ start, start < stop ∧ reading zone.offset start = wallOf day hour minute
  · rcases first with ⟨start, ordered, shown⟩
    have least := (zone.steady moderate).isLeast_of_shown_again ordered shown again
    rw [earlierFold_of_again follows moderate hours minutes ordered shown again,
      earlierFold_of_least follows moderate hours minutes _ least]
    exact ⟨_, rfl, (follows.firstShows_iff _).mpr ⟨start, rfl, least⟩⟩
  · have least : IsLeast {seconds | reading zone.offset seconds = wallOf day hour minute} stop := by
      refine ⟨again, ?_⟩
      intro other shown
      by_contra before
      exact first ⟨other, lt_of_not_ge before, shown⟩
    rw [earlierFold_of_least follows moderate hours minutes _ least,
      earlierFold_of_least follows moderate hours minutes _ least]
    exact ⟨_, rfl, (follows.firstShows_iff _).mpr ⟨stop, rfl, least⟩⟩

theorem wallTime_of_skipped
    (skipped : ∀ seconds, reading zone.offset seconds ≠ wallOf day hour minute) :
    wallTime loc day hour minute = none := by
  rcases follows.skipped _ skipped with ⟨change, after, before, resolved⟩
  have involved : ∃ seconds, loc.date (wallOf day hour minute) = seconds * second ∧
      (seconds = wallOf day hour minute - zone.offset (change - 1) ∨
        seconds = wallOf day hour minute - zone.offset change) := by
    rcases resolved with early | late
    · exact ⟨_, early, .inl rfl⟩
    · exact ⟨_, late, .inr rfl⟩
  rcases involved with ⟨seconds, resolved, isInvolved⟩
  have hidden : ¬loc.shows day hour minute (seconds * second) = true := by
    rw [shows_iff hours minutes, follows.wall_mul]
    exact (zone.steady moderate).skipped (by decide) moderate.forward skipped after before isInvolved
  simp only [wallTime, show day * 86400 + hour * 3600 + minute * 60 = wallOf day hour minute
    from rfl, resolved, if_neg hidden]

/-- Gaps are skipped, and a fold is resolved to the first occurrence. -/
theorem wallTime_eq_some_iff (slot : ℤ) :
    wallTime loc day hour minute = some slot ↔
      loc.FirstShows (wallOf day hour minute) slot := by
  by_cases shown : ∃ seconds, reading zone.offset seconds = wallOf day hour minute
  · rcases wallTime_of_shown follows moderate hours minutes shown with ⟨first, resolved, isFirst⟩
    rw [resolved, Option.some.injEq]
    constructor
    · rintro rfl
      exact isFirst
    · exact isFirst.unique
  · have skipped := not_exists.mp shown
    rw [wallTime_of_skipped follows moderate hours minutes skipped]
    constructor
    · intro none
      cases none
    · intro first
      exact absurd ((follows.wall_eq slot).symm.trans first.1) (skipped _)

end Clock

section Search

variable {loc : Location} {days anchor hour minute after slot : ℤ} {message : String}

/-- A date of the search has no slot that lies ahead. -/
def Elapsed (loc : Location) (days anchor hour minute after : ℤ) (index : ℕ) : Prop :=
  ∀ slot, wallTime loc (anchor + index * days) hour minute = some slot → slot ≤ after

theorem elapsed_from {index last : ℕ} (elapsed : Elapsed loc days anchor hour minute after index)
    (all : ∀ other : ℕ, index + 1 ≤ other → other < last →
      Elapsed loc days anchor hour minute after other) :
    ∀ other : ℕ, index ≤ other → other < last → Elapsed loc days anchor hour minute after other := by
  intro other isAfter before
  rcases isAfter.eq_or_lt with rfl | later
  · exact elapsed
  · exact all other later before

theorem intervalNext_ok (tries index : ℕ)
    (found : intervalNext loc days anchor hour minute after tries index = .ok slot) :
    ∃ last : ℕ, index ≤ last ∧
      (∀ other : ℕ, index ≤ other → other < last → Elapsed loc days anchor hour minute after other) ∧
      wallTime loc (anchor + last * days) hour minute = some slot ∧ after < slot := by
  induction tries generalizing index with
  | zero => cases found
  | succ tries ih =>
      have further : Elapsed loc days anchor hour minute after index →
          intervalNext loc days anchor hour minute after tries (index + 1) = .ok slot →
          ∃ last : ℕ, index ≤ last ∧
            (∀ other : ℕ, index ≤ other → other < last →
              Elapsed loc days anchor hour minute after other) ∧
            wallTime loc (anchor + last * days) hour minute = some slot ∧ after < slot := by
        intro elapsed rest
        rcases ih (index + 1) rest with ⟨last, reached, all, resolved, ahead⟩
        exact ⟨last, by omega, elapsed_from elapsed all, resolved, ahead⟩
      simp only [intervalNext] at found
      split at found
      · cases found
      · split at found
        · rename_i none
          refine further ?_ found
          intro other resolved
          rw [none] at resolved
          cases resolved
        · rename_i candidate resolved
          split at found
          · rename_i ahead
            cases found
            refine ⟨index, le_rfl, ?_, resolved, ahead⟩
            intro other isAfter before
            omega
          · rename_i elapsed
            refine further ?_ found
            intro other same
            rw [resolved] at same
            cases same
            exact not_lt.mp elapsed

theorem intervalNext_error (tries index : ℕ)
    (failed : intervalNext loc days anchor hour minute after tries index = .error message) :
    (∃ last : ℕ, dateLimit ≤ anchor + last * days ∧
      ∀ other : ℕ, index ≤ other → other < last → Elapsed loc days anchor hour minute after other) ∨
    ∀ other : ℕ, index ≤ other → other < index + tries →
      Elapsed loc days anchor hour minute after other := by
  induction tries generalizing index with
  | zero =>
      right
      intro other isAfter before
      omega
  | succ tries ih =>
      have further : Elapsed loc days anchor hour minute after index →
          intervalNext loc days anchor hour minute after tries (index + 1) = .error message →
          (∃ last : ℕ, dateLimit ≤ anchor + last * days ∧
            ∀ other : ℕ, index ≤ other → other < last →
              Elapsed loc days anchor hour minute after other) ∨
          ∀ other : ℕ, index ≤ other → other < index + (tries + 1) →
            Elapsed loc days anchor hour minute after other := by
        intro elapsed rest
        rcases ih (index + 1) rest with ⟨last, limit, all⟩ | all
        · exact .inl ⟨last, limit, elapsed_from elapsed all⟩
        · right
          apply elapsed_from elapsed
          intro other isAfter before
          exact all other isAfter (by omega)
      simp only [intervalNext] at failed
      split at failed
      · rename_i limit
        left
        refine ⟨index, limit, ?_⟩
        intro other isAfter before
        omega
      · split at failed
        · rename_i none
          refine further ?_ failed
          intro other resolved
          rw [none] at resolved
          cases resolved
        · rename_i candidate resolved
          split at failed
          · cases failed
          · rename_i elapsed
            refine further ?_ failed
            intro other same
            rw [resolved] at same
            cases same
            exact not_lt.mp elapsed

/-- The search starts at the last date that is not after the local one. -/
theorem index_spec (positive : 1 ≤ days) (today : ℤ) :
    (∀ other : ℕ, other < (max 0 ((today - anchor).tdiv days)).toNat →
      anchor + other * days + days ≤ today) ∧
    today < anchor + ((max 0 ((today - anchor).tdiv days)).toNat : ℤ) * days + days := by
  by_cases started : anchor ≤ today
  · have quotient : (today - anchor).tdiv days = (today - anchor) / days :=
      Int.tdiv_eq_ediv_of_nonneg (by omega)
    have nonneg : 0 ≤ (today - anchor) / days := Int.ediv_nonneg (by omega) (by omega)
    have lower : (today - anchor) / days * days ≤ today - anchor :=
      Int.ediv_mul_le _ (by omega)
    have upper : today - anchor < ((today - anchor) / days + 1) * days :=
      Int.lt_ediv_add_one_mul_self _ (by omega)
    rw [quotient, max_eq_right nonneg]
    constructor
    · intro other before
      have less : (other : ℤ) + 1 ≤ (today - anchor) / days := by omega
      have scaled := mul_le_mul_of_nonneg_right less (show 0 ≤ days by omega)
      rw [add_mul, one_mul] at scaled
      omega
    · rw [Int.toNat_of_nonneg nonneg]
      rw [add_mul, one_mul] at upper
      omega
  · have quotient : (today - anchor).tdiv days ≤ 0 := by
      rw [← neg_sub, Int.neg_tdiv]
      exact Int.neg_nonpos_of_nonneg (Int.tdiv_nonneg (by omega) (by omega))
    rw [max_eq_left quotient]
    constructor
    · intro other before
      exact absurd before (Nat.not_lt_zero other)
    · simp only [Int.toNat_zero, Nat.cast_zero, zero_mul]
      omega

end Search

section Order

variable {loc : Location} {zone : Zone} {wall later slot instant : ℤ}

/-- A time that the clock has reached has been shown, if it is ever shown. -/
theorem Location.Follows.first_le (follows : loc.Follows zone) (moderate : zone.Moderate)
    (first : loc.FirstShows wall slot) (reached : wall ≤ loc.wall instant) : slot ≤ instant := by
  rcases (follows.firstShows_iff slot).mp first with ⟨seconds, rfl, least⟩
  rw [follows.wall_eq] at reached
  have before := (zone.steady moderate).first_le least reached
  simp only [second] at before ⊢
  omega

theorem Location.Follows.first_lt_first (follows : loc.Follows zone) (moderate : zone.Moderate)
    {next : ℤ} (first : loc.FirstShows wall slot) (firstLater : loc.FirstShows later next)
    (less : wall < later) : slot < next := by
  rcases (follows.firstShows_iff slot).mp first with ⟨seconds, rfl, least⟩
  rcases (follows.firstShows_iff next).mp firstLater with ⟨laterSeconds, rfl, leastLater⟩
  exact mul_lt_mul_of_pos_right ((zone.steady moderate).first_lt_first least leastLater less)
    (by decide)

/-- A time more than two days ahead has not been shown. -/
theorem Location.Follows.lt_of_ahead (follows : loc.Follows zone) (moderate : zone.Moderate)
    (first : loc.FirstShows wall slot) (ahead : loc.wall instant + 48 * 3600 < wall) :
    instant < slot := by
  rcases (follows.firstShows_iff slot).mp first with ⟨seconds, rfl, least⟩
  by_contra reached
  have shown : reading zone.offset seconds = wall := least.1
  have drop := (zone.steady moderate).reading_sub_le
    (show seconds ≤ instant / second by simp only [second] at reached ⊢; omega)
  rw [follows.wall_eq] at ahead
  omega

end Order

section Clocks

theorem digits_nonneg {text : List Char} {value : ℤ} (read : digits text = some value) :
    0 ≤ value := by
  have fold : ∀ (text : List Char) (start : ℤ), 0 ≤ start →
      0 ≤ text.foldl (fun (value : ℤ) char => value * 10 + (char.toNat - '0'.toNat : ℕ)) start := by
    intro text
    induction text with
    | nil => exact fun _ nonneg => nonneg
    | cons char text ih =>
        intro start nonneg
        apply ih
        dsimp only
        omega
  unfold digits at read
  split at read
  · cases read
    exact fold text 0 le_rfl
  · cases read

/-- A clock time is one of a day. -/
theorem parseClock_spec {text : String} {hour minute : ℤ}
    (read : parseClock text = some (hour, minute)) :
    (0 ≤ hour ∧ hour < 24) ∧ 0 ≤ minute ∧ minute < 60 := by
  have parts : ∀ first last : List Char,
      ((digits first).bind fun hours => (digits last).bind fun minutes =>
        if hours < 24 ∧ minutes < 60 then some (hours, minutes) else none) = some (hour, minute) →
      (0 ≤ hour ∧ hour < 24) ∧ 0 ≤ minute ∧ minute < 60 := by
    intro first last both
    rcases Option.bind_eq_some_iff.mp both with ⟨hours, isHours, both⟩
    rcases Option.bind_eq_some_iff.mp both with ⟨minutes, isMinutes, both⟩
    split at both
    · rename_i inside
      cases both
      exact ⟨⟨digits_nonneg isHours, inside.1⟩, digits_nonneg isMinutes, inside.2⟩
    · cases both
  unfold parseClock at read
  dsimp only at read
  split at read
  · exact parts _ _ read
  · exact parts _ _ read
  · cases read

end Clocks

section Next

variable {environment : Environment} {rule : Rule} {loc : Location} {zone : Zone} {name : String}
  {anchor hour minute : ℤ}

/-- A day interval is searched as soon as its fields have been read. -/
theorem next_interval (known : location environment name = .ok loc)
    (interval : rule.kind = "interval") (positive : 1 ≤ rule.days) (limited : rule.days ≤ 3650000)
    (start : parseDate rule.start = some anchor)
    (clock : parseClock rule.time = some (hour, minute)) (after : ℤ) :
    rule.next environment after name =
      intervalNext loc rule.days anchor hour minute after 16
        (max 0 ((loc.day after - anchor).tdiv rule.days)).toNat := by
  have notCron : rule.kind ≠ "cron" := by
    rw [interval]
    decide
  have valid : ¬(rule.kind ≠ "interval" ∨ rule.days < 1 ∨ 3650000 < rule.days) := by
    rintro (other | tooFew | tooMany)
    · exact other interval
    · omega
    · omega
  simp only [Rule.next, known, if_neg notCron, if_neg valid, start, clock]

/-- What a slot of a day interval is. -/
def IntervalSlot (loc : Location) (days anchor hour minute : ℤ) (index : ℕ) (slot : ℤ) : Prop :=
  loc.FirstShows (wallOf (anchor + index * days) hour minute) slot

/-- The next slot of a day interval is the least one ahead.  There is none only if no date before
the year 10000 has one, or if no date of sixteen has one ahead, of which the last thirteen are
skipped altogether. -/
theorem interval_next (environment : Environment) (rule : Rule) (loc : Location) (zone : Zone)
    (name : String) (known : location environment name = .ok loc) (follows : loc.Follows zone)
    (moderate : zone.Moderate) (interval : rule.kind = "interval") (positive : 1 ≤ rule.days)
    (limited : rule.days ≤ 3650000) (anchor hour minute : ℤ)
    (start : parseDate rule.start = some anchor)
    (clock : parseClock rule.time = some (hour, minute)) (after : ℤ) :
    (∀ slot, rule.next environment after name = .ok slot →
      IsLeast {slot | after < slot ∧
        ∃ index, IntervalSlot loc rule.days anchor hour minute index slot} slot) ∧
    ∀ message, rule.next environment after name = .error message →
      (∀ (index : ℕ) slot, anchor + index * rule.days < dateLimit →
        IntervalSlot loc rule.days anchor hour minute index slot → slot ≤ after) ∨
      ∃ first : ℕ,
        (∀ index, first ≤ index → index < first + 16 → ∀ slot,
          IntervalSlot loc rule.days anchor hour minute index slot → slot ≤ after) ∧
        ∀ index, first + 3 ≤ index → index < first + 16 → ∀ slot,
          ¬IntervalSlot loc rule.days anchor hour minute index slot := by
  rcases parseClock_spec clock with ⟨hours, minutes⟩
  rw [next_interval known interval positive limited start clock after]
  rcases @index_spec rule.days anchor positive (loc.day after) with ⟨earlier, upper⟩
  generalize (max 0 ((loc.day after - anchor).tdiv rule.days)).toNat = begin at earlier upper
  have slots : ∀ (index : ℕ) slot,
      wallTime loc (anchor + index * rule.days) hour minute = some slot ↔
        IntervalSlot loc rule.days anchor hour minute index slot := by
    intro index slot
    exact wallTime_eq_some_iff follows moderate hours minutes slot
  have elapsed : ∀ (index : ℕ) slot, index < begin →
      IntervalSlot loc rule.days anchor hour minute index slot → slot ≤ after := by
    intro index slot before isSlot
    apply follows.first_le moderate isSlot
    have date := earlier index before
    simp only [wallOf, Location.day] at date ⊢
    omega
  have later : ∀ (index next : ℕ) slot other, index < next →
      IntervalSlot loc rule.days anchor hour minute index slot →
      IntervalSlot loc rule.days anchor hour minute next other → slot < other := by
    intro index next slot other less isSlot isOther
    apply follows.first_lt_first moderate isSlot isOther
    have grows : (index : ℤ) * rule.days < next * rule.days :=
      mul_lt_mul_of_pos_right (by exact_mod_cast less) (by omega)
    simp only [wallOf]
    omega
  constructor
  · intro slot found
    rcases intervalNext_ok _ _ found with ⟨last, reached, all, resolved, ahead⟩
    refine ⟨⟨ahead, last, (slots last slot).mp resolved⟩, ?_⟩
    rintro other ⟨otherAhead, index, isOther⟩
    rcases lt_trichotomy index last with before | rfl | isLater
    · by_cases skipped : index < begin
      · exact absurd (elapsed index other skipped isOther) (not_le_of_gt otherAhead)
      · have past := all index (not_lt.mp skipped) before other ((slots index other).mpr isOther)
        exact absurd past (not_le_of_gt otherAhead)
    · rw [(slots index other).mpr isOther, Option.some.injEq] at resolved
      exact resolved.ge
    · exact (later last index slot other isLater ((slots last slot).mp resolved) isOther).le
  · intro message failed
    rcases intervalNext_error _ _ failed with ⟨last, limit, all⟩ | all
    · left
      intro index slot inRange isSlot
      by_cases skipped : index < begin
      · exact elapsed index slot skipped isSlot
      · refine all index (not_lt.mp skipped) ?_ slot ((slots index slot).mpr isSlot)
        by_contra beyond
        have grows : (last : ℤ) * rule.days ≤ index * rule.days :=
          mul_le_mul_of_nonneg_right (by exact_mod_cast not_lt.mp beyond) (by omega)
        omega
    · right
      refine ⟨begin, ?_, ?_⟩
      · intro index isAfter before slot isSlot
        exact all index isAfter before slot ((slots index slot).mpr isSlot)
      · intro index isAfter before slot isSlot
        have past := all index (by omega) before slot ((slots index slot).mpr isSlot)
        have ahead : after < slot := by
          apply follows.lt_of_ahead moderate isSlot
          have grows : ((begin : ℤ) + 3) * rule.days ≤ index * rule.days :=
            mul_le_mul_of_nonneg_right (by exact_mod_cast isAfter) (by omega)
          rw [add_mul] at grows
          simp only [wallOf, Location.day] at upper ⊢
          omega
        omega

end Next

section Samples

/-- A zone with one transition. -/
def Zone.single (initial change offset : ℤ) : Zone where
  initial := initial
  transitions := [(change, offset)]
  apart := List.isChain_singleton _

/-- A location with one transition; times before the pivot are resolved with the first offset. -/
def shifted (initial change offset pivot : ℤ) : Location where
  offset := fun instant => if instant / second < change then initial else offset
  date := fun wall => (wall - if wall < pivot then initial else offset) * second

theorem shifted_follows {initial change offset pivot : ℤ}
    (lower : min (change + initial) (change + offset) ≤ pivot)
    (upper : pivot ≤ max (change + initial) (change + offset)) :
    (shifted initial change offset pivot).Follows (.single initial change offset) where
  offset := fun _ => rfl
  shown := by
    rintro wall ⟨seconds, shows⟩
    refine ⟨_, rfl, ?_⟩
    simp only [reading, Zone.offset, Zone.single, offsetFrom] at shows ⊢
    grind
  skipped := by
    intro wall notShown
    have early := notShown (wall - initial)
    have late := notShown (wall - offset)
    simp only [reading, Zone.offset, Zone.single, offsetFrom, shifted] at early late ⊢
    refine ⟨change, ?_, ?_, ?_⟩
    · grind
    · grind
    · grind

/-- The sample panel in some location. -/
def inZone (loc : Location) : Environment :=
  { sampleEnvironment with loadLocation := fun _ => some loc }

theorem location_inZone (loc : Location) : location (inZone loc) "UTC" = .ok loc := by
  have short : ¬(128 < "UTC".utf8ByteSize ∨ trimSpace "UTC".toList ≠ "UTC".toList ∨
      "UTC" = "") := by decide +kernel
  have notServer : "UTC" ≠ "server" := by decide
  simp only [location, if_neg notServer, if_neg short]
  rfl

/-- An interval from some day of January 2026 on. -/
def sampleInterval (days : ℤ) (start time : String) : Rule where
  kind := "interval"
  days := days
  start := start
  time := time
  cron := ""

/-- The clock of Central Europe before, and from, the end of summer time in 2026. -/
def sampleAutumn : Location := shifted 7200 1792890000 3600 1792893600

theorem sampleAutumn_moderate : (Zone.single 7200 1792890000 3600).Moderate where
  back := by
    intro instant
    simp only [Zone.offset, Zone.single, offsetFrom]
    grind
  forward := by
    intro instant
    simp only [Zone.offset, Zone.single, offsetFrom]
    grind

theorem eq_ok_of_toOption {ε α : Type} {result : Except ε α} {value : α}
    (some : result.toOption = some value) : result = .ok value := by
  cases result with
  | ok other =>
      cases some
      rfl
  | error message => cases some

/-- A slot at 02:30 in the hour that is shown twice is the first of both. -/
theorem sampleAutumn_next :
    IsLeast {slot | 1792800000 * second < slot ∧
      ∃ index, IntervalSlot sampleAutumn 7 20730 2 30 index slot} (1792888200 * second) := by
  refine (interval_next (inZone sampleAutumn) (sampleInterval 7 "2026-10-04" "02:30") sampleAutumn
    (.single 7200 1792890000 3600) "UTC" (location_inZone _)
    (shifted_follows (by decide) (by decide)) sampleAutumn_moderate rfl (by decide) (by decide)
    20730 2 30 (by decide +kernel) (by decide +kernel) (1792800000 * second)).1 _ ?_
  apply eq_ok_of_toOption
  decide +kernel

/-- What was promised for a location: no error unless sixteen dates in a row are skipped. -/
def Promised (loc : Location) (rule : Rule) (after : ℤ) : Prop :=
  ∀ anchor hour minute, parseDate rule.start = some anchor →
    parseClock rule.time = some (hour, minute) →
    (∀ slot, rule.next (inZone loc) after "UTC" = .ok slot →
      IsLeast {slot | after < slot ∧
        ∃ index, IntervalSlot loc rule.days anchor hour minute index slot} slot) ∧
    ∀ message, rule.next (inZone loc) after "UTC" = .error message →
      (∀ (index : ℕ) slot, anchor + index * rule.days < dateLimit →
        IntervalSlot loc rule.days anchor hour minute index slot → slot ≤ after) ∨
      ∃ first : ℕ, ∀ index, first ≤ index → index < first + 16 → ∀ slot,
        ¬IntervalSlot loc rule.days anchor hour minute index slot

/-- A clock that is put back by three days at the start of 2026. -/
def sampleBack : Location := shifted 259200 (20454 * 86400) 0 (20454 * 86400)

/-- A clock that is put forward by half a minute, ten seconds before 2026. -/
def sampleForward : Location := shifted 0 (20454 * 86400 - 10) 30 (20454 * 86400 + 20)

/-- A clock that is put forward by fifteen days on the second day of 2026. -/
def sampleSkipped : Location := shifted 0 (20455 * 86400) 1296000 (20455 * 86400)

theorem exists_error_of_toOption {ε α : Type} {result : Except ε α}
    (none : result.toOption = none) : ∃ message, result = .error message := by
  cases result with
  | ok other => cases none
  | error message => exact ⟨message, rfl⟩

/-- The whole second that shows a time is the first instant that does. -/
theorem firstShows_of_unique {loc : Location} {wall seconds : ℤ}
    (shows : loc.wall (seconds * second) = wall)
    (unique : ∀ instant, loc.wall instant = wall → seconds ≤ instant / second) :
    loc.FirstShows wall (seconds * second) := by
  refine ⟨shows, ?_⟩
  intro instant isShown
  have whole := unique instant isShown
  simp only [second] at whole ⊢
  omega

theorem firstShows_utc (wall : ℤ) : utc.FirstShows wall (wall * second) := by
  apply firstShows_of_unique
  · simp only [Location.wall, utc, mul_second_ediv, add_zero]
  · intro instant shown
    simp only [Location.wall, utc, add_zero] at shown
    exact shown.ge

/-- An interval of 3650001 days is refused although its first slot lies ahead. -/
theorem not_promised_days :
    ¬Promised utc (sampleInterval 3650001 "2026-01-02" "00:00") sampleStart := by
  intro promised
  rcases promised 20455 0 0 (by decide +kernel) (by decide +kernel) with ⟨-, errors⟩
  have refused : ((sampleInterval 3650001 "2026-01-02" "00:00").next (inZone utc) sampleStart
      "UTC").toOption = none := by decide +kernel
  rcases exists_error_of_toOption refused with ⟨message, failed⟩
  rcases errors message failed with none | ⟨first, skipped⟩
  · exact absurd (none 0 _ (by decide +kernel) (firstShows_utc _)) (by decide)
  · exact skipped first le_rfl (by omega) _ (firstShows_utc _)

/-- The second of two instants that show a time is taken if they are far apart. -/
theorem not_promised_back :
    ¬Promised sampleBack (sampleInterval 1 "2026-01-03" "12:00")
      (sampleStart - 360000 * second) := by
  intro promised
  rcases promised 20456 12 0 (by decide +kernel) (by decide +kernel) with ⟨slots, -⟩
  have found : (sampleInterval 1 "2026-01-03" "12:00").next
      (inZone sampleBack) (sampleStart - 360000 * second)
      "UTC" = .ok ((20454 * 86400 + 216000) * second) := by
    apply eq_ok_of_toOption
    decide +kernel
  have isFirst : IntervalSlot sampleBack 1 20456 12 0 0
      ((20454 * 86400 - 43200) * second) := by
    apply firstShows_of_unique
    · decide
    · intro instant shown
      simp only [Location.wall, sampleBack, shifted, wallOf] at shown
      split at shown
      · omega
      · omega
  exact absurd ((slots _ found).2 ⟨by decide, 0, isFirst⟩) (by decide)

/-- A minute is taken of which the clock has skipped the start. -/
theorem not_promised_forward :
    ¬Promised sampleForward (sampleInterval 1 "2026-01-01" "00:00")
      (sampleStart - 3600 * second) := by
  intro promised
  rcases promised 20454 0 0 (by decide +kernel) (by decide +kernel) with ⟨slots, -⟩
  have found : (sampleInterval 1 "2026-01-01" "00:00").next
      (inZone sampleForward)
      (sampleStart - 3600 * second) "UTC" = .ok sampleStart := by
    apply eq_ok_of_toOption
    decide +kernel
  rcases (slots _ found).1.2 with ⟨index, isFirst⟩
  have shown : sampleStart / second + 30 = wallOf (20454 + index * 1) 0 0 := isFirst.1
  simp only [sampleStart, second, wallOf] at shown
  omega

/-- Fifteen skipped dates are too many, since the date of today has been tried as well. -/
theorem not_promised_skipped :
    ¬Promised sampleSkipped (sampleInterval 1 "2026-01-01" "00:00")
      (sampleStart + 43200 * second) := by
  intro promised
  rcases promised 20454 0 0 (by decide +kernel) (by decide +kernel) with ⟨-, errors⟩
  have refused : ((sampleInterval 1 "2026-01-01" "00:00").next
      (inZone sampleSkipped)
      (sampleStart + 43200 * second) "UTC").toOption = none := by decide +kernel
  have further : ∀ index : ℕ, 16 ≤ index →
      IntervalSlot sampleSkipped 1 20454 0 0 index
        ((20439 * 86400 + index * 86400) * second) := by
    intro index large
    apply firstShows_of_unique
    · simp only [Location.wall, sampleSkipped, shifted, wallOf, mul_second_ediv]
      rw [if_neg (by omega)]
      omega
    · intro instant shown
      simp only [Location.wall, sampleSkipped, shifted, wallOf] at shown
      split at shown
      · omega
      · omega
  rcases exists_error_of_toOption refused with ⟨message, failed⟩
  rcases errors message failed with none | ⟨first, skipped⟩
  · exact absurd (none 16 _ (by decide +kernel) (further 16 le_rfl)) (by decide)
  · rcases Nat.eq_zero_or_pos first with rfl | positive
    · refine skipped 0 le_rfl (by omega) (20454 * 86400 * second) ?_
      apply firstShows_of_unique
      · decide
      · intro instant shown
        simp only [Location.wall, sampleSkipped, shifted, wallOf] at shown
        split at shown
        · omega
        · omega
    · exact skipped (first + 15) (by omega) (by omega) _ (further _ (by omega))

/-- Four clocks for which the search departs from what was promised. -/
theorem interval_next_departs :
    (utc.Follows (.single 0 0 0) ∧
      ¬Promised utc (sampleInterval 3650001 "2026-01-02" "00:00") sampleStart) ∧
    (sampleBack.Follows (.single 259200 (20454 * 86400) 0) ∧
      ¬Promised sampleBack (sampleInterval 1 "2026-01-03" "12:00")
        (sampleStart - 360000 * second)) ∧
    (sampleForward.Follows (.single 0 (20454 * 86400 - 10) 30) ∧
      ¬Promised sampleForward (sampleInterval 1 "2026-01-01" "00:00")
        (sampleStart - 3600 * second)) ∧
    sampleSkipped.Follows (.single 0 (20455 * 86400) 1296000) ∧
      ¬Promised sampleSkipped (sampleInterval 1 "2026-01-01" "00:00")
        (sampleStart + 43200 * second) := by
  have isUtc : utc = shifted 0 0 0 0 := by
    simp [utc, shifted]
  refine ⟨⟨?_, not_promised_days⟩, ⟨?_, not_promised_back⟩, ⟨?_, not_promised_forward⟩, ?_,
    not_promised_skipped⟩
  · rw [isUtc]
    exact shifted_follows (by decide) (by decide)
  · exact shifted_follows (by decide) (by decide)
  · exact shifted_follows (by decide) (by decide)
  · exact shifted_follows (by decide) (by decide)

end Samples

end TelemtPanel.QuotaReset
