import TelemtPanel.QuotaReset.Scheduler

/-!
# Scheduled resets happen once per slot

Every checkpoint is a slot of its rule after the rule's last change, and no checkpoint is
behind a dispatch.  A user that a dispatch selects therefore has a slot between this
dispatch and the one before it.  The order of the sections and the outcome of each save
are arbitrary; the clock does not go back.
-/

namespace TelemtPanel.QuotaReset

open Library

section Records

variable (environment : Environment) (matching : String → Location → ℤ → Prop)

namespace ScheduleRecord

/-- The rule that resets a user, unless nothing does. -/
def effectiveRule (record : ScheduleRecord) (name : String) : Option Rule :=
  match (record.policy name).mode with
  | .off => none
  | .custom => some (record.policy name).rule
  | _ => record.commonRule

/-- When the rule that resets a user was last changed. -/
def activeSince (record : ScheduleRecord) (name : String) : ℤ :=
  if (record.policy name).mode = .custom then (record.policy name).since else record.globalSince

/-- Checkpoints belong to rules that are on, and are slots after the last change. -/
structure Sound (record : ScheduleRecord) : Prop where
  common : ∀ current, record.cursors.common = some current →
    record.global.enabled = true ∧ record.globalSince < current.next ∧
      record.global.rule.IsSlot environment matching record.global.timezone current.next
  users : ∀ (name : String) current, record.cursors.users[name]? = some current →
    ∃ policy, record.users[name]? = some policy ∧ policy.mode = .custom ∧
      policy.since < current.next ∧
      policy.rule.IsSlot environment matching record.global.timezone current.next

end ScheduleRecord

/-- Every checkpoint that a tick can claim is after a time. -/
structure Cursors.After (cursors : Cursors) (time : ℤ) : Prop where
  common : ∀ current, cursors.common = some current → time < current.next
  users : ∀ (name : String) current, name ≠ "" → cursors.users[name]? = some current →
    time < current.next

end Records

section Edits

variable {environment : Environment} {matching : String → Location → ℤ → Prop}
  {record later : ScheduleRecord} {scheduler : Scheduler} {rule : Rule}
  {zone name expected : String} {now time : ℤ} {durable : Bool}

theorem nextOrZero_spec (least : LeastMatching environment matching)
    (found : (rule.next environment now zone).toBool = true) :
    now < nextOrZero environment rule now zone ∧
      rule.IsSlot environment matching zone (nextOrZero environment rule now zone) := by
  unfold nextOrZero
  split
  · rename_i next slot
    exact Rule.next_spec least slot
  · rename_i message failed
    rw [failed] at found
    cases found

theorem next_of_validate (valid : validate environment rule zone now = true) :
    (rule.next environment now zone).toBool = true := by
  unfold validate at valid
  cases shown : rule.preview environment now zone with
  | error message =>
      rw [shown] at valid
      cases valid
  | ok slots =>
      rcases Rule.next_of_preview shown with ⟨first, found⟩
      rw [found]
      rfl

theorem validate_spec (least : LeastMatching environment matching)
    (valid : validate environment rule zone now = true) :
    now < nextOrZero environment rule now zone ∧
      rule.IsSlot environment matching zone (nextOrZero environment rule now zone) :=
  nextOrZero_spec least (next_of_validate valid)

/-- A checkpoint after a change of the time zone is new, or that of no user's own rule. -/
theorem rebaseCursors_cases {generation : ℕ} {current : Checkpoint}
    (found : (rebaseCursors environment record zone now generation)[name]? = some current) :
    (∃ policy, record.users[name]? = some policy ∧ policy.mode = .custom ∧
      current =
        { next := nextOrZero environment policy.rule now zone, generation := generation }) ∨
    (record.cursors.users[name]? = some current ∧
      ∀ policy, record.users[name]? = some policy → policy.mode ≠ .custom) := by
  have walk : ∀ (entries : List (String × UserSchedule)) (cursors : Table String Checkpoint),
      (entries.foldl
        (fun cursors entry =>
          if entry.2.mode = .custom then
            cursors.insert entry.1
              { next := nextOrZero environment entry.2.rule now zone, generation := generation }
          else cursors) cursors)[name]? = some current →
      (∃ policy, (name, policy) ∈ entries ∧ policy.mode = .custom ∧
        current =
          { next := nextOrZero environment policy.rule now zone, generation := generation }) ∨
      (cursors[name]? = some current ∧
        ∀ policy, (name, policy) ∈ entries → policy.mode ≠ .custom) := by
    intro entries
    induction entries with
    | nil =>
        intro cursors found
        exact .inr ⟨found, by simp⟩
    | cons entry entries ih =>
        intro cursors found
        rcases ih _ found with ⟨policy, mem, custom, next⟩ | ⟨kept, others⟩
        · exact .inl ⟨policy, List.mem_cons_of_mem _ mem, custom, next⟩
        · by_cases custom : entry.2.mode = .custom
          · simp only [if_pos custom, Table.lookup_insert] at kept
            by_cases here : entry.1 = name
            · rw [if_pos here] at kept
              subst here
              cases kept
              exact .inl ⟨entry.2, List.mem_cons_self, custom, rfl⟩
            · rw [if_neg here] at kept
              refine .inr ⟨kept, ?_⟩
              intro policy mem
              rcases List.mem_cons.mp mem with same | mem
              · exact absurd (congrArg Prod.fst same.symm) here
              · exact others policy mem
          · simp only [if_neg custom] at kept
            refine .inr ⟨kept, ?_⟩
            intro policy mem
            rcases List.mem_cons.mp mem with same | mem
            · rwa [← same] at custom
            · exact others policy mem
  simpa only [Table.mem_toList] using walk _ _ found

theorem rebasable_spec (able : rebasable environment record zone now = true)
    {policy : UserSchedule} (found : record.users[name]? = some policy)
    (custom : policy.mode = .custom) : (policy.rule.next environment now zone).toBool = true := by
  have checked := List.all_eq_true.mp able (name, policy) ((Table.mem_toList _ _ _).mpr found)
  simpa [custom] using checked

/-- What an edit of the global schedule saves. -/
theorem saveGlobal_cases {schedule : GlobalSchedule}
    (saved : saveGlobal environment scheduler expected schedule durable now = some later) :
    ∃ global, later.revision = scheduler.record.revision + 1 ∧
      validate environment global.rule global.timezone now = true ∧
      (scheduler.record.global.timezone ≠ global.timezone →
        rebasable environment scheduler.record global.timezone now = true) ∧
      later.global = global ∧
      later.globalSince =
        (if global ≠ scheduler.record.global then now else scheduler.record.globalSince) ∧
      later.users =
        (if scheduler.record.global.timezone ≠ global.timezone then
          scheduler.record.users.map fun _ policy => rebaseUser policy now
        else scheduler.record.users) ∧
      later.cursors.common =
        (if global ≠ scheduler.record.global then
          if global.enabled then
            some { next := nextOrZero environment global.rule now global.timezone
                   generation := scheduler.record.revision + 1 }
          else none
        else scheduler.record.cursors.common) ∧
      later.cursors.users =
        (if scheduler.record.global.timezone ≠ global.timezone then
          rebaseCursors environment scheduler.record global.timezone now
            (scheduler.record.revision + 1)
        else scheduler.record.cursors.users) := by
  simp only [saveGlobal] at saved
  generalize (if schedule.timezone = "server" then
    { schedule with timezone := environment.serverZone } else schedule) = global at saved
  split at saved
  · cases saved
  · split at saved
    · cases saved
    · rename_i valid
      split at saved
      · cases saved
      · split at saved
        · cases saved
        · rename_i able
          cases saved
          refine ⟨global, rfl, by simpa using valid, ?_, rfl, rfl, rfl, rfl, rfl⟩
          intro moved
          by_contra unable
          exact able ⟨moved, by simpa using unable⟩

theorem ScheduleRecord.Sound.saveGlobal (sound : scheduler.record.Sound environment matching)
    (least : LeastMatching environment matching) {schedule : GlobalSchedule}
    (saved : saveGlobal environment scheduler expected schedule durable now = some later) :
    later.Sound environment matching := by
  rcases saveGlobal_cases saved with
    ⟨global, -, valid, able, globalEq, sinceEq, usersEq, commonEq, cursorsEq⟩
  constructor
  · intro current found
    rw [commonEq] at found
    rw [globalEq, sinceEq]
    by_cases changed : global ≠ scheduler.record.global
    · rw [if_pos changed] at found
      split at found
      · rename_i enabled
        cases found
        rw [if_pos changed]
        exact ⟨enabled, validate_spec least valid⟩
      · cases found
    · rw [if_neg changed] at found ⊢
      rw [not_not.mp changed]
      exact sound.common current found
  · intro name current found
    rw [cursorsEq] at found
    rw [usersEq, globalEq]
    by_cases moved : scheduler.record.global.timezone ≠ global.timezone
    · rw [if_pos moved] at found ⊢
      rcases rebaseCursors_cases found with ⟨policy, known, custom, next⟩ | ⟨kept, others⟩
      · refine ⟨rebaseUser policy now, ?_, custom, ?_⟩
        · rw [Table.lookup_map, known]
          rfl
        · rw [next]
          exact nextOrZero_spec least (rebasable_spec (able moved) known custom)
      · rcases sound.users name current kept with ⟨policy, known, custom, _⟩
        exact absurd custom (others policy known)
    · rw [if_neg moved] at found ⊢
      rw [← not_not.mp moved]
      exact sound.users name current found

theorem Cursors.After.saveGlobal (least : LeastMatching environment matching)
    (behind : time ≤ now) (past : scheduler.record.cursors.After time) {schedule : GlobalSchedule}
    (saved : saveGlobal environment scheduler expected schedule durable now = some later) :
    later.cursors.After time := by
  rcases saveGlobal_cases saved with
    ⟨global, -, valid, able, globalEq, sinceEq, usersEq, commonEq, cursorsEq⟩
  constructor
  · intro current found
    rw [commonEq] at found
    split at found
    · split at found
      · cases found
        exact behind.trans_lt (validate_spec least valid).1
      · cases found
    · exact past.common current found
  · intro name current named found
    rw [cursorsEq] at found
    split at found
    · rename_i moved
      rcases rebaseCursors_cases found with ⟨policy, known, custom, next⟩ | ⟨kept, _⟩
      · rw [next]
        exact behind.trans_lt
          (nextOrZero_spec least (rebasable_spec (able moved) known custom)).1
      · exact past.users name current named kept
    · exact past.users name current named found

/-- What an edit of a user's policy saves. -/
theorem saveUser_cases {policy : UserSchedule}
    (saved : saveUser environment scheduler expected name policy durable now = some later) :
    ∃ rule, later.revision = scheduler.record.revision + 1 ∧ policy.mode ≠ .other ∧
      (policy.mode = .custom →
        validate environment rule scheduler.record.global.timezone now = true) ∧
      later.global = scheduler.record.global ∧
      later.globalSince = scheduler.record.globalSince ∧
      later.users = scheduler.record.users.insert name
        { mode := policy.mode, rule := rule, since := now } ∧
      later.cursors.common = scheduler.record.cursors.common ∧
      later.cursors.users =
        (if policy.mode = .custom then
          (scheduler.record.cursors.users.erase name).insert name
            { next := nextOrZero environment rule now scheduler.record.global.timezone
              generation := scheduler.record.revision + 1 }
        else scheduler.record.cursors.users.erase name) := by
  simp only [saveUser] at saved
  split at saved
  · cases saved
  · split at saved
    · cases saved
    · rename_i mode
      split at saved
      · cases saved
      · rename_i valid
        cases saved
        refine ⟨_, rfl, mode, ?_, rfl, rfl, rfl, rfl, rfl⟩
        intro custom
        rw [if_pos custom]
        by_contra invalid
        exact valid ⟨custom, by simp [invalid]⟩

theorem ScheduleRecord.Sound.saveUser (sound : scheduler.record.Sound environment matching)
    (least : LeastMatching environment matching) {policy : UserSchedule}
    (saved : saveUser environment scheduler expected name policy durable now = some later) :
    later.Sound environment matching := by
  rcases saveUser_cases saved with
    ⟨rule, -, -, valid, globalEq, sinceEq, usersEq, commonEq, cursorsEq⟩
  constructor
  · rw [commonEq, globalEq, sinceEq]
    exact sound.common
  · intro other current found
    rw [cursorsEq] at found
    rw [usersEq, globalEq, Table.lookup_insert]
    by_cases here : name = other
    · subst here
      split at found
      · rename_i custom
        rw [Table.lookup_insert, if_pos rfl] at found
        cases found
        exact ⟨_, if_pos rfl, custom, validate_spec least (valid custom)⟩
      · rw [Table.lookup_erase, if_pos rfl] at found
        cases found
    · rw [if_neg here]
      split at found
      · rw [Table.lookup_insert, if_neg here, Table.lookup_erase, if_neg here] at found
        exact sound.users other current found
      · rw [Table.lookup_erase, if_neg here] at found
        exact sound.users other current found

theorem Cursors.After.saveUser (least : LeastMatching environment matching)
    (behind : time ≤ now) (past : scheduler.record.cursors.After time) {policy : UserSchedule}
    (saved : saveUser environment scheduler expected name policy durable now = some later) :
    later.cursors.After time := by
  rcases saveUser_cases saved with
    ⟨rule, -, -, valid, globalEq, sinceEq, usersEq, commonEq, cursorsEq⟩
  constructor
  · rw [commonEq]
    exact past.common
  · intro other current named found
    have erased : (scheduler.record.cursors.users.erase name)[other]? = some current →
        time < current.next := by
      intro kept
      rw [Table.lookup_erase] at kept
      split at kept
      · cases kept
      · exact past.users other current named kept
    rw [cursorsEq] at found
    split at found
    · rename_i custom
      rw [Table.lookup_insert] at found
      split at found
      · cases found
        exact behind.trans_lt (validate_spec least (valid custom)).1
      · exact erased found
    · exact erased found

/-- What forgetting a user saves. -/
theorem forgetUser_cases (saved : forgetUser scheduler name = some later) :
    later.revision = scheduler.record.revision + 1 ∧
      later.global = scheduler.record.global ∧
      later.globalSince = scheduler.record.globalSince ∧
      later.users = scheduler.record.users.erase name ∧
      later.cursors.common = scheduler.record.cursors.common ∧
      later.cursors.users = scheduler.record.cursors.users.erase name := by
  simp only [forgetUser] at saved
  split at saved
  · cases saved
  · cases saved
    exact ⟨rfl, rfl, rfl, rfl, rfl, rfl⟩

theorem ScheduleRecord.Sound.forgetUser (sound : scheduler.record.Sound environment matching)
    (saved : forgetUser scheduler name = some later) : later.Sound environment matching := by
  rcases forgetUser_cases saved with ⟨-, globalEq, sinceEq, usersEq, commonEq, cursorsEq⟩
  constructor
  · rw [commonEq, globalEq, sinceEq]
    exact sound.common
  · intro other current found
    rw [cursorsEq, Table.lookup_erase] at found
    rw [usersEq, globalEq, Table.lookup_erase]
    split at found
    · cases found
    · rename_i elsewhere
      rw [if_neg elsewhere]
      exact sound.users other current found

theorem Cursors.After.forgetUser (past : scheduler.record.cursors.After time)
    (saved : forgetUser scheduler name = some later) : later.cursors.After time := by
  rcases forgetUser_cases saved with ⟨-, -, -, -, commonEq, cursorsEq⟩
  constructor
  · rw [commonEq]
    exact past.common
  · intro other current named found
    rw [cursorsEq, Table.lookup_erase] at found
    split at found
    · cases found
    · exact past.users other current named found

end Edits

section Ticks

variable {environment : Environment} {matching : String → Location → ℤ → Prop}
  {record : ScheduleRecord} {claims : Cursors} {rule : Option Rule} {now time : ℤ}
  {current : Checkpoint}

/-- The end of a run leaves a checkpoint, or moves it to a later slot. -/
theorem settle_cases (claim : Option Checkpoint) :
    settle environment record rule claim now current = current ∨
    ∃ known next, rule = some known ∧
      known.next environment now record.global.timezone = .ok next ∧ current.next < next ∧
      settle environment record rule claim now current = { current with next := next } := by
  unfold settle
  split
  · rename_i known _
    split
    · split
      · rename_i next found
        split
        · rename_i later
          exact .inr ⟨known, next, rfl, found, later, rfl⟩
        · exact .inl rfl
      · exact .inl rfl
    · exact .inl rfl
  · exact .inl rfl

theorem le_next_settle (claim : Option Checkpoint) :
    current.next ≤ (settle environment record rule claim now current).next := by
  rcases @settle_cases environment record rule now current claim with
    same | ⟨known, next, -, -, later, moved⟩
  · rw [same]
  · rw [moved]
    exact later.le

theorem settle_isSlot (least : LeastMatching environment matching) {known : Rule}
    (isRule : rule = some known) (claim : Option Checkpoint)
    (slot : known.IsSlot environment matching record.global.timezone current.next) :
    known.IsSlot environment matching record.global.timezone
      (settle environment record rule claim now current).next := by
  rcases @settle_cases environment record rule now current claim with
    same | ⟨other, next, isOther, found, -, moved⟩
  · rwa [same]
  · rw [moved]
    rw [isRule] at isOther
    cases isOther
    exact (Rule.next_spec least found).2

theorem ScheduleRecord.Sound.userRule (sound : record.Sound environment matching) {name : String}
    (named : name ≠ "") (found : record.cursors.users[name]? = some current) :
    ∃ policy, record.users[name]? = some policy ∧ policy.mode = .custom ∧
      record.userRule name = some policy.rule ∧ policy.since < current.next ∧
      policy.rule.IsSlot environment matching record.global.timezone current.next := by
  rcases sound.users name current found with ⟨policy, known, custom, since, slot⟩
  refine ⟨policy, known, custom, ?_, since, slot⟩
  simp [ScheduleRecord.userRule, named, known, custom]

theorem ScheduleRecord.Sound.commonRule (sound : record.Sound environment matching)
    (found : record.cursors.common = some current) :
    record.commonRule = some record.global.rule := by
  simp [ScheduleRecord.commonRule, (sound.common current found).1]

theorem userRule_empty : record.userRule "" = none := if_pos rfl

theorem ScheduleRecord.Sound.finishRecord (sound : record.Sound environment matching)
    (least : LeastMatching environment matching) (run : ScheduledRun) :
    (finishRecord environment record run claims now).Sound environment matching := by
  constructor
  · intro moved found
    simp only [QuotaReset.finishRecord, Option.map_eq_some_iff] at found
    rcases found with ⟨current, found, rfl⟩
    rcases sound.common current found with ⟨enabled, since, slot⟩
    exact ⟨enabled, since.trans_le (le_next_settle _),
      settle_isSlot least (sound.commonRule found) _ slot⟩
  · intro name moved found
    simp only [QuotaReset.finishRecord, Table.lookup_map, Option.map_eq_some_iff] at found
    rcases found with ⟨current, found, rfl⟩
    by_cases named : name = ""
    · subst named
      rw [userRule_empty]
      exact sound.users "" current found
    · rcases sound.userRule named found with ⟨policy, known, custom, isRule, since, slot⟩
      exact ⟨policy, known, custom, since.trans_le (le_next_settle _),
        settle_isSlot least isRule _ slot⟩

theorem Cursors.After.finishRecord (past : record.cursors.After time) (run : ScheduledRun) :
    (finishRecord environment record run claims now).cursors.After time := by
  constructor
  · intro moved found
    simp only [QuotaReset.finishRecord, Option.map_eq_some_iff] at found
    rcases found with ⟨current, found, rfl⟩
    exact (past.common current found).trans_le (le_next_settle _)
  · intro name moved named found
    simp only [QuotaReset.finishRecord, Table.lookup_map, Option.map_eq_some_iff] at found
    rcases found with ⟨current, found, rfl⟩
    exact (past.users name current named found).trans_le (le_next_settle _)

/-- Fields that a rule needs are never left out of its text. -/
theorem Rule.IsSlot.unmarshalRule {saved : Rule} (known : Rule) {zone : String} {slot : ℤ}
    (isSlot : saved.IsSlot environment matching zone slot) :
    (unmarshalRule saved known).IsSlot environment matching zone slot := by
  rcases isSlot with ⟨loc, isZone, isSlot⟩
  refine ⟨loc, isZone, ?_⟩
  by_cases cron : saved.kind = "cron"
  · rw [if_pos cron] at isSlot
    rw [if_pos (show (QuotaReset.unmarshalRule saved known).kind = "cron" from cron)]
    rcases isSlot with ⟨expr, instant, parsed, matched, resolved⟩
    have given : saved.cron ≠ "" := by
      intro missing
      rw [missing] at parsed
      cases parsed
    refine ⟨expr, instant, ?_, matched, resolved⟩
    simpa only [QuotaReset.unmarshalRule, if_neg given] using parsed
  · rw [if_neg cron] at isSlot
    rw [if_neg (show (QuotaReset.unmarshalRule saved known).kind ≠ "cron" from cron)]
    rcases isSlot with ⟨anchor, hour, minute, date, clock, index, resolved⟩
    have givenStart : saved.start ≠ "" := by
      intro missing
      rw [missing] at date
      cases date
    have givenTime : saved.time ≠ "" := by
      intro missing
      rw [missing] at clock
      cases clock
    refine ⟨anchor, hour, minute, ?_, ?_, ?_⟩
    · simpa only [QuotaReset.unmarshalRule, if_neg givenStart] using date
    · simpa only [QuotaReset.unmarshalRule, if_neg givenTime] using clock
    · by_cases missing : saved.days = 0
      · refine ⟨0, ?_⟩
        rw [missing, mul_zero] at resolved
        rwa [Nat.cast_zero, zero_mul]
      · refine ⟨index, ?_⟩
        simpa only [QuotaReset.unmarshalRule, if_neg missing] using resolved

theorem ScheduleRecord.Sound.unmarshalRecord (sound : record.Sound environment matching) :
    (unmarshalRecord environment record now).Sound environment matching where
  common := by
    intro current found
    rcases sound.common current found with ⟨enabled, since, slot⟩
    exact ⟨enabled, since, slot.unmarshalRule _⟩
  users := sound.users

end Ticks

section Reservations

variable {environment : Environment} {matching : String → Location → ℤ → Prop}
  {record : ScheduleRecord} {claims : Cursors} {names selected : List String}
  {name id : String} {now time : ℤ} {current : Checkpoint} {reservation : Reservation}

theorem claimed_common (found : record.cursors.common = some current) :
    (dueClaims record now).common.isSome = (current.due now && record.commonRule.isSome) := by
  simp [dueClaims, found, Option.isSome_filter]

theorem claimed_user (found : record.cursors.users[name]? = some current) :
    ((dueClaims record now).users[name]?).isSome =
      (current.due now && (record.userRule name).isSome) := by
  simp [dueClaims, found, Option.isSome_filter, -Std.ExtTreeMap.getElem?_filter,
    Table.lookup_filter]

theorem advanceable_common (able : advanceable environment record claims now = true)
    (claimed : claims.common.isSome = true) {rule : Rule} (isRule : record.commonRule = some rule) :
    (rule.next environment now record.global.timezone).toBool = true := by
  simp only [advanceable, Bool.and_eq_true, Bool.or_eq_true, isRule, Option.all_some] at able
  rcases able.1 with absent | found
  · rw [Option.isNone_iff_eq_none] at absent
    rw [absent] at claimed
    cases claimed
  · exact found

theorem advanceable_user (able : advanceable environment record claims now = true)
    (claimed : (claims.users[name]?).isSome = true) {rule : Rule}
    (isRule : record.userRule name = some rule) :
    (rule.next environment now record.global.timezone).toBool = true := by
  rcases Option.isSome_iff_exists.mp claimed with ⟨claim, found⟩
  simp only [advanceable, Bool.and_eq_true, List.all_eq_true] at able
  have checked := able.2 (name, claim) ((Table.mem_toList _ _ _).mpr found)
  rwa [isRule] at checked

/-- A checkpoint after a reservation is a slot of its rule that is still to come. -/
theorem advance_spec (least : LeastMatching environment matching) {rule : Rule}
    {isRule : Option Rule} (known : isRule = some rule) {claimed : Bool}
    (due : claimed = current.due now)
    (able : claimed = true → (rule.next environment now record.global.timezone).toBool = true)
    (slot : rule.IsSlot environment matching record.global.timezone current.next) :
    now < (advance environment record isRule claimed now current).next ∧
      current.next ≤ (advance environment record isRule claimed now current).next ∧
      rule.IsSlot environment matching record.global.timezone
        (advance environment record isRule claimed now current).next := by
  subst known
  unfold advance
  cases claimed with
  | true =>
      rcases nextOrZero_spec least (able rfl) with ⟨later, isSlot⟩
      have elapsed : current.next ≤ now := of_decide_eq_true due.symm
      exact ⟨later, elapsed.trans later.le, isSlot⟩
  | false =>
      have ahead : ¬current.next ≤ now := of_decide_eq_false due.symm
      exact ⟨lt_of_not_ge ahead, le_rfl, slot⟩

theorem advance_common (sound : record.Sound environment matching)
    (least : LeastMatching environment matching)
    (able : advanceable environment record (dueClaims record now) now = true)
    (found : record.cursors.common = some current) :
    let moved := advance environment record record.commonRule
      (dueClaims record now).common.isSome now current
    now < moved.next ∧ current.next ≤ moved.next ∧
      record.global.rule.IsSlot environment matching record.global.timezone moved.next := by
  have isRule := sound.commonRule found
  apply advance_spec least isRule
  · rw [claimed_common found, isRule, Option.isSome_some, Bool.and_true]
  · intro claimed
    exact advanceable_common able claimed isRule
  · exact (sound.common current found).2.2

theorem advance_user (sound : record.Sound environment matching)
    (least : LeastMatching environment matching)
    (able : advanceable environment record (dueClaims record now) now = true)
    (named : name ≠ "") (found : record.cursors.users[name]? = some current) :
    let moved := advance environment record (record.userRule name)
      ((dueClaims record now).users[name]?).isSome now current
    now < moved.next ∧ current.next ≤ moved.next ∧
      ∀ rule, record.userRule name = some rule →
        rule.IsSlot environment matching record.global.timezone moved.next := by
  rcases sound.userRule named found with ⟨policy, known, custom, isRule, since, slot⟩
  have due : ((dueClaims record now).users[name]?).isSome = current.due now := by
    rw [claimed_user found, isRule, Option.isSome_some, Bool.and_true]
  rcases advance_spec least isRule due (fun claimed => advanceable_user able claimed isRule) slot
    with ⟨ahead, forward, isSlot⟩
  refine ⟨ahead, forward, ?_⟩
  intro rule same
  rw [isRule] at same
  cases same
  exact isSlot

/-- No checkpoint of the user without a name is ever claimed. -/
theorem advance_nameless (found : record.cursors.users[""]? = some current) :
    advance environment record (record.userRule "")
      ((dueClaims record now).users[""]?).isSome now current = current := by
  rw [claimed_user found, userRule_empty, Option.isSome_none, Bool.and_false]
  rfl

theorem ScheduleRecord.Sound.advanceCursors (sound : record.Sound environment matching)
    (least : LeastMatching environment matching)
    (able : advanceable environment record (dueClaims record now) now = true)
    (last : Option ScheduledRun) :
    ScheduleRecord.Sound environment matching
      { record with
        cursors := advanceCursors environment record (dueClaims record now) now, last := last } := by
  constructor
  · intro moved found
    simp only [QuotaReset.advanceCursors, Option.map_eq_some_iff] at found
    rcases found with ⟨current, found, rfl⟩
    have moves := advance_common sound least able found
    rcases sound.common current found with ⟨enabled, since, -⟩
    exact ⟨enabled, since.trans_le moves.2.1, moves.2.2⟩
  · intro name moved found
    simp only [QuotaReset.advanceCursors, Table.lookup_map, Option.map_eq_some_iff] at found
    rcases found with ⟨current, found, rfl⟩
    by_cases named : name = ""
    · subst named
      rw [advance_nameless found]
      exact sound.users "" current found
    · have moves := advance_user sound least able named found
      rcases sound.userRule named found with ⟨policy, known, custom, isRule, since, -⟩
      exact ⟨policy, known, custom, since.trans_le moves.2.1, moves.2.2 _ isRule⟩

theorem Cursors.After.advanceCursors (sound : record.Sound environment matching)
    (least : LeastMatching environment matching)
    (able : advanceable environment record (dueClaims record now) now = true) :
    (advanceCursors environment record (dueClaims record now) now).After now := by
  constructor
  · intro moved found
    simp only [QuotaReset.advanceCursors, Option.map_eq_some_iff] at found
    rcases found with ⟨current, found, rfl⟩
    exact (advance_common sound least able found).1
  · intro name moved named found
    simp only [QuotaReset.advanceCursors, Table.lookup_map, Option.map_eq_some_iff] at found
    rcases found with ⟨current, found, rfl⟩
    exact (advance_user sound least able named found).1

theorem selectNames_spec (found : selectNames environment record claims now names = .ok selected) :
    selected.Sublist names ∧
      ∀ name ∈ selected, selects environment record claims now name = .ok true := by
  induction names generalizing selected with
  | nil =>
      cases found
      exact ⟨.slnil, by simp⟩
  | cons name names ih =>
      simp only [selectNames] at found
      split at found
      · cases found
      · rename_i chosen isChosen
        split at found
        · cases found
        · rename_i rest others
          cases found
          rcases ih others with ⟨sublist, all⟩
          cases chosen with
          | true =>
              refine ⟨sublist.cons_cons name, ?_⟩
              intro other mem
              rcases List.mem_cons.mp mem with rfl | mem
              · exact isChosen
              · exact all other mem
          | false => exact ⟨sublist.cons name, all⟩

/-- What a reservation does. -/
theorem reserve_cases (reserved : reserve environment record names id now = .ok reservation) :
    reservation.claims = dueClaims record now ∧
      advanceable environment record (dueClaims record now) now = true ∧
      selectNames environment record (dueClaims record now) now names =
        .ok reservation.selected ∧
      ∃ last, reservation.record =
        { record with
          cursors := advanceCursors environment record (dueClaims record now) now
          last := last } := by
  simp only [reserve] at reserved
  split at reserved
  · cases reserved
  · rename_i able
    split at reserved
    · cases reserved
    · split at reserved
      · cases reserved
      · rename_i selected chosen
        cases reserved
        exact ⟨rfl, by simpa using able, chosen, _, rfl⟩

/-- The users of a reservation are among those it is shown. -/
theorem reserve_sublist (reserved : reserve environment record names id now = .ok reservation) :
    reservation.selected.Sublist names :=
  (selectNames_spec (reserve_cases reserved).2.2.1).1

/-- The reservation as the manager calls it: users whose selection cannot be saved are not reset. -/
def tickReservation (environment : Environment) (record : ScheduleRecord) (now : ℤ)
    (result : SaveResult) (names : List String) (id : String) : Except Failure (List String) :=
  match reserve environment record names id now with
  | .error failure => .error failure
  | .ok reservation => if result = .ok then .ok reservation.selected else .error .other

/-- A tick runs with the users that its reservation gives to the manager. -/
theorem reserveTick_tick (system : ScheduleSystem) (names : List String) (id : String)
    (result : SaveResult) :
    (system.reserveTick environment names id result).tick =
      match tickReservation environment system.scheduler.record system.time result names id with
      | .error _ => .idle
      | .ok selected =>
          if selected = [] then .idle
          else .running id (dueClaims system.scheduler.record system.time) selected := by
  unfold ScheduleSystem.reserveTick tickReservation
  cases reserved : reserve environment system.scheduler.record names id system.time with
  | error failure => rfl
  | ok reservation =>
      have claims := (reserve_cases reserved).1
      dsimp only
      split
      · rw [← claims]
      · rfl

/-- The manager may run the reservation of a tick. -/
theorem allowed_tickReservation (environment : Environment) (record : ScheduleRecord)
    (time : ℤ) (result : SaveResult) (id : ℕ) (answers : Answers) (done : Bool) (now : ℤ) :
    Action.Allowed
      (.reserve id answers done (tickReservation environment record time result) now) := by
  intro names token selected isSelected
  unfold tickReservation at isSelected
  cases reserved : reserve environment record names token time with
  | error failure =>
      rw [reserved] at isSelected
      cases isSelected
  | ok reservation =>
      rw [reserved] at isSelected
      dsimp only at isSelected
      split at isSelected
      · cases isSelected
        exact reserve_sublist reserved
      · cases isSelected

/-- A slot of a user's effective rule which a reservation at some time can serve: it is due,
and comes after every change of the rule that the user is subject to. -/
structure ScheduleRecord.Serves (environment : Environment)
    (matching : String → Location → ℤ → Prop) (record : ScheduleRecord) (name : String)
    (now slot : ℤ) : Prop where
  isSlot : ∃ rule, record.effectiveRule name = some rule ∧
    rule.IsSlot environment matching record.global.timezone slot
  due : slot ≤ now
  edited : (record.policy name).since ≤ slot
  active : record.activeSince name < slot

theorem eligible_spec (least : LeastMatching environment matching) {rule : Rule} {since slot : ℤ}
    (isSlot : rule.IsSlot environment matching record.global.timezone current.next)
    (found : eligible environment record (some rule) current since = .ok slot) :
    since ≤ slot ∧ current.next ≤ slot ∧
      rule.IsSlot environment matching record.global.timezone slot := by
  unfold eligible at found
  split at found
  · rename_i early
    rcases Rule.next_spec least found with ⟨later, isNext⟩
    exact ⟨later.le, (early.trans later).le, isNext⟩
  · rename_i late
    cases found
    exact ⟨not_lt.mp late, le_rfl, isSlot⟩

/-- A selected user has a slot to be served, after everything that the checkpoints are after. -/
theorem selects_serves (sound : record.Sound environment matching)
    (least : LeastMatching environment matching)
    (chosen : selects environment record (dueClaims record now) now name = .ok true) :
    ∃ slot, record.Serves environment matching name now slot ∧
      ∀ time, record.cursors.After time → time < slot := by
  simp only [selects] at chosen
  split at chosen
  · cases chosen
  · rename_i included
    split at chosen
    · cases chosen
    · rename_i claim claimed
      split at chosen
      · cases chosen
      · rename_i slot isEligible
        have due : slot ≤ now := by simpa using chosen
        by_cases custom : (record.policy name).mode = .custom
        · simp only [custom, decide_true, if_true] at claimed isEligible
          simp only [dueClaims, Table.lookup_filter, Option.filter_eq_some_iff,
            Bool.and_eq_true] at claimed
          have named : name ≠ "" := by
            rintro rfl
            rw [userRule_empty] at claimed
            cases claimed.2.2
          rcases sound.userRule named claimed.1 with
            ⟨policy, known, isCustom, isRule, since, isSlot⟩
          have same : record.policy name = policy := by simp [ScheduleRecord.policy, known]
          rw [isRule, same] at isEligible
          rcases eligible_spec least isSlot isEligible with ⟨edited, later, isNext⟩
          refine ⟨slot, ⟨⟨policy.rule, ?_, isNext⟩, due, ?_, ?_⟩, ?_⟩
          · simp [ScheduleRecord.effectiveRule, isCustom, same]
          · rwa [same]
          · simp only [ScheduleRecord.activeSince, isCustom, if_true, same]
            exact since.trans_le later
          · intro time past
            exact (past.users name claim named claimed.1).trans_le later
        · simp only [custom, decide_false, if_false, Bool.false_eq_true] at claimed isEligible
          simp only [dueClaims, Option.filter_eq_some_iff] at claimed
          rcases sound.common claim claimed.1 with ⟨-, since, isSlot⟩
          rw [sound.commonRule claimed.1] at isEligible
          rcases eligible_spec least isSlot isEligible with ⟨edited, later, isNext⟩
          refine ⟨slot, ⟨⟨record.global.rule, ?_, isNext⟩, due, edited, ?_⟩, ?_⟩
          · unfold ScheduleRecord.effectiveRule
            split
            · exact absurd ‹_› included
            · exact absurd ‹_› custom
            · exact sound.commonRule claimed.1
          · simp only [ScheduleRecord.activeSince, custom, if_false]
            exact since.trans_le later
          · intro time past
            exact (past.common claim claimed.1).trans_le later

end Reservations

section Runs

variable (environment : Environment) (matching : String → Location → ℤ → Prop)

/-- A record whose checkpoints are sound and not behind any dispatch. -/
structure ScheduleRecord.Keeps (record : ScheduleRecord) (dispatches : List Dispatch) : Prop where
  sound : record.Sound environment matching
  past : ∀ dispatch ∈ dispatches, record.cursors.After dispatch.time

/-- Every user of a dispatch is in it once, and has a slot to be served. -/
structure Dispatch.Served (dispatch : Dispatch) : Prop where
  nodup : dispatch.users.Nodup
  serves : ∀ name ∈ dispatch.users, ∃ slot,
    dispatch.record.Serves environment matching name dispatch.time slot

/-- A user of both dispatches has a slot between them. -/
def Dispatch.Apart (first later : Dispatch) : Prop :=
  ∀ name ∈ first.users, name ∈ later.users →
    ∃ slot, first.time < slot ∧ later.record.Serves environment matching name later.time slot

def Dispatch.requests (dispatch : Dispatch) : List (String × String) :=
  dispatch.users.map fun name => (dispatch.id, name)

/-- The requests that a run has yet to send. -/
def TickPhase.waiting : TickPhase → List (String × String)
  | .running id _ names => names.map fun name => (id, name)
  | _ => []

/-- A request belongs to a dispatch that has been saved. -/
def ResetRequest.Reserved (dispatches : List Dispatch) (request : ResetRequest) : Prop :=
  ∃ dispatch ∈ dispatches, (request.id, request.name) ∈ dispatch.requests ∧
    dispatch.time ≤ request.time

structure ScheduleSystem.Sound (system : ScheduleSystem) : Prop where
  memory : system.scheduler.record.Keeps environment matching system.dispatches
  setting : ∀ record, system.setting = some record →
    record.Keeps environment matching system.dispatches
  saved : system.dispatches ≠ [] → system.setting.isSome = true
  past : ∀ dispatch ∈ system.dispatches, dispatch.time ≤ system.time
  served : ∀ dispatch ∈ system.dispatches, dispatch.Served environment matching
  apart : system.dispatches.Pairwise (Dispatch.Apart environment matching)
  sent : (system.sent.map (fun request => (request.id, request.name)) ++
    system.tick.waiting).Sublist (system.dispatches.flatMap Dispatch.requests)
  reserved : ∀ request ∈ system.sent, request.Reserved system.dispatches

variable {environment matching} {system later : ScheduleSystem} {record : ScheduleRecord}
  {dispatches : List Dispatch} {now : ℤ}

theorem Cursors.After.mono {cursors : Cursors} {time : ℤ} (past : cursors.After now)
    (behind : time ≤ now) : cursors.After time where
  common := fun current found => behind.trans_lt (past.common current found)
  users := fun name current named found => behind.trans_lt (past.users name current named found)

/-- A record without checkpoints keeps everything. -/
theorem keeps_default : (defaultRecord environment now).Keeps environment matching dispatches where
  sound :=
    { common := by
        intro current found
        cases found
      users := by
        intro name current found
        simp [defaultRecord] at found }
  past := by
    intro dispatch _
    constructor
    · intro current found
      cases found
    · intro name current _ found
      simp [defaultRecord] at found

namespace ScheduleSystem

/-- A step that sends nothing and reserves nothing. -/
theorem Sound.frame (sound : system.Sound environment matching)
    (sameDispatches : later.dispatches = system.dispatches) (sameSent : later.sent = system.sent)
    (memory : later.scheduler.record.Keeps environment matching system.dispatches)
    (setting : ∀ record, later.setting = some record →
      record.Keeps environment matching system.dispatches)
    (saved : system.setting.isSome = true → later.setting.isSome = true)
    (forward : system.time ≤ later.time)
    (tick : later.tick.waiting = system.tick.waiting ∨ later.tick.waiting = []) :
    later.Sound environment matching := by
  rw [← sameDispatches] at memory setting
  refine ⟨memory, setting, ?_, ?_, ?_, ?_, ?_, ?_⟩
  · rw [sameDispatches]
    exact fun some => saved (sound.saved some)
  · rw [sameDispatches]
    exact fun dispatch mem => (sound.past dispatch mem).trans forward
  · rw [sameDispatches]
    exact sound.served
  · rw [sameDispatches]
    exact sound.apart
  · rw [sameDispatches, sameSent]
    rcases tick with same | none
    · rw [same]
      exact sound.sent
    · rw [none, List.append_nil]
      exact (List.sublist_append_left _ _).trans sound.sent
  · rw [sameDispatches, sameSent]
    exact sound.reserved

theorem Sound.setTime (sound : system.Sound environment matching) (forward : system.time ≤ now) :
    ScheduleSystem.Sound environment matching { system with time := now } :=
  sound.frame rfl rfl sound.memory sound.setting id forward (.inl rfl)

theorem Sound.setTick (sound : system.Sound environment matching) {tick : TickPhase}
    (waiting : tick.waiting = []) :
    ScheduleSystem.Sound environment matching { system with tick := tick } :=
  sound.frame rfl rfl sound.memory sound.setting id le_rfl (.inr waiting)

theorem Sound.save (sound : system.Sound environment matching)
    (keeps : record.Keeps environment matching system.dispatches) (result : SaveResult) :
    (system.save record result).Sound environment matching := by
  have published : ∀ other, some record = some other →
      other.Keeps environment matching system.dispatches := by
    rintro other ⟨⟩
    exact keeps
  cases result with
  | ok => exact sound.frame rfl rfl keeps published (fun _ => rfl) le_rfl (.inl rfl)
  | before => exact sound
  | after => exact sound.frame rfl rfl sound.memory published (fun _ => rfl) le_rfl (.inl rfl)

theorem Sound.edit (sound : system.Sound environment matching) {edited : Option ScheduleRecord}
    (keeps : ∀ record, edited = some record →
      record.Keeps environment matching system.dispatches) (result : SaveResult) :
    (system.edit edited result).Sound environment matching := by
  cases edited with
  | none => exact sound
  | some record => exact sound.save (keeps record rfl) result

theorem Sound.finish (sound : system.Sound environment matching)
    (least : LeastMatching environment matching) (run : ScheduledRun) (claims : Cursors)
    (result : SaveResult) :
    (system.finish environment run claims result).Sound environment matching := by
  have keeps : (finishRecord environment system.scheduler.record run claims system.time).Keeps
      environment matching system.dispatches :=
    { sound := sound.memory.sound.finishRecord least run
      past := fun dispatch mem => (sound.memory.past dispatch mem).finishRecord run }
  have saved := sound.save keeps result
  exact saved.frame rfl rfl saved.memory saved.setting id le_rfl (.inl rfl)

/-- A tick goes on only if nothing is pending and something is due. -/
theorem Sound.execute (sound : system.Sound environment matching) (durable : Bool) (time : ℤ) :
    ScheduleSystem.Sound environment matching
      (if system.scheduler.pending.isSome || !durable then system
      else if anyDue system.scheduler.record.cursors time then { system with tick := .executing }
      else system) := by
  split
  · exact sound
  · split
    · exact sound.setTick rfl
    · exact sound

theorem Sound.beginTick (sound : system.Sound environment matching)
    (least : LeastMatching environment matching) (durable : Bool) (result : SaveResult) :
    (system.beginTick environment durable result).Sound environment matching := by
  unfold ScheduleSystem.beginTick
  split
  · exact sound
  · cases system.scheduler.pending with
    | none => exact sound.execute durable system.time
    | some run => exact (sound.finish least run.1 run.2 result).execute durable system.time

theorem Sound.reserveTick (sound : system.Sound environment matching)
    (least : LeastMatching environment matching) {names : List String} (distinct : names.Nodup)
    (executing : system.tick.waiting = []) (id : String) (result : SaveResult) :
    (system.reserveTick environment names id result).Sound environment matching := by
  unfold ScheduleSystem.reserveTick
  split
  · exact sound.setTick rfl
  · rename_i reservation reserved
    rcases reserve_cases reserved with ⟨-, able, chosen, last, recordEq⟩
    rcases selectNames_spec chosen with ⟨sublist, all⟩
    have after : reservation.record.cursors.After system.time := by
      rw [recordEq]
      exact Cursors.After.advanceCursors sound.memory.sound least able
    have recordSound : reservation.record.Sound environment matching := by
      rw [recordEq]
      exact sound.memory.sound.advanceCursors least able last
    have keeps : reservation.record.Keeps environment matching system.dispatches :=
      { sound := recordSound
        past := fun dispatch mem => after.mono (sound.past dispatch mem) }
    split
    · rename_i isOk
      subst isOk
      set dispatch : Dispatch :=
        { id := id, time := system.time, users := reservation.selected
          record := system.scheduler.record } with dispatchEq
      have keepsAll : reservation.record.Keeps environment matching
          (system.dispatches ++ [dispatch]) := by
        refine ⟨recordSound, ?_⟩
        intro other mem
        rcases List.mem_append.mp mem with mem | mem
        · exact keeps.past other mem
        · rw [List.mem_singleton.mp mem]
          exact after
      have serves : ∀ name ∈ dispatch.users, ∃ slot,
          dispatch.record.Serves environment matching name dispatch.time slot ∧
            ∀ time, dispatch.record.cursors.After time → time < slot := by
        intro name mem
        exact selects_serves sound.memory.sound least (all name mem)
      refine ⟨keepsAll, ?_, fun _ => rfl, ?_, ?_, ?_, ?_, ?_⟩
      · rintro record ⟨⟩
        exact keepsAll
      · intro other mem
        rcases List.mem_append.mp mem with mem | mem
        · exact sound.past other mem
        · rw [List.mem_singleton.mp mem]
          exact le_rfl
      · intro other mem
        rcases List.mem_append.mp mem with mem | mem
        · exact sound.served other mem
        · rw [List.mem_singleton.mp mem]
          refine ⟨distinct.sublist sublist, ?_⟩
          intro name isUser
          rcases serves name isUser with ⟨slot, served, -⟩
          exact ⟨slot, served⟩
      · refine List.pairwise_append.mpr ⟨sound.apart, List.pairwise_singleton _ _, ?_⟩
        intro first mem later isLast name _ isUser
        rw [List.mem_singleton.mp isLast] at isUser ⊢
        rcases serves name isUser with ⟨slot, served, follows⟩
        exact ⟨slot, follows first.time (sound.memory.past first mem), served⟩
      · have sent := sound.sent
        rw [executing, List.append_nil] at sent
        have waiting : (if reservation.selected = [] then TickPhase.idle
            else .running id reservation.claims reservation.selected).waiting =
            dispatch.requests := by
          by_cases none : reservation.selected = []
          · simp [none, TickPhase.waiting, Dispatch.requests, dispatchEq]
          · simp [none, TickPhase.waiting, Dispatch.requests, dispatchEq]
        simp only [ScheduleSystem.save, waiting, List.flatMap_append, List.flatMap_singleton]
        exact sent.append (.refl _)
      · intro request mem
        rcases sound.reserved request mem with ⟨dispatch, isDispatch, isRequest, order⟩
        exact ⟨dispatch, List.mem_append_left _ isDispatch, isRequest, order⟩
    · exact (sound.save keeps result).setTick rfl

/-- A request is sent: it is the next one of the latest reservation. -/
theorem Sound.request (sound : system.Sound environment matching) {id name : String}
    {claims : Cursors} {names : List String}
    (running : system.tick = .running id claims (name :: names)) :
    ScheduleSystem.Sound environment matching
      { system with
        tick := .running id claims names
        sent := system.sent ++ [{ id := id, name := name, time := system.time }] } := by
  have sent := sound.sent
  rw [running] at sent
  have pending : (id, name) ∈ system.dispatches.flatMap Dispatch.requests := by
    apply sent.subset
    simp [TickPhase.waiting]
  refine ⟨sound.memory, sound.setting, sound.saved, sound.past, sound.served, sound.apart,
    ?_, ?_⟩
  · simpa [TickPhase.waiting] using sent
  · intro request mem
    rcases List.mem_append.mp mem with mem | mem
    · exact sound.reserved request mem
    · rw [List.mem_singleton.mp mem]
      rcases List.mem_flatMap.mp pending with ⟨dispatch, isDispatch, isRequest⟩
      exact ⟨dispatch, isDispatch, isRequest, sound.past dispatch isDispatch⟩

theorem Sound.restart (sound : system.Sound environment matching) (readable : Bool) :
    ScheduleSystem.Sound environment matching
      { system with
        scheduler := newScheduler environment system.setting readable now, tick := .idle } := by
  refine sound.frame rfl rfl ?_ sound.setting id le_rfl (.inr rfl)
  dsimp only
  cases isSetting : system.setting with
  | none => exact keeps_default
  | some record =>
      have keeps := sound.setting record isSetting
      exact ⟨⟨keeps.sound.unmarshalRecord.common, keeps.sound.users⟩, keeps.past⟩

/-- Every section keeps the scheduler sound, if the clock has not gone back. -/
theorem Sound.step (sound : system.Sound environment matching)
    (least : LeastMatching environment matching) (action : ScheduleAction)
    (forward : system.time ≤ now) :
    (scheduleStep environment system (now, action)).Sound environment matching := by
  have moved := sound.setTime forward
  have behind : ∀ dispatch ∈ system.dispatches, dispatch.time ≤ now := fun dispatch mem =>
    (sound.past dispatch mem).trans forward
  unfold scheduleStep
  cases action with
  | saveGlobal expected schedule durable result =>
      refine moved.edit ?_ result
      intro record saved
      exact ⟨sound.memory.sound.saveGlobal least saved, fun dispatch mem =>
        (sound.memory.past dispatch mem).saveGlobal least (behind dispatch mem) saved⟩
  | saveUser expected name policy durable result =>
      refine moved.edit ?_ result
      intro record saved
      exact ⟨sound.memory.sound.saveUser least saved, fun dispatch mem =>
        (sound.memory.past dispatch mem).saveUser least (behind dispatch mem) saved⟩
  | forgetUser name result =>
      refine moved.edit ?_ result
      intro record saved
      exact ⟨sound.memory.sound.forgetUser saved, fun dispatch mem =>
        (sound.memory.past dispatch mem).forgetUser saved⟩
  | tick durable result =>
      dsimp only
      split
      · exact moved.beginTick least durable result
      · exact moved
  | reserve answers id result =>
      dsimp only
      split
      · rename_i executing
        split
        · exact moved.setTick rfl
        · have distinct : (snapshot answers).1.Nodup :=
            (snapshot_pairwise answers).imp fun less => ne_of_lt less
          refine moved.reserveTick least distinct ?_ id result
          dsimp only
          rw [executing]
          rfl
      · exact moved
  | abandon =>
      dsimp only
      split
      · exact moved.setTick rfl
      · exact moved
  | request =>
      dsimp only
      split
      · rename_i running
        exact moved.request running
      · exact moved
  | finish run result =>
      dsimp only
      split
      · exact (moved.finish least run _ result).setTick rfl
      · exact moved
  | restart readable => exact moved.restart readable

theorem sound_initialSchedule : (initialSchedule environment now).Sound environment matching where
  memory := keeps_default
  setting := fun record found => by cases found
  saved := fun some => absurd rfl some
  past := by simp [initialSchedule]
  served := by simp [initialSchedule]
  apart := .nil
  sent := .slnil
  reserved := by simp [initialSchedule]

theorem time_edit (edited : Option ScheduleRecord) (result : SaveResult) :
    (system.edit edited result).time = system.time := by
  cases edited with
  | none => rfl
  | some record => cases result <;> rfl

theorem time_finish (run : ScheduledRun) (claims : Cursors) (result : SaveResult) :
    (system.finish environment run claims result).time = system.time := by
  cases result <;> rfl

theorem time_execute (durable : Bool) (time : ℤ) :
    (if system.scheduler.pending.isSome || !durable then system
      else if anyDue system.scheduler.record.cursors time then { system with tick := .executing }
      else system).time = system.time := by
  split_ifs <;> rfl

theorem time_beginTick (durable : Bool) (result : SaveResult) :
    (system.beginTick environment durable result).time = system.time := by
  unfold ScheduleSystem.beginTick
  split
  · rfl
  · cases system.scheduler.pending with
    | none => exact time_execute durable system.time
    | some run =>
        exact (time_execute durable system.time).trans (time_finish run.1 run.2 result)

theorem time_reserveTick (names : List String) (id : String) (result : SaveResult) :
    (system.reserveTick environment names id result).time = system.time := by
  unfold ScheduleSystem.reserveTick
  split
  · rfl
  · cases result <;> rfl

/-- The clock shows the time of the last section. -/
theorem time_step (now : ℤ) (action : ScheduleAction) :
    (scheduleStep environment system (now, action)).time = now := by
  unfold scheduleStep
  cases action with
  | saveGlobal expected schedule durable result => exact time_edit _ _
  | saveUser expected name policy durable result => exact time_edit _ _
  | forgetUser name result => exact time_edit _ _
  | tick durable result =>
      dsimp only
      split
      · exact time_beginTick _ _
      · rfl
  | reserve answers id result =>
      dsimp only
      split
      · split
        · rfl
        · exact time_reserveTick _ _ _
      · rfl
  | abandon =>
      dsimp only
      split <;> rfl
  | request =>
      dsimp only
      split <;> rfl
  | finish run result =>
      dsimp only
      split
      · exact time_finish _ _ _
      · rfl
  | restart readable => rfl

/-- A clock that does not go back. -/
theorem permitted_of_clock {calls : List (ℤ × ScheduleAction)}
    (clock : (system.time :: calls.map Prod.fst).Pairwise (· ≤ ·)) :
    Permitted (scheduleStep environment) (fun system call => system.time ≤ call.1) system calls := by
  induction calls generalizing system with
  | nil => trivial
  | cons call calls ih =>
      rw [List.map_cons] at clock
      rcases List.pairwise_cons.mp clock with ⟨first, rest⟩
      refine ⟨first call.1 List.mem_cons_self, ih ?_⟩
      rwa [time_step]

end ScheduleSystem

/-- Between two dispatches of a user there is a slot of the rule that the later one follows.
No dispatch selects a user without a rule, or before a slot which comes after all changes
of the rule.  Every request belongs to a saved dispatch, and is sent once for it; the
setting keeps all its checkpoints after every dispatch. -/
theorem scheduled_reset_once_per_slot (environment : Environment)
    (matching : String → Location → ℤ → Prop) (least : LeastMatching environment matching)
    (started : ℤ) (calls : List (ℤ × ScheduleAction))
    (clock : (started :: calls.map Prod.fst).Pairwise (· ≤ ·)) :
    let system := after (scheduleStep environment) (initialSchedule environment started) calls
    system.dispatches.Pairwise (Dispatch.Apart environment matching) ∧
    (∀ dispatch ∈ system.dispatches, dispatch.Served environment matching) ∧
    (system.sent.map fun request => (request.id, request.name)).Sublist
      (system.dispatches.flatMap Dispatch.requests) ∧
    (∀ request ∈ system.sent, request.Reserved system.dispatches) ∧
    (system.dispatches ≠ [] → ∃ record, system.setting = some record ∧
      ∀ dispatch ∈ system.dispatches, record.cursors.After dispatch.time) := by
  have permitted := @ScheduleSystem.permitted_of_clock environment
    (initialSchedule environment started) calls clock
  have sound := @invariant_after _ _ _ _ (ScheduleSystem.Sound environment matching)
    (fun _ call sound forward => sound.step least call.2 forward) _
    ScheduleSystem.sound_initialSchedule _ permitted
  refine ⟨sound.apart, sound.served, ?_, sound.reserved, ?_⟩
  · exact (List.sublist_append_left _ _).trans sound.sent
  · intro some
    rcases Option.isSome_iff_exists.mp (sound.saved some) with ⟨record, found⟩
    exact ⟨record, found, (sound.setting record found).past⟩

end Runs

section Samples

def utc : Location where
  offset := fun _ => 0
  date := fun wall => wall * second

def minutely : String := "* * * * *"

/-- A panel in UTC, with the cron expression of every minute. -/
def sampleEnvironment : Environment where
  loadLocation := fun zone => if zone = "UTC" then some utc else none
  serverZone := "UTC"
  localZone := utc
  isValid := fun expr => expr == minutely
  nextTickAfter := fun expr _ cursor =>
    if expr = minutely then some ((cursor / (60 * second) + 1) * (60 * second)) else none

def sampleMatching (expr : String) (_ : Location) (instant : ℤ) : Prop :=
  expr = minutely ∧ instant % (60 * second) = 0

theorem sampleEnvironment_least : LeastMatching sampleEnvironment sampleMatching := by
  intro expr loc cursor next found
  simp only [sampleEnvironment] at found
  split at found
  · rename_i isMinutely
    simp only [Option.some.injEq, second] at found
    refine ⟨⟨?_, isMinutely, ?_⟩, ?_⟩
    · omega
    · simp only [second]
      omega
    · rintro instant ⟨later, -, whole⟩
      simp only [second] at whole
      omega
  · cases found

/-- 2026-01-01 in UTC. -/
def sampleStart : ℤ := 20454 * 86400 * second

def sampleDaily : Rule where
  kind := "interval"
  days := 1
  start := "2026-01-01"
  time := "00:00"
  cron := ""

def sampleMinutely : Rule where
  kind := "cron"
  days := 0
  start := ""
  time := ""
  cron := minutely

def sampleGlobal (rule : Rule) : GlobalSchedule where
  enabled := true
  timezone := "server"
  rule := rule

def sampleFinished : ScheduledRun where
  id := "first"
  state := "completed"
  started := sampleStart + 61 * second
  finished := some (sampleStart + 62 * second)
  total := 1
  confirmed := some 1
  unknown := some 0
  rejected := some 0
  remaining := some 0
  reason := ""

/-- Two reservations of a rule of every minute, the second after a crash. -/
def sampleTicks : List (ℤ × ScheduleAction) :=
  [(sampleStart, .saveGlobal "1" (sampleGlobal sampleMinutely) true .ok),
    (sampleStart + 61 * second, .tick true .ok),
    (sampleStart + 61 * second, .reserve sampleAnswers "first" .ok),
    (sampleStart + 62 * second, .request),
    (sampleStart + 62 * second, .finish sampleFinished .after),
    (sampleStart + 70 * second, .restart true),
    (sampleStart + 125 * second, .tick true .ok),
    (sampleStart + 125 * second, .reserve sampleAnswers "second" .ok),
    (sampleStart + 126 * second, .request)]

example : ((after (scheduleStep sampleEnvironment) (initialSchedule sampleEnvironment sampleStart)
    sampleTicks).sent.map fun request => (request.id, request.name)) =
      [("first", "ann"), ("second", "ann")] := by decide +kernel

theorem sampleTicks_once_per_slot :
    (after (scheduleStep sampleEnvironment) (initialSchedule sampleEnvironment sampleStart)
      sampleTicks).dispatches.Pairwise (Dispatch.Apart sampleEnvironment sampleMatching) :=
  (scheduled_reset_once_per_slot sampleEnvironment sampleMatching sampleEnvironment_least
    sampleStart sampleTicks (by decide)).1

theorem wallTime_utc {day hour minute slot : ℤ} (found : wallTime utc day hour minute = some slot) :
    slot = (day * 86400 + hour * 3600 + minute * 60) * second := by
  simp only [wallTime] at found
  split at found
  · simp only [earlierFold, utc, sub_self, zero_mul, add_zero, lt_self_iff_false, false_and,
      if_false, Option.some.injEq] at found
    exact found.symm
  · cases found

/-- An excluded user is forgotten when a slot of the common rule is already due. -/
def sampleForgotten : List (ℤ × ScheduleAction) :=
  [(sampleStart, .saveUser "1" "ann" { mode := .off, rule := zeroRule, since := 0 } true .ok),
    (sampleStart, .saveGlobal "2" (sampleGlobal sampleDaily) true .ok),
    (sampleStart + 86410 * second, .forgetUser "ann" .ok),
    (sampleStart + 86420 * second, .tick true .ok),
    (sampleStart + 86420 * second, .reserve sampleAnswers "first" .ok)]

/-- A user is excluded between a reservation and its request. -/
def sampleExcluded : List (ℤ × ScheduleAction) :=
  [(sampleStart, .saveGlobal "1" (sampleGlobal sampleDaily) true .ok),
    (sampleStart + 86410 * second, .tick true .ok),
    (sampleStart + 86410 * second, .reserve sampleAnswers "first" .ok),
    (sampleStart + 86411 * second,
      .saveUser "2" "ann" { mode := .off, rule := zeroRule, since := 0 } true .ok),
    (sampleStart + 86412 * second, .request)]

/-- A forgotten user is reset although no slot has come since the common rule applies to
it, and a request goes out for a user that is excluded by then. -/
theorem sampleForgotten_before_slot :
    let run := fun calls => after (scheduleStep sampleEnvironment)
      (initialSchedule sampleEnvironment sampleStart) calls
    (run (sampleForgotten.take 2)).scheduler.record.effectiveRule "ann" = none ∧
    (run (sampleForgotten.take 3)).time = sampleStart + 86410 * second ∧
    (∃ dispatch ∈ (run sampleForgotten).dispatches, "ann" ∈ dispatch.users ∧
      dispatch.record.effectiveRule "ann" = some sampleDaily ∧
      ∀ slot, sampleDaily.IsSlot sampleEnvironment sampleMatching "UTC" slot →
        ¬(sampleStart + 86410 * second < slot ∧ slot ≤ dispatch.time)) ∧
    (run (sampleExcluded.take 4)).scheduler.record.effectiveRule "ann" = none ∧
    ∃ request ∈ (run sampleExcluded).sent, request.name = "ann" ∧
      (run (sampleExcluded.take 4)).time < request.time := by
  intro run
  refine ⟨by decide +kernel, by decide +kernel, ?_, by decide +kernel, ?_⟩
  · have dispatched : (run sampleForgotten).dispatches.map (fun dispatch =>
        (dispatch.time, dispatch.users, dispatch.record.effectiveRule "ann")) =
        [(sampleStart + 86420 * second, ["ann"], some sampleDaily)] := by decide +kernel
    rcases List.map_eq_singleton_iff.mp dispatched with ⟨dispatch, only, shown⟩
    simp only [Prod.mk.injEq] at shown
    rcases shown with ⟨time, users, rule⟩
    refine ⟨dispatch, by simp [only], by simp [users], rule, ?_⟩
    rintro slot ⟨loc, known, isSlot⟩ ⟨later, due⟩
    have isUtc : location sampleEnvironment "UTC" = .ok utc := by
      have short : ¬(128 < "UTC".utf8ByteSize ∨ trimSpace "UTC".toList ≠ "UTC".toList ∨
          "UTC" = "") := by decide +kernel
      have notServer : "UTC" ≠ "server" := by decide
      simp only [location, if_neg notServer, if_neg short]
      rfl
    rw [isUtc] at known
    cases known
    rw [if_neg (by decide +kernel)] at isSlot
    rcases isSlot with ⟨anchor, hour, minute, -, clock, index, found⟩
    have midnight : parseClock sampleDaily.time = some (0, 0) := by decide +kernel
    rw [midnight] at clock
    cases clock
    have slotEq := wallTime_utc found
    rw [time] at due
    simp only [sampleStart, second, sampleDaily] at later due slotEq
    omega
  · have sent : (run sampleExcluded).sent.map (fun request => (request.name, request.time)) =
        [("ann", sampleStart + 86412 * second)] := by decide +kernel
    have excluded : (run (sampleExcluded.take 4)).time = sampleStart + 86411 * second := by
      decide +kernel
    rcases List.map_eq_singleton_iff.mp sent with ⟨request, only, shown⟩
    simp only [Prod.mk.injEq] at shown
    refine ⟨request, by simp [only], shown.1, ?_⟩
    rw [excluded, shown.2]
    decide

end Samples

end TelemtPanel.QuotaReset
