import TelemtPanel.QuotaReset.OncePerSlot

/-!
# Loading saved schedules

The loader checks a record again: its rules against the calendar, and its checkpoints against its
rules.  Whatever the scheduler saves passes the second check.  The first one depends on the time
at which the record is loaded: each rule has to have three more slots.

A record is not read into an empty one but into the default, which fills in the fields of the
common rule that the text leaves out.
-/

namespace TelemtPanel.QuotaReset

open Library

/-- A checkpoint that has been set. -/
structure Checkpoint.IsSet (checkpoint : Checkpoint) : Prop where
  next : checkpoint.next ≠ zeroTime
  generation : checkpoint.generation ≠ 0

namespace ScheduleRecord

/-- The checkpoints are those of the rules that are on. -/
structure WellFormed (record : ScheduleRecord) : Prop where
  revision : record.revision ≠ 0
  enabled : record.cursors.common.isSome = record.global.enabled
  common : ∀ current, record.cursors.common = some current → current.IsSet
  users : ∀ (name : String) policy, record.users[name]? = some policy →
    name ≠ "" ∧ policy.mode ≠ .other ∧
      (policy.mode = .custom → (record.cursors.users[name]?).isSome = true)
  cursors : ∀ (name : String) current, record.cursors.users[name]? = some current →
    current.IsSet ∧ ∃ policy, record.users[name]? = some policy ∧ policy.mode = .custom

/-- All rules have three more slots, whether or not the common one is on. -/
def HasSlots (environment : Environment) (record : ScheduleRecord) (now : ℤ) : Prop :=
  (record.global.rule.preview environment now record.global.timezone).toBool = true ∧
    ∀ (name : String) policy, record.users[name]? = some policy → policy.mode = .custom →
      (policy.rule.preview environment now record.global.timezone).toBool = true

/-- No field of the common rule is left out of the text. -/
def Complete (record : ScheduleRecord) : Prop :=
  record.global.rule.days ≠ 0 ∧ record.global.rule.start ≠ "" ∧ record.global.rule.time ≠ "" ∧
    record.global.rule.cron ≠ ""

/-- What is left of a record when the panel has been restarted. -/
def interrupted (record : ScheduleRecord) : ScheduleRecord :=
  { record with last := record.last.map interrupt }

end ScheduleRecord

section Loading

variable {environment : Environment} {record : ScheduleRecord} {now : ℤ}

theorem ScheduleRecord.WellFormed.commonRule (wellFormed : record.WellFormed) :
    record.commonRule.isSome = record.cursors.common.isSome := by
  rw [wellFormed.enabled, ScheduleRecord.commonRule]
  cases record.global.enabled with
  | true => rfl
  | false => rfl

theorem ScheduleRecord.WellFormed.userRule (wellFormed : record.WellFormed) {name : String}
    {current : Checkpoint} (found : record.cursors.users[name]? = some current) :
    ∃ policy, record.users[name]? = some policy ∧ record.userRule name = some policy.rule := by
  rcases wellFormed.cursors name current found with ⟨-, policy, known, custom⟩
  refine ⟨policy, known, ?_⟩
  simp [ScheduleRecord.userRule, (wellFormed.users name policy known).1, known, custom]

/-- The loader accepts a record whose checkpoints fit its rules exactly if these have slots. -/
theorem readableRecord_iff (wellFormed : record.WellFormed) :
    readableRecord environment record now = true ↔ record.HasSlots environment now := by
  constructor
  · intro accepted
    simp only [readableRecord, Bool.and_eq_true, List.all_eq_true, Bool.or_eq_true] at accepted
    rcases accepted with ⟨⟨⟨⟨⟨-, valid⟩, users⟩, -⟩, -⟩, -⟩
    refine ⟨valid, ?_⟩
    intro name policy known custom
    have checked := (users (name, policy) ((Table.mem_toList _ _ _).mpr known)).2
    rcases checked with other | ⟨valid, -⟩
    · exact absurd custom (of_decide_eq_true other)
    · exact valid
  · rintro ⟨valid, customs⟩
    have users : ∀ entry ∈ record.users.toList, (decide (entry.1 ≠ "") &&
        decide (entry.2.mode ≠ .other) && (decide (entry.2.mode ≠ .custom) ||
          validate environment entry.2.rule record.global.timezone now &&
            (record.cursors.users[entry.1]?).isSome)) = true := by
      rintro ⟨name, policy⟩ mem
      have known := (Table.mem_toList _ _ _).mp mem
      rcases wellFormed.users name policy known with ⟨named, mode, claimed⟩
      simp only [Bool.and_eq_true, Bool.or_eq_true, decide_eq_true_eq]
      refine ⟨⟨named, mode⟩, ?_⟩
      by_cases custom : policy.mode = .custom
      · exact .inr ⟨customs name policy known custom, claimed custom⟩
      · exact .inl custom
    have cursors : ∀ entry ∈ record.cursors.users.toList,
        ((record.userRule entry.1).isSome && decide (entry.2.next ≠ zeroTime) &&
          decide (entry.2.generation ≠ 0)) = true := by
      rintro ⟨name, current⟩ mem
      have found := (Table.mem_toList _ _ _).mp mem
      rcases wellFormed.userRule found with ⟨policy, -, isRule⟩
      have isSet := (wellFormed.cursors name current found).1
      simp [isRule, isSet.next, isSet.generation]
    have common : (record.cursors.common.all fun checkpoint =>
        record.commonRule.isSome && decide (checkpoint.next ≠ zeroTime) &&
          decide (checkpoint.generation ≠ 0)) = true := by
      rw [wellFormed.commonRule]
      cases found : record.cursors.common with
      | none => rfl
      | some current =>
          have isSet := wellFormed.common current found
          simp [isSet.next, isSet.generation]
    have enabled : (!record.global.enabled || record.cursors.common.isSome) = true := by
      rw [wellFormed.enabled]
      exact Bool.not_or_self _
    have rule : validate environment record.global.rule record.global.timezone now = true := valid
    simp only [readableRecord, rule, List.all_eq_true.mpr users, List.all_eq_true.mpr cursors,
      common, enabled, decide_eq_true wellFormed.revision, Bool.and_self]

theorem formatDate_ne_empty (day : ℤ) : formatDate day ≠ "" := by
  intro blank
  have empty := congrArg String.length blank
  simp [formatDate, String.intercalate_cons_cons] at empty

/-- Reading a record changes nothing exactly if nothing has been left out. -/
theorem unmarshalRecord_eq_iff :
    unmarshalRecord environment record now = record ↔ record.Complete := by
  have fields : unmarshalRecord environment record now = record ↔
      unmarshalRule record.global.rule (defaultGlobal environment now).rule =
        record.global.rule := by
    constructor
    · intro same
      exact congrArg (fun record => record.global.rule) same
    · intro same
      simp only [unmarshalRecord, same]
  have started := formatDate_ne_empty
    (environment.localZone.day (environment.localZone.tomorrow now))
  rw [fields]
  simp only [unmarshalRule, defaultGlobal, ScheduleRecord.Complete]
  constructor
  · intro same
    have days := congrArg Rule.days same
    have start := congrArg Rule.start same
    have time := congrArg Rule.time same
    have cron := congrArg Rule.cron same
    simp only at days start time cron
    refine ⟨?_, ?_, ?_, ?_⟩
    · intro missing
      rw [if_pos missing, missing] at days
      cases days
    · intro missing
      rw [if_pos missing, missing] at start
      exact started start
    · intro missing
      rw [if_pos missing, missing] at time
      exact absurd time (by decide)
    · intro missing
      rw [if_pos missing, missing] at cron
      exact absurd cron (by decide)
  · rintro ⟨days, start, time, cron⟩
    simp only [if_neg days, if_neg start, if_neg time, if_neg cron]

/-- A restart reconstructs a record exactly if nothing of it has been left out and all its rules
have slots. -/
theorem newScheduler_eq_iff (wellFormed : record.WellFormed) :
    newScheduler environment (some record) true now =
        { record := record.interrupted, loadErr := false, pending := none } ↔
      record.HasSlots environment now ∧ record.Complete := by
  constructor
  · intro loaded
    have global := congrArg (fun scheduler => scheduler.record.global) loaded
    have same : unmarshalRecord environment record now = record := by
      exact congrArg (fun global => { record with global := global }) global
    have accepted := congrArg Scheduler.loadErr loaded
    simp only [newScheduler, same, Bool.not_true, Bool.false_or, Bool.not_eq_false'] at accepted
    exact ⟨(readableRecord_iff wellFormed).mp accepted, unmarshalRecord_eq_iff.mp same⟩
  · rintro ⟨slots, complete⟩
    have same := (@unmarshalRecord_eq_iff environment record now).mpr complete
    have accepted := (readableRecord_iff wellFormed).mpr slots
    simp only [newScheduler, same, accepted, Bool.not_true, Bool.or_self]
    rfl

end Loading

section Saving

variable {environment : Environment} {record later : ScheduleRecord} {scheduler : Scheduler}
  {rule : Rule} {zone name expected : String} {now after slot : ℤ} {durable : Bool}

theorem lt_cronNext {loc : Location} {expr : String} (tries : ℕ) (cursor : ℤ)
    (found : cronNext environment loc expr after tries cursor = .ok slot) : after < slot := by
  induction tries generalizing cursor with
  | zero => cases found
  | succ tries ih =>
      unfold cronNext at found
      split at found
      · cases found
      · rename_i next _
        split at found
        · cases found
        · split at found
          · exact ih next found
          · split at found
            · rename_i ahead
              cases found
              exact ahead
            · exact ih next found

/-- The next slot is in the future, whatever the cron library does. -/
theorem Rule.lt_next (found : rule.next environment after zone = .ok slot) : after < slot := by
  unfold Rule.next at found
  split at found
  · cases found
  · split at found
    · split at found
      · cases found
      · exact lt_cronNext _ _ found
    · split at found
      · cases found
      · split at found
        · cases found
        · split at found
          · cases found
          · exact (intervalNext_spec _ _ found).1

theorem nextOrZero_ne_zeroTime (clock : zeroTime ≤ now)
    (found : (rule.next environment now zone).toBool = true) :
    nextOrZero environment rule now zone ≠ zeroTime := by
  unfold nextOrZero
  split
  · rename_i next slot
    exact (clock.trans_lt (Rule.lt_next slot)).ne'
  · rename_i message failed
    rw [failed] at found
    cases found

/-- After a change of the time zone every user's own rule has a new checkpoint. -/
theorem isSome_rebaseCursors {generation : ℕ} {policy : UserSchedule}
    (known : record.users[name]? = some policy) (custom : policy.mode = .custom) :
    ((rebaseCursors environment record zone now generation)[name]?).isSome = true := by
  have walk : ∀ (entries : List (String × UserSchedule)) (cursors : Table String Checkpoint),
      (name, policy) ∈ entries ∨ (cursors[name]?).isSome = true →
      ((entries.foldl
        (fun cursors entry =>
          if entry.2.mode = .custom then
            cursors.insert entry.1
              { next := nextOrZero environment entry.2.rule now zone, generation := generation }
          else cursors) cursors)[name]?).isSome = true := by
    intro entries
    induction entries with
    | nil =>
        intro cursors there
        simpa using there
    | cons entry entries ih =>
        intro cursors there
        apply ih
        rcases there with mem | isSome
        · rcases List.mem_cons.mp mem with rfl | mem
          · right
            simp only [if_pos custom, Table.lookup_insert, if_true, Option.isSome_some]
          · exact .inl mem
        · right
          dsimp only
          split
          · rw [Table.lookup_insert]
            split
            · rfl
            · exact isSome
          · exact isSome
  exact walk _ _ (.inl ((Table.mem_toList _ _ _).mpr known))

namespace ScheduleRecord

theorem wellFormed_defaultRecord : (defaultRecord environment now).WellFormed where
  revision := one_ne_zero
  enabled := rfl
  common := by
    intro current found
    cases found
  users := by
    intro name policy known
    simp [defaultRecord] at known
  cursors := by
    intro name current found
    simp [defaultRecord] at found

theorem WellFormed.saveGlobal (wellFormed : scheduler.record.WellFormed)
    (clock : zeroTime ≤ now) {schedule : GlobalSchedule}
    (saved : saveGlobal environment scheduler expected schedule durable now = some later) :
    later.WellFormed := by
  rcases saveGlobal_cases saved with
    ⟨global, revisionEq, valid, able, globalEq, -, usersEq, commonEq, cursorsEq⟩
  refine ⟨?_, ?_, ?_, ?_, ?_⟩
  · rw [revisionEq]
    exact Nat.succ_ne_zero _
  · rw [commonEq, globalEq]
    by_cases changed : global ≠ scheduler.record.global
    · rw [if_pos changed]
      cases global.enabled with
      | true => rfl
      | false => rfl
    · rw [if_neg changed, not_not.mp changed]
      exact wellFormed.enabled
  · intro current found
    rw [commonEq] at found
    split at found
    · split at found
      · cases found
        exact ⟨nextOrZero_ne_zeroTime clock (next_of_validate valid), Nat.succ_ne_zero _⟩
      · cases found
    · exact wellFormed.common current found
  · intro name policy known
    rw [usersEq] at known
    rw [cursorsEq]
    by_cases moved : scheduler.record.global.timezone ≠ global.timezone
    · rw [if_pos moved] at known ⊢
      rw [Table.lookup_map, Option.map_eq_some_iff] at known
      rcases known with ⟨old, known, rfl⟩
      rcases wellFormed.users name old known with ⟨named, mode, -⟩
      refine ⟨named, mode, ?_⟩
      intro custom
      exact isSome_rebaseCursors known custom
    · rw [if_neg moved] at known ⊢
      exact wellFormed.users name policy known
  · intro name current found
    rw [cursorsEq] at found
    rw [usersEq]
    by_cases moved : scheduler.record.global.timezone ≠ global.timezone
    · rw [if_pos moved] at found ⊢
      rcases rebaseCursors_cases found with ⟨policy, known, custom, rfl⟩ | ⟨kept, others⟩
      · refine ⟨⟨?_, Nat.succ_ne_zero _⟩, rebaseUser policy now, ?_, custom⟩
        · exact nextOrZero_ne_zeroTime clock (rebasable_spec (able moved) known custom)
        · rw [Table.lookup_map, known]
          rfl
      · rcases wellFormed.cursors name current kept with ⟨-, policy, known, custom⟩
        exact absurd custom (others policy known)
    · rw [if_neg moved] at found ⊢
      exact wellFormed.cursors name current found

theorem WellFormed.saveUser (wellFormed : scheduler.record.WellFormed) (clock : zeroTime ≤ now)
    (named : name ≠ "") {policy : UserSchedule}
    (saved : saveUser environment scheduler expected name policy durable now = some later) :
    later.WellFormed := by
  rcases saveUser_cases saved with
    ⟨rule, revisionEq, mode, valid, globalEq, -, usersEq, commonEq, cursorsEq⟩
  refine ⟨?_, ?_, ?_, ?_, ?_⟩
  · rw [revisionEq]
    exact Nat.succ_ne_zero _
  · rw [commonEq, globalEq]
    exact wellFormed.enabled
  · rw [commonEq]
    exact wellFormed.common
  · intro other known isKnown
    rw [usersEq, Table.lookup_insert] at isKnown
    rw [cursorsEq]
    by_cases here : name = other
    · rw [if_pos here] at isKnown
      cases isKnown
      refine ⟨here ▸ named, mode, ?_⟩
      intro custom
      rw [if_pos custom, Table.lookup_insert, if_pos here]
      rfl
    · rw [if_neg here] at isKnown
      rcases wellFormed.users other known isKnown with ⟨otherNamed, otherMode, isClaimed⟩
      refine ⟨otherNamed, otherMode, ?_⟩
      intro custom
      have kept := isClaimed custom
      split
      · rwa [Table.lookup_insert, if_neg here, Table.lookup_erase, if_neg here]
      · rwa [Table.lookup_erase, if_neg here]
  · intro other current found
    rw [cursorsEq] at found
    rw [usersEq, Table.lookup_insert]
    by_cases here : name = other
    · rw [if_pos here]
      split at found
      · rename_i custom
        rw [Table.lookup_insert, if_pos here] at found
        cases found
        exact ⟨⟨nextOrZero_ne_zeroTime clock (next_of_validate (valid custom)),
          Nat.succ_ne_zero _⟩, _, rfl, custom⟩
      · rw [Table.lookup_erase, if_pos here] at found
        cases found
    · rw [if_neg here]
      split at found
      · rw [Table.lookup_insert, if_neg here, Table.lookup_erase, if_neg here] at found
        exact wellFormed.cursors other current found
      · rw [Table.lookup_erase, if_neg here] at found
        exact wellFormed.cursors other current found

theorem WellFormed.forgetUser (wellFormed : scheduler.record.WellFormed)
    (saved : forgetUser scheduler name = some later) : later.WellFormed := by
  rcases forgetUser_cases saved with ⟨revisionEq, globalEq, -, usersEq, commonEq, cursorsEq⟩
  refine ⟨?_, ?_, ?_, ?_, ?_⟩
  · rw [revisionEq]
    exact Nat.succ_ne_zero _
  · rw [commonEq, globalEq]
    exact wellFormed.enabled
  · rw [commonEq]
    exact wellFormed.common
  · intro other known isKnown
    rw [usersEq, Table.lookup_erase] at isKnown
    rw [cursorsEq, Table.lookup_erase]
    split at isKnown
    · cases isKnown
    · rename_i elsewhere
      rw [if_neg elsewhere]
      exact wellFormed.users other known isKnown
  · intro other current found
    rw [cursorsEq, Table.lookup_erase] at found
    rw [usersEq, Table.lookup_erase]
    split at found
    · cases found
    · rename_i elsewhere
      rw [if_neg elsewhere]
      exact wellFormed.cursors other current found

/-- Checkpoints may move, but neither come nor go. -/
theorem WellFormed.moveCursors (wellFormed : record.WellFormed) {cursors : Cursors}
    (common : ∀ moved, cursors.common = some moved → moved.IsSet)
    (commonKept : cursors.common.isSome = record.cursors.common.isSome)
    (users : ∀ (name : String) moved, cursors.users[name]? = some moved → moved.IsSet)
    (usersKept : ∀ name : String,
      (cursors.users[name]?).isSome = (record.cursors.users[name]?).isSome)
    (last : Option ScheduledRun) :
    WellFormed { record with cursors := cursors, last := last } where
  revision := wellFormed.revision
  enabled := commonKept.trans wellFormed.enabled
  common := common
  users := by
    intro name policy known
    rcases wellFormed.users name policy known with ⟨named, mode, isClaimed⟩
    exact ⟨named, mode, fun custom => (usersKept name).trans (isClaimed custom)⟩
  cursors := by
    intro name moved found
    refine ⟨users name moved found, ?_⟩
    have kept := usersKept name
    rw [found] at kept
    rcases Option.isSome_iff_exists.mp kept.symm with ⟨current, isCurrent⟩
    exact (wellFormed.cursors name current isCurrent).2

/-- A checkpoint after a run is one before it, or has moved to a later slot. -/
theorem isSet_settle (clock : zeroTime ≤ now) {isRule : Option Rule} (claim : Option Checkpoint)
    {current : Checkpoint} (isSet : current.IsSet) :
    (settle environment record isRule claim now current).IsSet := by
  rcases settle_cases claim with same | ⟨known, next, -, found, -, moved⟩
  · rwa [same]
  · rw [moved]
    exact ⟨(clock.trans_lt (Rule.lt_next found)).ne', isSet.generation⟩

theorem WellFormed.finishRecord (wellFormed : record.WellFormed) (clock : zeroTime ≤ now)
    (run : ScheduledRun) (claims : Cursors) :
    (finishRecord environment record run claims now).WellFormed := by
  apply wellFormed.moveCursors
  · intro moved found
    rcases Option.map_eq_some_iff.mp found with ⟨current, isCurrent, rfl⟩
    exact isSet_settle clock _ (wellFormed.common current isCurrent)
  · exact Option.isSome_map
  · intro name moved found
    rw [Table.lookup_map] at found
    rcases Option.map_eq_some_iff.mp found with ⟨current, isCurrent, rfl⟩
    exact isSet_settle clock _ (wellFormed.cursors name current isCurrent).1
  · intro name
    rw [Table.lookup_map, Option.isSome_map]

theorem isSet_advance (clock : zeroTime ≤ now) {isRule : Option Rule} {claimed : Bool}
    {current : Checkpoint} (isSet : current.IsSet) (known : isRule = some rule)
    (able : claimed = true →
      (rule.next environment now record.global.timezone).toBool = true) :
    (advance environment record isRule claimed now current).IsSet := by
  subst known
  unfold advance
  split
  · rename_i isClaimed
    exact ⟨nextOrZero_ne_zeroTime clock (able isClaimed), isSet.generation⟩
  · exact isSet

theorem WellFormed.advanceCursors (wellFormed : record.WellFormed) (clock : zeroTime ≤ now)
    (able : advanceable environment record (dueClaims record now) now = true)
    (last : Option ScheduledRun) :
    WellFormed { record with
      cursors := advanceCursors environment record (dueClaims record now) now, last := last } := by
  apply wellFormed.moveCursors
  · intro moved found
    rcases Option.map_eq_some_iff.mp found with ⟨current, isCurrent, rfl⟩
    have isSome := wellFormed.commonRule
    rw [isCurrent] at isSome
    rcases Option.isSome_iff_exists.mp isSome with ⟨rule, isRule⟩
    apply isSet_advance clock (wellFormed.common current isCurrent) isRule
    intro claimed
    exact advanceable_common able claimed isRule
  · exact Option.isSome_map
  · intro name moved found
    simp only [QuotaReset.advanceCursors, Table.lookup_map] at found
    rcases Option.map_eq_some_iff.mp found with ⟨current, isCurrent, rfl⟩
    rcases wellFormed.userRule isCurrent with ⟨policy, -, isRule⟩
    apply isSet_advance clock (wellFormed.cursors name current isCurrent).1 isRule
    intro claimed
    exact advanceable_user able claimed isRule
  · intro name
    simp only [QuotaReset.advanceCursors, Table.lookup_map, Option.isSome_map]

theorem WellFormed.restart (wellFormed : record.WellFormed) :
    (unmarshalRecord environment record now).interrupted.WellFormed where
  revision := wellFormed.revision
  enabled := wellFormed.enabled
  common := wellFormed.common
  users := wellFormed.users
  cursors := wellFormed.cursors

end ScheduleRecord

end Saving

section Runs

/-- An edit is for a user with a name. -/
def ScheduleAction.named : ScheduleAction → Bool
  | .saveUser _ name _ _ _ => name != ""
  | _ => true

namespace ScheduleSystem

/-- The records in memory and in the setting are well formed. -/
structure WellFormed (system : ScheduleSystem) : Prop where
  memory : system.scheduler.record.WellFormed
  setting : ∀ record, system.setting = some record → record.WellFormed

variable {environment : Environment} {system : ScheduleSystem} {record : ScheduleRecord} {now : ℤ}

theorem WellFormed.save (wellFormed : system.WellFormed) (saved : record.WellFormed)
    (result : SaveResult) : (system.save record result).WellFormed := by
  have published : ∀ other, some record = some other → other.WellFormed := by
    rintro other ⟨⟩
    exact saved
  cases result with
  | ok => exact ⟨saved, published⟩
  | before => exact wellFormed
  | after => exact ⟨wellFormed.memory, published⟩

theorem WellFormed.edit (wellFormed : system.WellFormed) {edited : Option ScheduleRecord}
    (saved : ∀ record, edited = some record → record.WellFormed) (result : SaveResult) :
    (system.edit edited result).WellFormed := by
  cases edited with
  | none => exact wellFormed
  | some record => exact wellFormed.save (saved record rfl) result

theorem WellFormed.finish (wellFormed : system.WellFormed) (clock : zeroTime ≤ system.time)
    (run : ScheduledRun) (claims : Cursors) (result : SaveResult) :
    (system.finish environment run claims result).WellFormed := by
  have finished : (finishRecord environment system.scheduler.record run claims
      system.time).WellFormed := wellFormed.memory.finishRecord clock run claims
  have saved := wellFormed.save finished result
  exact ⟨saved.memory, saved.setting⟩

theorem WellFormed.execute (wellFormed : system.WellFormed) (durable : Bool) (time : ℤ) :
    WellFormed
      (if system.scheduler.pending.isSome || !durable then system
      else if anyDue system.scheduler.record.cursors time then { system with tick := .executing }
      else system) := by
  split
  · exact wellFormed
  · split
    · exact ⟨wellFormed.memory, wellFormed.setting⟩
    · exact wellFormed

theorem WellFormed.beginTick (wellFormed : system.WellFormed) (clock : zeroTime ≤ system.time)
    (durable : Bool) (result : SaveResult) :
    (system.beginTick environment durable result).WellFormed := by
  unfold ScheduleSystem.beginTick
  split
  · exact wellFormed
  · cases system.scheduler.pending with
    | none => exact wellFormed.execute durable system.time
    | some run =>
        have finished : (system.finish environment run.1 run.2 result).WellFormed :=
          wellFormed.finish clock run.1 run.2 result
        exact finished.execute durable system.time

theorem WellFormed.reserveTick (wellFormed : system.WellFormed) (clock : zeroTime ≤ system.time)
    (names : List String) (id : String) (result : SaveResult) :
    (system.reserveTick environment names id result).WellFormed := by
  unfold ScheduleSystem.reserveTick
  split
  · exact ⟨wellFormed.memory, wellFormed.setting⟩
  · rename_i reservation reserved
    rcases reserve_cases reserved with ⟨-, able, -, last, recordEq⟩
    have advanced : reservation.record.WellFormed := by
      rw [recordEq]
      exact wellFormed.memory.advanceCursors clock able last
    have saved := wellFormed.save advanced result
    split
    · exact ⟨saved.memory, saved.setting⟩
    · exact ⟨saved.memory, saved.setting⟩

theorem WellFormed.restart (wellFormed : system.WellFormed) (readable : Bool) :
    WellFormed
      { system with
        scheduler := newScheduler environment system.setting readable now, tick := .idle } := by
  refine ⟨?_, wellFormed.setting⟩
  dsimp only
  cases isSetting : system.setting with
  | none => exact ScheduleRecord.wellFormed_defaultRecord
  | some record => exact (wellFormed.setting record isSetting).restart

/-- Every section keeps the records well formed. -/
theorem WellFormed.step (wellFormed : system.WellFormed) (clock : zeroTime ≤ now)
    (action : ScheduleAction) (named : action.named = true) :
    (scheduleStep environment system (now, action)).WellFormed := by
  have moved : WellFormed { system with time := now } := ⟨wellFormed.memory, wellFormed.setting⟩
  unfold scheduleStep
  cases action with
  | saveGlobal expected schedule durable result =>
      refine moved.edit ?_ result
      intro record saved
      exact wellFormed.memory.saveGlobal clock saved
  | saveUser expected name policy durable result =>
      refine moved.edit ?_ result
      intro record saved
      exact wellFormed.memory.saveUser clock (bne_iff_ne.mp named) saved
  | forgetUser name result =>
      refine moved.edit ?_ result
      intro record saved
      exact wellFormed.memory.forgetUser saved
  | tick durable result =>
      dsimp only
      split
      · exact moved.beginTick clock durable result
      · exact moved
  | reserve answers id result =>
      dsimp only
      split
      · split
        · exact ⟨moved.memory, moved.setting⟩
        · exact moved.reserveTick clock _ id result
      · exact moved
  | abandon =>
      dsimp only
      split
      · exact ⟨moved.memory, moved.setting⟩
      · exact moved
  | request =>
      dsimp only
      split
      · exact ⟨moved.memory, moved.setting⟩
      · exact moved
  | finish run result =>
      dsimp only
      split
      · rename_i claims _ _
        have finished := @finish environment _ moved clock run claims result
        exact ⟨finished.memory, finished.setting⟩
      · exact moved
  | restart readable => exact moved.restart readable

end ScheduleSystem

/-- A record saved in some run is reconstructed exactly if each of its rules has three more slots
and nothing of its common rule is left out. -/
theorem saved_schedules_load_iff (environment : Environment) (started : ℤ)
    (calls : List (ℤ × ScheduleAction)) (clock : ∀ call ∈ calls, zeroTime ≤ call.1)
    (named : ∀ call ∈ calls, call.2.named = true) (record : ScheduleRecord)
    (saved : (after (scheduleStep environment) (initialSchedule environment started)
      calls).setting = some record) (now : ℤ) :
    newScheduler environment (some record) true now =
        { record := record.interrupted, loadErr := false, pending := none } ↔
      record.HasSlots environment now ∧ record.Complete := by
  have initially : (initialSchedule environment started).WellFormed := by
    refine ⟨ScheduleRecord.wellFormed_defaultRecord, ?_⟩
    intro record found
    cases found
  have permitted := (@permitted_of_forall _ _ (scheduleStep environment)
    (initialSchedule environment started) calls (fun call => zeroTime ≤ call.1)
    clock).and_of_forall named
  have wellFormed := @invariant_after _ _ _ _ ScheduleSystem.WellFormed
    (fun _ call wellFormed allowed => wellFormed.step allowed.1 call.2 allowed.2) _ initially _
    permitted
  exact newScheduler_eq_iff (wellFormed.setting record saved)

end Runs

section Samples

/-- A schedule for the server, whose time zone is UTC. -/
def sampleEvery (days : ℤ) (cron : String) : GlobalSchedule :=
  sampleGlobal
    { kind := "interval", days := days, start := "2026-01-01", time := "00:00", cron := cron }

def sampleSaved (schedule : GlobalSchedule) : List (ℤ × ScheduleAction) :=
  [(sampleStart - second, .saveGlobal "1" schedule true .ok)]

/-- A weekly rule that has all its fields comes back on the next day. -/
theorem sampleWeekly_loads : ∃ record,
    (after (scheduleStep sampleEnvironment) (initialSchedule sampleEnvironment sampleStart)
      (sampleSaved (sampleEvery 7 "0 0 1 * *"))).setting = some record ∧
    newScheduler sampleEnvironment (some record) true (sampleStart + 86400 * second) =
      { record := record.interrupted, loadErr := false, pending := none } := by
  have shown : ((after (scheduleStep sampleEnvironment)
      (initialSchedule sampleEnvironment sampleStart)
      (sampleSaved (sampleEvery 7 "0 0 1 * *"))).setting.map fun record =>
        (record.global.rule, record.global.timezone, record.users.toList)) =
      some ((sampleEvery 7 "0 0 1 * *").rule, "UTC", []) := by decide +kernel
  rcases Option.map_eq_some_iff.mp shown with ⟨record, saved, fields⟩
  simp only [Prod.mk.injEq] at fields
  rcases fields with ⟨rule, zone, users⟩
  refine ⟨record, saved, ?_⟩
  refine (saved_schedules_load_iff sampleEnvironment sampleStart
    (sampleSaved (sampleEvery 7 "0 0 1 * *")) (by decide) (by decide) record saved _).mpr
    ⟨⟨?_, ?_⟩, ?_⟩
  · rw [rule, zone]
    decide +kernel
  · intro name policy known
    have mem := (Table.mem_toList _ _ _).mpr known
    rw [users] at mem
    cases mem
  · rw [ScheduleRecord.Complete, rule]
    decide

/-- Once a rule of few slots has had its first one its record is refused, and a rule that leaves
out the cron expression comes back with one. -/
theorem sampleRare_refused :
    (∃ record, (after (scheduleStep sampleEnvironment)
        (initialSchedule sampleEnvironment sampleStart)
        (sampleSaved (sampleEvery 1000000 "0 0 1 * *"))).setting = some record ∧
      (newScheduler sampleEnvironment (some record) true sampleStart).loadErr = true) ∧
    ∃ record, (after (scheduleStep sampleEnvironment)
        (initialSchedule sampleEnvironment sampleStart)
        (sampleSaved (sampleEvery 7 ""))).setting = some record ∧
      (newScheduler sampleEnvironment (some record) true sampleStart).record.global.rule ≠
        record.global.rule := by
  constructor
  · have shown : ((after (scheduleStep sampleEnvironment)
        (initialSchedule sampleEnvironment sampleStart)
        (sampleSaved (sampleEvery 1000000 "0 0 1 * *"))).setting.map fun record =>
          (newScheduler sampleEnvironment (some record) true sampleStart).loadErr) =
        some true := by decide +kernel
    rcases Option.map_eq_some_iff.mp shown with ⟨record, saved, refused⟩
    exact ⟨record, saved, refused⟩
  · have shown : ((after (scheduleStep sampleEnvironment)
        (initialSchedule sampleEnvironment sampleStart)
        (sampleSaved (sampleEvery 7 ""))).setting.map fun record =>
          decide ((newScheduler sampleEnvironment (some record) true sampleStart).record.global.rule
            ≠ record.global.rule)) = some true := by decide +kernel
    rcases Option.map_eq_some_iff.mp shown with ⟨record, saved, differ⟩
    exact ⟨record, saved, of_decide_eq_true differ⟩

end Samples

end TelemtPanel.QuotaReset
