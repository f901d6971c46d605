import TelemtPanel.Library.Calendar

/-!
# Calendar rules

A rule is an interval of calendar days or a cron expression.  Its slots are wall clock
times in some time zone.  A time that the clock skips has no slot, and one that it shows
twice has the first.

Instants are nanoseconds since the Unix epoch.  The time zones and the evaluation of
cron expressions are parameters.
-/

namespace TelemtPanel.QuotaReset

open Library.Calendar

/-- A time zone: its offset in seconds, and an instant chosen for a wall clock reading. -/
structure Location where
  offset : ℤ → ℤ
  date : ℤ → ℤ

structure Environment where
  loadLocation : String → Option Location
  serverZone : String
  localZone : Location
  isValid : String → Bool
  nextTickAfter : String → Location → ℤ → Option ℤ

structure Rule where
  kind : String
  days : ℤ
  start : String
  time : String
  cron : String
  deriving DecidableEq

section Text

def isSpace (char : Char) : Bool :=
  char.toNat ∈ [9, 10, 11, 12, 13, 32, 0x85, 0xa0, 0x1680, 0x2028, 0x2029, 0x202f, 0x205f, 0x3000]
    || (0x2000 ≤ char.toNat && char.toNat ≤ 0x200a)

def trimSpace (text : List Char) : List Char :=
  ((text.dropWhile isSpace).reverse.dropWhile isSpace).reverse

def fields (text : List Char) : List (List Char) :=
  (text.splitOnP isSpace).filter fun field => !field.isEmpty

/-- Upper case; beyond ASCII, only the letters that become ASCII ones. -/
def toUpper (char : Char) : Char :=
  if char.toNat = 0x131 then 'I' else if char.toNat = 0x17f then 'S' else char.toUpper

def monthNames : List (String × String) :=
  [("JAN", "1"), ("FEB", "2"), ("MAR", "3"), ("APR", "4"), ("MAY", "5"), ("JUN", "6"),
    ("JUL", "7"), ("AUG", "8"), ("SEP", "9"), ("OCT", "10"), ("NOV", "11"), ("DEC", "12")]

def dayNames : List (String × String) :=
  [("SUN", "0"), ("MON", "1"), ("TUE", "2"), ("WED", "3"), ("THU", "4"), ("FRI", "5"),
    ("SAT", "6")]

def isWordChar (char : Char) : Bool := char.isAlphanum || char == '_'

/-- Replaces the words of three capitals that are names. -/
def replaceNames (names : List (String × String)) (field : List Char) : List Char :=
  (field.splitBy fun left right => isWordChar left && isWordChar right).flatMap fun word =>
    if word.length = 3 ∧ word.all Char.isUpper then
      ((names.lookup (String.ofList word)).map String.toList).getD word
    else word

def isCronField (field : List Char) : Bool :=
  !field.isEmpty && field.all fun char => char.isDigit || char ∈ ['*', ',', '/', '-']

def cronExpression (environment : Environment) (expression : String) : Except String String :=
  match fields ((trimSpace expression.toList).map toUpper) with
  | [minute, hour, day, month, weekday] =>
      if 160 < expression.utf8ByteSize then
        .error "cron requires five fields without seconds or a command"
      else
        let parts := [minute, hour, day, replaceNames monthNames month,
          replaceNames dayNames weekday]
        if !parts.all isCronField then
          .error "unsupported cron field; use standard numbers, names, lists, ranges and steps"
        else
          let expr := String.intercalate " " (parts.map String.ofList)
          if environment.isValid expr then .ok expr else .error "invalid cron ranges or steps"
  | _ => .error "cron requires five fields without seconds or a command"

def digits (text : List Char) : Option ℤ :=
  if text.all Char.isDigit then
    some (text.foldl (fun value char => value * 10 + (char.toNat - '0'.toNat : ℕ)) 0)
  else none

/-- The day number of a date; months are counted from March. -/
def dayNumber (year month day : ℤ) : ℤ :=
  monthStart (12 * year + month - 3) + day - 1 - unixEpoch

/-- A date such as 2006-01-02, as a day number. -/
def parseDate (text : String) : Option ℤ :=
  match text.toList with
  | [y1, y2, y3, y4, '-', m1, m2, '-', d1, d2] =>
      (digits [y1, y2, y3, y4]).bind fun year =>
        (digits [m1, m2]).bind fun month =>
          (digits [d1, d2]).bind fun day =>
            if 1 ≤ month ∧ month ≤ 12 ∧ 1 ≤ day ∧
                dayNumber year month day < dayNumber year (month + 1) 1 then
              some (dayNumber year month day)
            else none
  | _ => none

/-- A number with leading zeros. -/
def padded (width : ℕ) (value : ℤ) : String :=
  String.ofList ((toString value).toList.leftpad width '0')

/-- The text of a day number. -/
def formatDate (day : ℤ) : String :=
  let month := monthOfDay (day + unixEpoch)
  String.intercalate "-"
    [padded 4 (calendarYear month), padded 2 (calendarMonth month),
      padded 2 (day + unixEpoch - monthStart month + 1)]

/-- A clock time such as 15:04; the hour may have one digit. -/
def parseClock (text : String) : Option (ℤ × ℤ) :=
  let read (hour minute : List Char) : Option (ℤ × ℤ) :=
    (digits hour).bind fun hours =>
      (digits minute).bind fun minutes =>
        if hours < 24 ∧ minutes < 60 then some (hours, minutes) else none
  match text.toList with
  | [h1, h2, ':', m1, m2] => read [h1, h2] [m1, m2]
  | [h1, ':', m1, m2] => read [h1] [m1, m2]
  | _ => none

end Text

section Wall

def second : ℤ := 1000000000

def Location.wall (loc : Location) (instant : ℤ) : ℤ := instant / second + loc.offset instant

def Location.day (loc : Location) (instant : ℤ) : ℤ := loc.wall instant / 86400

def Location.hour (loc : Location) (instant : ℤ) : ℤ := loc.wall instant % 86400 / 3600

def Location.minute (loc : Location) (instant : ℤ) : ℤ := loc.wall instant % 3600 / 60

def Location.shows (loc : Location) (day hour minute instant : ℤ) : Bool :=
  loc.day instant == day && loc.hour instant == hour && loc.minute instant == minute

/-- An earlier instant that shows the same time, if the offset has changed. -/
def earlierFold (loc : Location) (day hour minute value sample : ℤ) : ℤ :=
  let candidate := value + (loc.offset value - loc.offset sample) * second
  if candidate < value ∧ loc.shows day hour minute candidate then candidate else value

/-- Resolves gaps by skipping them and folds to the first occurrence. -/
def wallTime (loc : Location) (day hour minute : ℤ) : Option ℤ :=
  let value := loc.date (day * 86400 + hour * 3600 + minute * 60)
  if loc.shows day hour minute value then
    let twoDays := 48 * 3600 * second
    some (earlierFold loc day hour minute
      (earlierFold loc day hour minute value (value - twoDays)) (value + twoDays))
  else none

def location (environment : Environment) (zone : String) : Except String Location :=
  let zone := if zone = "server" then environment.serverZone else zone
  if 128 < zone.utf8ByteSize ∨ trimSpace zone.toList ≠ zone.toList ∨ zone = "" then
    .error "invalid timezone"
  else
    match environment.loadLocation zone with
    | some loc => .ok loc
    | none => .error "unknown time zone"

end Wall

section Next

variable (environment : Environment)

/-- Steps through the matching instants to the first one with a slot. -/
def cronNext (loc : Location) (expr : String) (after : ℤ) : ℕ → ℤ → Except String ℤ
  | 0, _ => .error "cron cannot resolve local time"
  | tries + 1, cursor =>
      match environment.nextTickAfter expr loc cursor with
      | none => .error "cron has no next run"
      | some next =>
          if ¬cursor < next then .error "cron has no next run"
          else
            match wallTime loc (loc.day next) (loc.hour next) (loc.minute next) with
            | none => cronNext loc expr after tries next
            | some canonical =>
                if after < canonical then .ok canonical
                else cronNext loc expr after tries next

/-- The first day of year 10000. -/
def dateLimit : ℤ := dayNumber 10000 1 1

def intervalNext (loc : Location) (days anchor hour minute after : ℤ) :
    ℕ → ℕ → Except String ℤ
  | 0, _ => .error "interval has no next run"
  | tries + 1, index =>
      let day := anchor + index * days
      if dateLimit ≤ day then .error "date out of range"
      else
        match wallTime loc day hour minute with
        | none => intervalNext loc days anchor hour minute after tries (index + 1)
        | some candidate =>
            if after < candidate then .ok candidate
            else intervalNext loc days anchor hour minute after tries (index + 1)

/-- The next strictly future slot. -/
def Rule.next (rule : Rule) (after : ℤ) (zone : String) : Except String ℤ :=
  match location environment zone with
  | .error message => .error message
  | .ok loc =>
      if rule.kind = "cron" then
        match cronExpression environment rule.cron with
        | .error message => .error message
        | .ok expr => cronNext environment loc expr after 1501 after
      else if rule.kind ≠ "interval" ∨ rule.days < 1 ∨ 3650000 < rule.days then
        .error "invalid day interval"
      else
        match parseDate rule.start with
        | none => .error "invalid first date"
        | some anchor =>
            match parseClock rule.time with
            | none => .error "invalid time"
            | some (hour, minute) =>
                let index := max 0 ((loc.day after - anchor).tdiv rule.days)
                intervalNext loc rule.days anchor hour minute after 16 index.toNat

/-- The next three slots. -/
def Rule.preview (rule : Rule) (after : ℤ) (zone : String) : Except String (List ℤ) := do
  let first ← rule.next environment after zone
  let second ← rule.next environment first zone
  let third ← rule.next environment second zone
  return [first, second, third]

end Next

section Slots

variable {environment : Environment} {loc : Location} {rule : Rule} {after slot : ℤ}

/-- The cron library returns the least instant after its argument that matches. -/
def LeastMatching (environment : Environment) (matching : String → Location → ℤ → Prop) : Prop :=
  ∀ expr loc cursor next, environment.nextTickAfter expr loc cursor = some next →
    IsLeast {instant | cursor < instant ∧ matching expr loc instant} next

/-- The slots of a rule in a time zone. -/
def Rule.IsSlot (environment : Environment) (matching : String → Location → ℤ → Prop)
    (rule : Rule) (zone : String) (slot : ℤ) : Prop :=
  ∃ loc, location environment zone = .ok loc ∧
    if rule.kind = "cron" then
      ∃ expr instant, cronExpression environment rule.cron = .ok expr ∧
        matching expr loc instant ∧
        wallTime loc (loc.day instant) (loc.hour instant) (loc.minute instant) = some slot
    else
      ∃ anchor hour minute, parseDate rule.start = some anchor ∧
        parseClock rule.time = some (hour, minute) ∧
        ∃ index : ℕ, wallTime loc (anchor + index * rule.days) hour minute = some slot

theorem cronNext_spec {matching : String → Location → ℤ → Prop} {expr : String}
    (least : LeastMatching environment matching) (tries : ℕ) (cursor : ℤ)
    (found : cronNext environment loc expr after tries cursor = .ok slot) :
    after < slot ∧ ∃ instant, matching expr loc instant ∧
      wallTime loc (loc.day instant) (loc.hour instant) (loc.minute instant) = some slot := by
  induction tries generalizing cursor with
  | zero => cases found
  | succ tries ih =>
      unfold cronNext at found
      split at found
      · cases found
      · rename_i next tick
        split at found
        · cases found
        · split at found
          · exact ih next found
          · rename_i canonical resolved
            split at found
            · rename_i later
              cases found
              exact ⟨later, next, (least expr loc cursor next tick).1.2, resolved⟩
            · exact ih next found

theorem intervalNext_spec {days anchor hour minute : ℤ} (tries index : ℕ)
    (found : intervalNext loc days anchor hour minute after tries index = .ok slot) :
    after < slot ∧ ∃ index : ℕ, wallTime loc (anchor + index * days) hour minute = some slot := by
  induction tries generalizing index with
  | zero => cases found
  | succ tries ih =>
      simp only [intervalNext] at found
      split at found
      · cases found
      · split at found
        · exact ih (index + 1) found
        · rename_i candidate resolved
          split at found
          · rename_i later
            cases found
            exact ⟨later, index, resolved⟩
          · exact ih (index + 1) found

/-- The next slot is a slot, and in the future. -/
theorem Rule.next_spec {matching : String → Location → ℤ → Prop} {zone : String}
    (least : LeastMatching environment matching)
    (found : rule.next environment after zone = .ok slot) :
    after < slot ∧ rule.IsSlot environment matching zone slot := by
  unfold Rule.next at found
  split at found
  · cases found
  · rename_i loc known
    split at found
    · rename_i cron
      split at found
      · cases found
      · rename_i expr parsed
        rcases cronNext_spec least _ _ found with ⟨later, instant, matched, resolved⟩
        refine ⟨later, loc, known, ?_⟩
        rw [if_pos cron]
        exact ⟨expr, instant, parsed, matched, resolved⟩
    · rename_i interval
      split at found
      · cases found
      · split at found
        · cases found
        · rename_i anchor date
          split at found
          · cases found
          · rename_i hour minute clock
            rcases intervalNext_spec _ _ found with ⟨later, index, resolved⟩
            refine ⟨later, loc, known, ?_⟩
            rw [if_neg interval]
            exact ⟨anchor, hour, minute, date, clock, index, resolved⟩

theorem Rule.next_of_preview {zone : String} {slots : List ℤ}
    (valid : rule.preview environment after zone = .ok slots) :
    ∃ first, rule.next environment after zone = .ok first := by
  unfold Rule.preview at valid
  cases found : rule.next environment after zone with
  | ok first => exact ⟨first, rfl⟩
  | error message =>
      rw [found] at valid
      cases valid

end Slots

end TelemtPanel.QuotaReset
