import TelemtPanel.Store.Traffic.Basic

/-!
# The traffic ledger

The ledger states what traffic accounting is for, independently of how a backend
stores it: an account per user, the bytes of every history bucket, and the last
coherent observation.  Nothing in a ledger expires.  A snapshot either is refused
or updates every account in one step; both backends are shown to refine this step.

The month bytes of an account belong to the month of the last observation.  They
are rolled over when an observation of a later month arrives, which is the only
place where the ledger looks at the calendar.
-/

namespace TelemtPanel.Store

open TelemtPanel.Library

/-- Account of one user.  The baseline is the last accepted counter with the start of
the process it belongs to, and a zero `deletedAt` means that the user exists. -/
structure Account where
  totalBytes : ℤ
  monthBytes : ℤ
  observedSince : ℤ
  lastActivity : ℤ
  deletedAt : ℤ
  continuity : UserTrafficContinuity
  baseline : Option (ℤ × ℤ)
deriving DecidableEq, Repr

namespace Account

/-- Growth of the counter since the baseline. -/
def delta (pass : UserTrafficPass) (raw : ℤ) (account : Account) : ℤ :=
  match account.baseline with
  | none => 0
  | some (lastRaw, lastSourceStart) =>
      userTrafficDelta lastRaw lastSourceStart raw pass.snapshot.sourceStartedAt

/-- Bytes that an observation adds to an account. -/
def gain (pass : UserTrafficPass) (raw : ℤ) : Option Account → ℤ
  | none => 0
  | some account => if pass.snapshot.telemetryEnabled = false then 0 else account.delta pass raw

/-- Account of a user after an observation that lists the user. -/
def observe (pass : UserTrafficPass) (raw : ℤ) : Option Account → Option Account
  | none =>
      if pass.snapshot.telemetryEnabled = false then none
      else some ⟨0, 0, pass.snapshot.observedAt, 0, 0, pass.continuity,
        some (raw, pass.snapshot.sourceStartedAt)⟩
  | some account =>
      if pass.snapshot.telemetryEnabled = false then
        some { account with deletedAt := 0, continuity := pass.merge account.continuity }
      else
        let delta := account.delta pass raw
        some { account with
          totalBytes := account.totalBytes + delta
          monthBytes := account.monthBytes + delta
          lastActivity := if 0 < delta then pass.snapshot.observedAt else account.lastActivity
          deletedAt := 0
          continuity := pass.merge account.continuity
          baseline := some (raw, pass.snapshot.sourceStartedAt) }

/-- Summary that shows an account. -/
def summary (username : String) (account : Account) : UserTrafficSummary :=
  ⟨username, account.totalBytes, account.monthBytes, 0, account.observedSince,
    account.lastActivity, account.deletedAt, account.continuity⟩

/-- Account of a user after an observation that does not list the user. -/
def vanish (pass : UserTrafficPass) (account : Account) : Account :=
  if account.deletedAt ≠ 0 then account
  else { account with deletedAt := pass.snapshot.observedAt }

/-- Clears the month bytes when a later month starts. -/
def roll (newMonth : Prop) [Decidable newMonth] (account : Account) : Account :=
  if newMonth then { account with monthBytes := 0 } else account

/-- Bounds of an account that follow from the checks made on the way in. -/
structure Sound (account : Account) : Prop where
  month_nonneg : 0 ≤ account.monthBytes
  month_le : account.monthBytes ≤ account.totalBytes
  total_le : account.totalBytes ≤ maxInt64

theorem delta_nonneg (pass : UserTrafficPass) {raw : ℤ} (nonneg : 0 ≤ raw) (account : Account) :
    0 ≤ account.delta pass raw := by
  simp only [delta]
  split
  · exact le_rfl
  · exact userTrafficDelta_nonneg nonneg _ _

theorem gain_nonneg {pass : UserTrafficPass} {raw : ℤ} (nonneg : 0 ≤ raw)
    (account : Option Account) : 0 ≤ gain pass raw account := by
  rcases account with _ | account
  · exact le_rfl
  simp only [gain]
  split
  · exact le_rfl
  · exact delta_nonneg pass nonneg account

theorem Sound.roll {account : Account} (sound : account.Sound) (newMonth : Prop)
    [Decidable newMonth] : (account.roll newMonth).Sound := by
  have := sound.month_nonneg
  have := sound.month_le
  simp only [Account.roll]
  split
  · exact ⟨le_rfl, by simp only; omega, sound.total_le⟩
  · exact sound

theorem Sound.vanish {account : Account} (sound : account.Sound) (pass : UserTrafficPass) :
    (account.vanish pass).Sound := by
  simp only [Account.vanish]
  split
  · exact sound
  · exact ⟨sound.month_nonneg, sound.month_le, sound.total_le⟩

/-- Total of a possibly absent account. -/
def total (account : Option Account) : ℤ := (account.map (·.totalBytes)).getD 0

theorem Sound.observe {pass : UserTrafficPass} {raw : ℤ} (nonneg : 0 ≤ raw)
    {before : Option Account} {account : Account}
    (sound : ∀ prior, before = some prior → prior.Sound)
    (fits : total before + gain pass raw before ≤ maxInt64)
    (observed : Account.observe pass raw before = some account) : account.Sound := by
  rcases before with _ | prior
  · simp only [Account.observe] at observed
    split at observed
    · cases observed
    · cases observed
      exact ⟨le_rfl, le_rfl, maxInt64_nonneg⟩
  · have priorSound := sound prior rfl
    have gained := prior.delta_nonneg pass nonneg
    have := priorSound.month_nonneg
    have := priorSound.month_le
    simp only [Account.observe] at observed
    split at observed
    · cases observed
      exact ⟨priorSound.month_nonneg, priorSound.month_le, priorSound.total_le⟩
    · rename_i active
      cases observed
      simp only [total, Option.map_some, Option.getD_some, gain, if_neg active] at fits
      exact ⟨by simp only; omega, by simp only; omega, fits⟩

end Account

/-- Adds a delta to the bytes of a bucket; only positive deltas create a bucket. -/
def credit (bytes : Option ℤ) (delta : ℤ) : Option ℤ :=
  if 0 < delta then some (bytes.getD 0 + delta) else bytes

@[simp]
theorem credit_zero (bytes : Option ℤ) : credit bytes 0 = bytes := by
  simp [credit]

theorem credit_getD {delta : ℤ} (nonneg : 0 ≤ delta) (bytes : Option ℤ) :
    (credit bytes delta).getD 0 = bytes.getD 0 + delta := by
  simp only [credit]
  split
  · rfl
  · omega

theorem credit_credit {delta more : ℤ} (nonneg : 0 ≤ delta) (moreNonneg : 0 ≤ more)
    (bytes : Option ℤ) : credit (credit bytes delta) more = credit bytes (delta + more) := by
  simp only [credit]
  by_cases positive : 0 < delta
  · have both : 0 < delta + more := by omega
    simp only [positive, both, ↓reduceIte, Option.getD_some, add_assoc]
    split
    · rfl
    · congr 2
      omega
  · have zero : delta = 0 := by omega
    simp [zero]

/-- Width in seconds of each tier of history buckets. -/
def trafficTierWidth : Fin 3 → ℤ := ![900, 3600, 86400]

theorem trafficTierWidth_pos (tier : Fin 3) : 0 < trafficTierWidth tier := by
  fin_cases tier <;> decide

/-- Accounts, history and last coherent observation. -/
structure TrafficLedger where
  accounts : String → Option Account
  history : String → Fin 3 → ℤ → Option ℤ
  collector : Option UserTrafficCollectorState

/-- Raw counter that a snapshot lists for a user. -/
def UserTrafficSnapshot.rawOf (snapshot : UserTrafficSnapshot) (username : String) : Option ℤ :=
  (snapshot.users.find? (·.username = username)).map (·.rawOctets)

namespace TrafficLedger

def empty : TrafficLedger := ⟨fun _ => none, fun _ _ _ => none, none⟩

/-- Month of the last observation. -/
def month (ledger : TrafficLedger) : ℤ :=
  (ledger.collector.map fun collector => utcMonthKey collector.lastSuccessTS).getD 0

/-- No tombstone reaches the age of a day at a given time. -/
def Fresh (ledger : TrafficLedger) (now : ℤ) : Prop :=
  ∀ username account, ledger.accounts username = some account → account.deletedAt ≠ 0 →
    now - account.deletedAt < userTrafficMemoryRetentionSecs

/-- Whether an observation starts a new month. -/
def newMonth (ledger : TrafficLedger) (pass : UserTrafficPass) : Bool :=
  ledger.collector.any fun collector =>
    decide (utcMonthKey collector.lastSuccessTS ≠ pass.monthKey)

/-- Account of a user in the month of an observation. -/
def rolled (ledger : TrafficLedger) (pass : UserTrafficPass) (username : String) :
    Option Account :=
  (ledger.accounts username).map (Account.roll (ledger.newMonth pass))

/-- Bytes added by an observation to the account of a user. -/
def gain (ledger : TrafficLedger) (pass : UserTrafficPass) (username : String) : ℤ :=
  match pass.snapshot.rawOf username with
  | none => 0
  | some raw => Account.gain pass raw (ledger.accounts username)

/-- Sum of the bytes added to all accounts. -/
def deltaBytes (ledger : TrafficLedger) (pass : UserTrafficPass) : ℤ :=
  (pass.snapshot.users.map fun user => ledger.gain pass user.username).sum

/-- Every total, and the sum of all deltas, fits into 64 bits. -/
def Fits (ledger : TrafficLedger) (pass : UserTrafficPass) : Prop :=
  (∀ user ∈ pass.snapshot.users, Account.total (ledger.accounts user.username) +
    ledger.gain pass user.username ≤ maxInt64) ∧ ledger.deltaBytes pass ≤ maxInt64

instance (ledger : TrafficLedger) (pass : UserTrafficPass) : Decidable (ledger.Fits pass) :=
  inferInstanceAs (Decidable (_ ∧ _))

/-- Ledger after an accepted observation. -/
def observed (ledger : TrafficLedger) (pass : UserTrafficPass) : TrafficLedger where
  accounts username :=
    match pass.snapshot.rawOf username with
    | none => (ledger.rolled pass username).map (Account.vanish pass)
    | some raw => Account.observe pass raw (ledger.rolled pass username)
  history username tier ts :=
    if pass.historyEnabled ∧ ts = bucketStart pass.snapshot.observedAt (trafficTierWidth tier) then
      credit (ledger.history username tier ts) (ledger.gain pass username)
    else ledger.history username tier ts
  collector := some pass.collector

/-- A snapshot is admitted when it is valid and newer than the last accepted one. -/
structure Admits (ledger : TrafficLedger) (snapshot : UserTrafficSnapshot) : Prop where
  valid : snapshot.Valid
  newer : ∀ collector, ledger.collector = some collector →
    collector.lastSuccessTS < snapshot.observedAt

/-- Local variables of the pass over a snapshot. -/
def pass (ledger : TrafficLedger) (historyEnabled : Bool) (snapshot : UserTrafficSnapshot) :
    UserTrafficPass :=
  userTrafficPass historyEnabled ledger.collector snapshot

/-- A snapshot is accepted when it is admitted and no counter overflows. -/
structure Accepts (ledger : TrafficLedger) (historyEnabled : Bool)
    (snapshot : UserTrafficSnapshot) : Prop extends ledger.Admits snapshot where
  fits : ledger.Fits (ledger.pass historyEnabled snapshot)

/-- Ledger after the history of a user is deleted. -/
def forget (ledger : TrafficLedger) (username : String) : TrafficLedger :=
  { ledger with
    accounts := Function.update ledger.accounts username none
    history := Function.update ledger.history username fun _ _ => none }

/-- Bounds that hold in every ledger reached from the empty one. -/
structure Sound (ledger : TrafficLedger) : Prop where
  account : ∀ username account, ledger.accounts username = some account → account.Sound
  bucket : ∀ username tier ts bytes, ledger.history username tier ts = some bytes →
    0 < bytes ∧ bytes ≤ Account.total (ledger.accounts username)

end TrafficLedger

namespace Account

variable {pass : UserTrafficPass} {raw : ℤ}

@[simp]
theorem total_none : total none = 0 := rfl

@[simp]
theorem total_some (account : Account) : total (some account) = account.totalBytes := rfl

@[simp]
theorem total_roll (newMonth : Prop) [Decidable newMonth] (account : Option Account) :
    total (account.map (roll newMonth)) = total account := by
  rcases account with _ | account
  · rfl
  · simp only [Option.map_some, total_some, roll]
    split <;> rfl

@[simp]
theorem gain_roll (newMonth : Prop) [Decidable newMonth] (account : Option Account) :
    gain pass raw (account.map (roll newMonth)) = gain pass raw account := by
  rcases account with _ | account
  · rfl
  · simp only [Option.map_some, roll]
    split <;> rfl

@[simp]
theorem total_vanish (account : Option Account) :
    total (account.map (vanish pass)) = total account := by
  rcases account with _ | account
  · rfl
  · simp only [Option.map_some, total_some, vanish]
    split <;> rfl

/-- A listed user exists. -/
theorem deletedAt_observe {before : Option Account} {account : Account}
    (observed : observe pass raw before = some account) : account.deletedAt = 0 := by
  rcases before with _ | prior
  · simp only [observe] at observed
    split at observed <;> cases observed
    rfl
  · simp only [observe] at observed
    split at observed <;> cases observed <;> rfl

/-- An observation adds exactly the gain to the total. -/
theorem total_observe (account : Option Account) :
    total (observe pass raw account) = total account + gain pass raw account := by
  rcases account with _ | account
  · simp only [observe, gain]
    split <;> rfl
  · by_cases paused : pass.snapshot.telemetryEnabled = false
    · simp [observe, gain, paused]
    · simp [observe, gain, paused]

end Account

namespace UserTrafficSnapshot

variable {snapshot : UserTrafficSnapshot} {username : String}

theorem rawOf_eq_none_iff :
    snapshot.rawOf username = none ↔ username ∉ snapshot.users.map (·.username) := by
  simp [rawOf]

theorem exists_of_rawOf {raw : ℤ} (listed : snapshot.rawOf username = some raw) :
    ∃ user ∈ snapshot.users, user.username = username ∧ (user.rawOctets : ℤ) = raw := by
  simp only [rawOf, Option.map_eq_some_iff] at listed
  rcases listed with ⟨user, found, rfl⟩
  exact ⟨user, List.mem_of_find?_eq_some found, by simpa using List.find?_some found, rfl⟩

theorem rawOf_nonneg {raw : ℤ} (listed : snapshot.rawOf username = some raw) : 0 ≤ raw := by
  rcases exists_of_rawOf listed with ⟨user, -, -, rfl⟩
  exact Int.natCast_nonneg _

/-- In a snapshot without duplicates every entry is the one its name refers to. -/
theorem rawOf_of_mem (distinct : (snapshot.users.map (·.username)).Nodup)
    {user : UserTrafficObservation} (mem : user ∈ snapshot.users) :
    snapshot.rawOf user.username = some (user.rawOctets : ℤ) := by
  cases listed : snapshot.rawOf user.username with
  | none => exact absurd (List.mem_map_of_mem mem) (rawOf_eq_none_iff.mp listed)
  | some raw =>
      rcases exists_of_rawOf listed with ⟨other, otherMem, same, rfl⟩
      rw [List.inj_on_of_nodup_map distinct otherMem mem same]

end UserTrafficSnapshot

namespace TrafficLedger

variable {ledger : TrafficLedger} {pass : UserTrafficPass}

theorem gain_nonneg (ledger : TrafficLedger) (pass : UserTrafficPass) (username : String) :
    0 ≤ ledger.gain pass username := by
  simp only [gain]
  split
  · exact le_rfl
  · rename_i raw listed
    exact Account.gain_nonneg (UserTrafficSnapshot.rawOf_nonneg listed) _

@[simp]
theorem total_rolled (username : String) :
    Account.total (ledger.rolled pass username) = Account.total (ledger.accounts username) :=
  Account.total_roll _ _

theorem total_observed (username : String) :
    Account.total ((ledger.observed pass).accounts username) =
      Account.total (ledger.accounts username) + ledger.gain pass username := by
  simp only [observed, gain]
  split
  · rw [Account.total_vanish, total_rolled, add_zero]
  · rw [Account.total_observe, total_rolled, rolled, Account.gain_roll]

theorem Sound.total_nonneg (sound : ledger.Sound) (username : String) :
    0 ≤ Account.total (ledger.accounts username) := by
  cases known : ledger.accounts username with
  | none => exact le_rfl
  | some account =>
      have bounds := sound.account username account known
      exact bounds.month_nonneg.trans bounds.month_le

theorem Sound.history_nonneg (sound : ledger.Sound) (username : String) (tier : Fin 3) (ts : ℤ) :
    0 ≤ (ledger.history username tier ts).getD 0 := by
  cases known : ledger.history username tier ts with
  | none => exact le_rfl
  | some bytes => exact (sound.bucket username tier ts bytes known).1.le

theorem Sound.history_le_total (sound : ledger.Sound) (username : String) (tier : Fin 3) (ts : ℤ) :
    (ledger.history username tier ts).getD 0 ≤ Account.total (ledger.accounts username) := by
  cases known : ledger.history username tier ts with
  | none => exact sound.total_nonneg username
  | some bytes => exact (sound.bucket username tier ts bytes known).2

/-- Totals that fit for the listed users fit for everyone. -/
theorem Fits.total_le (fits : ledger.Fits pass) (sound : ledger.Sound) (username : String) :
    Account.total (ledger.accounts username) + ledger.gain pass username ≤ maxInt64 := by
  cases listed : pass.snapshot.rawOf username with
  | none =>
      simp only [gain, listed, add_zero]
      cases known : ledger.accounts username with
      | none => exact maxInt64_nonneg
      | some account => exact (sound.account username account known).total_le
  | some raw =>
      rcases UserTrafficSnapshot.exists_of_rawOf listed with ⟨user, mem, rfl, -⟩
      exact fits.1 user mem

theorem Sound.observed (sound : ledger.Sound) (fits : ledger.Fits pass) :
    (ledger.observed pass).Sound := by
  have rolledSound : ∀ username account, ledger.rolled pass username = some account →
      account.Sound := by
    intro username account isRolled
    simp only [rolled, Option.map_eq_some_iff] at isRolled
    rcases isRolled with ⟨prior, known, rfl⟩
    exact (sound.account username prior known).roll _
  constructor
  · intro username account known
    simp only [TrafficLedger.observed] at known
    split at known
    · simp only [Option.map_eq_some_iff] at known
      rcases known with ⟨prior, isRolled, rfl⟩
      exact (rolledSound username prior isRolled).vanish pass
    · rename_i raw listed
      have total := fits.total_le sound username
      simp only [gain, listed] at total
      refine Account.Sound.observe (UserTrafficSnapshot.rawOf_nonneg listed)
        (rolledSound username) ?_ known
      rw [total_rolled, rolled, Account.gain_roll]
      exact total
  · intro username tier ts bytes known
    rw [total_observed]
    have gained := ledger.gain_nonneg pass username
    have untouched : ledger.history username tier ts = some bytes →
        0 < bytes ∧ bytes ≤ Account.total (ledger.accounts username) +
          ledger.gain pass username := by
      intro old
      have := sound.bucket username tier ts bytes old
      omega
    simp only [TrafficLedger.observed, credit] at known
    split at known
    · split at known
      · rename_i positive
        cases known
        cases old : ledger.history username tier ts with
        | none =>
            have := sound.total_nonneg username
            simp only [Option.getD_none]
            omega
        | some old_bytes =>
            have := sound.bucket username tier ts old_bytes old
            simp only [Option.getD_some]
            omega
      · exact untouched known
    · exact untouched known

/-- An observation leaves no tombstone that is a day old. -/
theorem Fresh.observed {now : ℤ} (fresh : ledger.Fresh now) (pass : UserTrafficPass)
    (now_eq : pass.snapshot.observedAt = now) : (ledger.observed pass).Fresh now := by
  intro username account known deleted
  simp only [TrafficLedger.observed] at known
  split at known
  · simp only [rolled, Option.map_map, Option.map_eq_some_iff, Function.comp_apply] at known
    rcases known with ⟨prior, present, rfl⟩
    have aged := fresh username prior present
    have rolledDeleted : (prior.roll (ledger.newMonth pass)).deletedAt = prior.deletedAt := by
      simp only [Account.roll]
      split <;> rfl
    simp only [Account.vanish, rolledDeleted] at deleted ⊢
    split at deleted
    · rename_i earlier
      rw [if_pos earlier, rolledDeleted]
      exact aged earlier
    · rename_i earlier
      rw [if_neg earlier]
      simp only [now_eq, sub_self]
      decide
  · rename_i raw listed
    exact absurd (Account.deletedAt_observe known) deleted

theorem Sound.forget (sound : ledger.Sound) (username : String) : (ledger.forget username).Sound := by
  constructor
  · intro other account known
    simp only [TrafficLedger.forget, Function.update_apply] at known
    split at known
    · cases known
    · exact sound.account other account known
  · intro other tier ts bytes known
    simp only [TrafficLedger.forget, Function.update_apply] at known ⊢
    split at known
    · cases known
    · rename_i apart
      rw [if_neg apart]
      exact sound.bucket other tier ts bytes known

/-- The month of a newer snapshot is not before the month of the ledger. -/
theorem Admits.month_le {snapshot : UserTrafficSnapshot} (admits : ledger.Admits snapshot)
    (historyEnabled : Bool) (found : ledger.collector ≠ none) :
    ledger.month ≤ (ledger.pass historyEnabled snapshot).monthKey := by
  rcases Option.ne_none_iff_exists'.mp found with ⟨collector, known⟩
  simp only [month, known, Option.map_some, Option.getD_some]
  exact utcMonthKey_mono (admits.newer collector known).le

theorem sound_empty : empty.Sound := by
  constructor
  · intro username account known
    cases known
  · intro username tier ts bytes known
    cases known

end TrafficLedger

/-- How the entries of a backend are read as accounts: the bytes of the current month
depend on the month in which the entry is read. -/
structure AccountView (Entry : Type) where
  account : ℤ → Entry → Account
  monthKey : Entry → ℤ
  /-- Later months see an old entry as rolled over. -/
  account_roll : ∀ {month later : ℤ} {entry : Entry}, monthKey entry ≤ month → month ≤ later →
    (account month entry).roll (month ≠ later) = account later entry

namespace AccountView

variable {Entry : Type} (view : AccountView Entry)

/-- The entries of a backend are the accounts of the ledger. -/
structure Shows (ledger : TrafficLedger) (entries : String → Option Entry) : Prop where
  entry : ∀ username, (entries username).map (view.account ledger.month) =
    ledger.accounts username
  month_le : ∀ username entry, entries username = some entry →
    ledger.collector ≠ none ∧ view.monthKey entry ≤ ledger.month

variable {view} {ledger : TrafficLedger} {entries : String → Option Entry}
  {pass : UserTrafficPass}

/-- Read in a later month, the entries are the accounts rolled over to it. -/
theorem Shows.readLater (agrees : view.Shows ledger entries) {later : ℤ}
    (le : ledger.collector ≠ none → ledger.month ≤ later) (username : String) :
    (entries username).map (view.account later) =
      (ledger.accounts username).map (Account.roll (ledger.month ≠ later)) := by
  rw [← agrees.entry username]
  cases known : entries username with
  | none => rfl
  | some entry =>
      rcases agrees.month_le username entry known with ⟨found, past⟩
      simp only [Option.map_some, view.account_roll past (le found)]

/-- Read in the month of a new snapshot, the entries are the rolled accounts. -/
theorem Shows.rolled (agrees : view.Shows ledger entries)
    (le : ledger.collector ≠ none → ledger.month ≤ pass.monthKey) (username : String) :
    (entries username).map (view.account pass.monthKey) = ledger.rolled pass username := by
  rw [agrees.readLater le, TrafficLedger.rolled, ← agrees.entry username]
  cases known : entries username with
  | none => rfl
  | some entry =>
      rcases Option.ne_none_iff_exists'.mp (agrees.month_le username entry known).1 with
        ⟨state, collector⟩
      simp [Account.roll, TrafficLedger.newMonth, TrafficLedger.month, collector]

/-- Entries that are not after the month of the ledger are not after a later month. -/
theorem Shows.monthKey_le (agrees : view.Shows ledger entries)
    (le : ledger.collector ≠ none → ledger.month ≤ pass.monthKey) {username : String}
    {entry : Entry} (known : entries username = some entry) :
    view.monthKey entry ≤ pass.monthKey := by
  rcases agrees.month_le username entry known with ⟨found, past⟩
  exact past.trans (le found)

theorem Shows.account_of (agrees : view.Shows ledger entries) {username : String} {entry : Entry}
    (known : entries username = some entry) :
    ledger.accounts username = some (view.account ledger.month entry) := by
  rw [← agrees.entry username, known, Option.map_some]

/-- Deleting an entry closes the account. -/
theorem Shows.forget (agrees : view.Shows ledger entries) (username : String) :
    view.Shows (ledger.forget username) (Function.update entries username none) := by
  refine ⟨?_, ?_⟩
  · intro other
    simp only [TrafficLedger.forget, Function.update_apply]
    split
    · rfl
    · exact agrees.entry other
  · intro other entry known
    simp only [Function.update_apply] at known
    split at known
    · cases known
    · exact agrees.month_le other entry known

end AccountView

end TelemtPanel.Store
