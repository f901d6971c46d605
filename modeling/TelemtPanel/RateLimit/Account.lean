import TelemtPanel.RateLimit.Window

/-!
# What the limiter knows of a key

An entry that was dropped stands for one that holds nothing, so that a key always has
an account: its reservations and its stamps.  Entries are reached through pointers.  As
long as no two keys share one, a call changes the account of its own key only.
-/

namespace TelemtPanel.RateLimit

universe u

variable {Key : Type u} [DecidableEq Key]

namespace Window

/-- What the table holds for a key, where no entry stands for an empty one. -/
def account (w : Window Key) (key : Key) : Entry := (w.entry? key).getD ⟨[], 0⟩

/-- Pointers of the table are allocated and not shared. -/
structure Separate (w : Window Key) : Prop where
  allocated : ∀ key e, w.entries key = some e → e < w.allocated
  unshared : ∀ key other e, w.entries key = some e → w.entries other = some e → key = other

variable {w : Window Key} {key other : Key} {e : ℕ} {now : Time} {change : Entry → Entry}

omit [DecidableEq Key] in
theorem account_of_some (found : w.entries key = some e) : w.account key = w.heap e := by
  simp [account, entry?, found]

omit [DecidableEq Key] in
theorem account_of_none (absent : w.entries key = none) : w.account key = ⟨[], 0⟩ := by
  simp [account, entry?, absent]

@[simp]
theorem recent_nil (window : ℤ) (now : Time) : recent window [] now = [] := rfl

omit [DecidableEq Key] in
/-- A key without an entry has room, since the limit is positive. -/
theorem hasRoom_eq (positive : 0 < w.limit) (key : Key) :
    w.hasRoom key =
      (!w.closed &&
        decide ((w.account key).counts.length + (w.account key).inflight < w.limit)) := by
  cases found : w.entries key with
  | none => simp [hasRoom, entry?, account, found, positive]
  | some e => simp [hasRoom, entry?, account, found]

section Prune

theorem pruneLocked_of_none (absent : w.entries key = none) (now : Time) :
    w.pruneLocked key now = w := by
  rw [pruneLocked, absent]

variable (w key now)

@[simp] theorem pruneLocked_finishes : (w.pruneLocked key now).finishes = w.finishes := by
  unfold pruneLocked
  cases w.entries key with
  | none => rfl
  | some e =>
      dsimp only
      split <;> rfl

@[simp] theorem pruneLocked_limit : (w.pruneLocked key now).limit = w.limit := by
  unfold pruneLocked
  cases w.entries key with
  | none => rfl
  | some e =>
      dsimp only
      split <;> rfl

@[simp] theorem pruneLocked_window : (w.pruneLocked key now).window = w.window := by
  unfold pruneLocked
  cases w.entries key with
  | none => rfl
  | some e =>
      dsimp only
      split <;> rfl

@[simp] theorem pruneLocked_closed : (w.pruneLocked key now).closed = w.closed := by
  unfold pruneLocked
  cases w.entries key with
  | none => rfl
  | some e =>
      dsimp only
      split <;> rfl

/-- A visit keeps the pointer of its key or drops it, and leaves the others. -/
theorem pruneLocked_entries :
    (w.pruneLocked key now).entries =
      if recent w.window (w.account key).counts now = [] ∧ (w.account key).inflight = 0 then
        Function.update w.entries key none
      else w.entries := by
  cases found : w.entries key with
  | none =>
      rw [pruneLocked_of_none found, account_of_none found, if_pos ⟨rfl, rfl⟩, ← found,
        Function.update_eq_self]
  | some e =>
      rw [account_of_some found, pruneLocked, found]
      simp only [Function.update_self]
      split <;> rfl

theorem pruneLocked_allocated : (w.pruneLocked key now).allocated = w.allocated := by
  unfold pruneLocked
  cases w.entries key with
  | none => rfl
  | some e =>
      dsimp only
      split <;> rfl

variable {w key now}

theorem entries_of_prune (found : (w.pruneLocked key now).entries other = some e) :
    w.entries other = some e := by
  rw [pruneLocked_entries] at found
  split at found
  · by_cases same : other = key
    · subst same
      simp at found
    · rwa [Function.update_of_ne same] at found
  · exact found

theorem Separate.prune (separate : w.Separate) (key : Key) (now : Time) :
    (w.pruneLocked key now).Separate where
  allocated other e found := by
    rw [pruneLocked_allocated]
    exact separate.allocated other e (entries_of_prune found)
  unshared other another e found shared :=
    separate.unshared other another e (entries_of_prune found) (entries_of_prune shared)

theorem pruneLocked_heap_of_ne (ne : w.entries key ≠ some e) :
    (w.pruneLocked key now).heap e = w.heap e := by
  unfold pruneLocked
  cases found : w.entries key with
  | none => rfl
  | some pointer =>
      have differ : e ≠ pointer := fun same => ne (same ▸ found)
      dsimp only
      split <;> exact Function.update_of_ne differ _ _

theorem pruneLocked_heap_of_eq (found : w.entries key = some e) :
    (w.pruneLocked key now).heap e =
      { w.heap e with counts := recent w.window (w.heap e).counts now } := by
  unfold pruneLocked
  rw [found]
  dsimp only
  split <;> exact Function.update_self _ _ _

/-- A visit leaves the recent stamps of its key. -/
theorem account_prune_self (w : Window Key) (key : Key) (now : Time) :
    (w.pruneLocked key now).account key =
      { w.account key with counts := recent w.window (w.account key).counts now } := by
  cases found : w.entries key with
  | none =>
      rw [pruneLocked_of_none found, account_of_none found]
      rfl
  | some e =>
      have entries := pruneLocked_entries w key now
      rw [account_of_some found] at entries ⊢
      split at entries
      · rename_i empty
        rw [account_of_none (by rw [entries, Function.update_self]), empty.1, ← empty.2]
      · rw [account_of_some (by rw [entries, found]), pruneLocked_heap_of_eq found]

theorem account_prune_of_ne (separate : w.Separate) (ne : other ≠ key) (now : Time) :
    (w.pruneLocked key now).account other = w.account other := by
  have entries : (w.pruneLocked key now).entries other = w.entries other := by
    rw [pruneLocked_entries]
    split
    · rw [Function.update_of_ne ne]
    · rfl
  cases found : w.entries other with
  | none => rw [account_of_none found, account_of_none (entries.trans found)]
  | some e =>
      rw [account_of_some found, account_of_some (entries.trans found)]
      refine pruneLocked_heap_of_ne fun shared => ne ?_
      exact separate.unshared other key e found shared

end Prune

section OnEntry

theorem entryLocked_cases (w : Window Key) (key : Key) :
    w.entries key = some (w.entryLocked key).1 ∧ (w.entryLocked key).2 = w ∨
      w.entries key = none ∧ w.entryLocked key =
        (w.allocated, { w with
          heap := Function.update w.heap w.allocated ⟨[], 0⟩
          entries := Function.update w.entries key (some w.allocated)
          allocated := w.allocated + 1 }) := by
  unfold entryLocked
  cases found : w.entries key with
  | none => exact .inr ⟨rfl, rfl⟩
  | some e => exact .inl ⟨rfl, rfl⟩

theorem entryLocked_of_some (found : w.entries key = some e) : w.entryLocked key = (e, w) := by
  rw [entryLocked, found]

theorem onEntry_of_some (found : w.entries key = some e) (change : Entry → Entry) :
    w.onEntry key change = { w with heap := Function.update w.heap e (change (w.heap e)) } := by
  rw [onEntry, entryLocked_of_some found]

variable (w key change)

@[simp] theorem onEntry_finishes : (w.onEntry key change).finishes = w.finishes := by
  rcases entryLocked_cases w key with ⟨-, same⟩ | ⟨-, fresh⟩
  · simp [onEntry, same]
  · simp [onEntry, fresh]

@[simp] theorem onEntry_limit : (w.onEntry key change).limit = w.limit := by
  rcases entryLocked_cases w key with ⟨-, same⟩ | ⟨-, fresh⟩
  · simp [onEntry, same]
  · simp [onEntry, fresh]

@[simp] theorem onEntry_window : (w.onEntry key change).window = w.window := by
  rcases entryLocked_cases w key with ⟨-, same⟩ | ⟨-, fresh⟩
  · simp [onEntry, same]
  · simp [onEntry, fresh]

@[simp] theorem onEntry_closed : (w.onEntry key change).closed = w.closed := by
  rcases entryLocked_cases w key with ⟨-, same⟩ | ⟨-, fresh⟩
  · simp [onEntry, same]
  · simp [onEntry, fresh]

theorem onEntry_entries :
    (w.onEntry key change).entries =
      Function.update w.entries key (some (w.entryLocked key).1) := by
  rcases entryLocked_cases w key with ⟨found, same⟩ | ⟨-, fresh⟩
  · rw [← found, Function.update_eq_self]
    simp [onEntry, same]
  · simp [onEntry, fresh]

variable {w key}

theorem Separate.onEntry (separate : w.Separate) (key : Key) (change : Entry → Entry) :
    (w.onEntry key change).Separate := by
  rcases entryLocked_cases w key with ⟨-, same⟩ | ⟨absent, fresh⟩
  · refine ⟨?_, ?_⟩
    · simpa [Window.onEntry, same] using separate.allocated
    · simpa [Window.onEntry, same] using separate.unshared
  · refine ⟨?_, ?_⟩
    · intro other e found
      simp only [Window.onEntry, fresh] at found ⊢
      by_cases here : other = key
      · subst here
        rw [Function.update_self] at found
        cases found
        exact Nat.lt_succ_self _
      · rw [Function.update_of_ne here] at found
        exact Nat.lt_succ_of_lt (separate.allocated other e found)
    · intro other another e found shared
      simp only [Window.onEntry, fresh] at found shared
      by_cases here : other = key
      · by_cases there : another = key
        · rw [here, there]
        · rw [here, Function.update_self] at found
          rw [Function.update_of_ne there] at shared
          cases found
          exact absurd (separate.allocated another _ shared) (lt_irrefl _)
      · rw [Function.update_of_ne here] at found
        by_cases there : another = key
        · rw [there, Function.update_self] at shared
          cases shared
          exact absurd (separate.allocated other _ found) (lt_irrefl _)
        · rw [Function.update_of_ne there] at shared
          exact separate.unshared other another e found shared

theorem account_onEntry_self (w : Window Key) (key : Key) (change : Entry → Entry) :
    (w.onEntry key change).account key = change (w.account key) := by
  have found : (w.onEntry key change).entries key = some (w.entryLocked key).1 := by
    rw [onEntry_entries, Function.update_self]
  rw [account_of_some found]
  rcases entryLocked_cases w key with ⟨known, same⟩ | ⟨absent, fresh⟩
  · rw [account_of_some known]
    simp [onEntry, same]
  · rw [account_of_none absent]
    simp [onEntry, fresh]

theorem account_onEntry_of_ne (separate : w.Separate) (ne : other ≠ key) (change : Entry → Entry) :
    (w.onEntry key change).account other = w.account other := by
  have entries : (w.onEntry key change).entries other = w.entries other := by
    rw [onEntry_entries, Function.update_of_ne ne]
  cases known : w.entries other with
  | none => rw [account_of_none known, account_of_none (entries.trans known)]
  | some e =>
      rw [account_of_some known, account_of_some (entries.trans known)]
      rcases entryLocked_cases w key with ⟨found, same⟩ | ⟨absent, fresh⟩
      · have differ : e ≠ (w.entryLocked key).1 := fun shared =>
          ne (separate.unshared other key e known (shared ▸ found))
        simp [onEntry, same, Function.update_of_ne differ]
      · have differ : e ≠ w.allocated := (separate.allocated other e known).ne
        simp [onEntry, fresh, Function.update_of_ne differ]

end OnEntry

section Refused

/-- A refused reservation is a visit of its key. -/
theorem TryReserve_refused (refused : (w.TryReserve key now).1 = false) :
    (w.TryReserve key now).2 = w.pruneLocked key now := by
  unfold TryReserve at refused ⊢
  dsimp only at refused ⊢
  split at refused
  · cases refused
  · rename_i full
    rw [if_neg full]

/-- A refused request is a visit of its key. -/
theorem AllowAndCount_refused {stamp : Time} (refused : (w.AllowAndCount key now stamp).1 = false) :
    (w.AllowAndCount key now stamp).2 = w.pruneLocked key now := by
  unfold AllowAndCount at refused ⊢
  dsimp only at refused ⊢
  split at refused
  · cases refused
  · rename_i full
    rw [if_neg full]

/-- A reservation leaves the pointers of the other keys, as far as they are kept. -/
theorem entries_of_TryReserve (ne : other ≠ key)
    (found : (w.TryReserve key now).2.entries other = some e) : w.entries other = some e := by
  unfold TryReserve at found
  dsimp only at found
  split at found
  · simp only [onEntry_entries, Function.update_of_ne ne] at found
    exact entries_of_prune found
  · exact entries_of_prune found

theorem entries_of_AllowAndCount {stamp : Time} (ne : other ≠ key)
    (found : (w.AllowAndCount key now stamp).2.entries other = some e) :
    w.entries other = some e := by
  unfold AllowAndCount at found
  dsimp only at found
  split at found
  · simp only [onEntry_entries, Function.update_of_ne ne] at found
    exact entries_of_prune found
  · exact entries_of_prune found

end Refused

end Window

end TelemtPanel.RateLimit
