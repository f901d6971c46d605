import TelemtPanel.Library.History
import TelemtPanel.RateLimit.Account

/-!
# Exact admission

The number of a key is read off the calls alone: the reservations that were admitted and
not finished, and the failures and counted requests of the last window.  A limiter whose
clock does not go back admits exactly when this number is below the limit, although it
forgets old stamps and drops entries as it goes.

What the limiter holds for a key agrees with the calls in two ways: the reservations are
the same number, and the stamps show the same in every window that ends now or later.
-/

namespace TelemtPanel.RateLimit

open TelemtPanel.Library

universe u

/-- Calls with their answers, the newest first. -/
abbrev History (Key : Type u) := List (Call Key × Bool)

section History

variable {Key : Type u} [DecidableEq Key]

/-- A reservation of a key was admitted. -/
def Call.reserves (key : Key) : Call Key × Bool → Bool
  | (.tryReserve other _, true) => decide (other = key)
  | _ => false

/-- The function of a reservation was called. -/
def Call.finishes (key : Key) (n : ℕ) : Call Key × Bool → Bool
  | (.finish other m _ _ _, true) => decide (other = key ∧ m = n)
  | _ => false

/-- Number of reservations of a key that were admitted. -/
def reserved (key : Key) (history : History Key) : ℕ := history.countP (Call.reserves key)

/-- Whether a reservation of a key was finished. -/
def finished (key : Key) (n : ℕ) (history : History Key) : Bool :=
  history.any (Call.finishes key n)

/-- Number of reservations of a key that were admitted and not finished. -/
def unfinished (key : Key) (history : History Key) : ℕ :=
  ((Finset.range (reserved key history)).filter fun n => finished key n history = false).card

/-- What a call records for a key: a counted request, or a failure at the first call of the
function of a reservation. -/
def recorded (key : Key) (older : History Key) : Call Key × Bool → List Time
  | (.allowAndCount other _ stamp, true) => if other = key then [stamp] else []
  | (.finish other n true stamp _, true) =>
      if other = key ∧ finished key n older = false then [stamp] else []
  | _ => []

/-- Failures and counted requests of a key, the oldest first. -/
def stamps (key : Key) : History Key → List Time
  | [] => []
  | record :: older => stamps key older ++ recorded key older record

/-- Reservations not yet finished plus the failures and counted requests of the last window. -/
def number (window : ℤ) (key : Key) (history : History Key) (now : Time) : ℤ :=
  unfinished key history + (recent window (stamps key history) now).length

/-- The limiter was not closed. -/
def isOpen (history : History Key) : Bool := !history.any fun record => decide (record.1 = .close)

/-- When a call visits a key, the reading of the clock with which it leaves it. -/
def visit (key : Key) (older : History Key) : Call Key × Bool → Option Time
  | (.available other now, _) => if other = key then some now else none
  | (.tryReserve other now, _) => if other = key then some now else none
  | (.allowAndCount other now stamp, admitted) =>
      if other = key then some (if admitted then stamp else now) else none
  | (.finish other n _ _ now, called) =>
      if other = key ∧ called = true ∧ finished key n older = false then some now else none
  | (.cleanup visits, _) => (visits.reverse.find? fun visit => visit.1 = key).map (·.2)
  | (.close, _) => none

/-- The reading of the clock at the last visit of a key. -/
def lastVisit (key : Key) : History Key → Option Time
  | [] => none
  | record :: older => (visit key older record).or (lastVisit key older)

/-- A call is about a key, or closes the limiter. -/
def Call.concerns (key : Key) (call : Call Key) : Bool :=
  decide (call.key? = some key ∨ call = .close)

/-- What the calls say that a call is answered. -/
def answer (limit window : ℤ) (history : History Key) : Call Key → Bool
  | .available key now => isOpen history && decide (number window key history now < limit)
  | .tryReserve key now => isOpen history && decide (number window key history now < limit)
  | .allowAndCount key now _ => isOpen history && decide (number window key history now < limit)
  | .finish key n _ _ _ => decide (n < reserved key history)
  | .cleanup _ => true
  | .close => true

variable {key other : Key} {history older : History Key} {call : Call Key} {admitted : Bool}
  {n : ℕ} {stamp now : Time} {failed : Bool}

theorem reserved_cons (key : Key) (record : Call Key × Bool) (older : History Key) :
    reserved key (record :: older) =
      reserved key older + if Call.reserves key record = true then 1 else 0 :=
  List.countP_cons

theorem finished_cons (key : Key) (n : ℕ) (record : Call Key × Bool) (older : History Key) :
    finished key n (record :: older) = (Call.finishes key n record || finished key n older) :=
  List.any_cons

/-- Histories that agree on a key count alike. -/
theorem number_congr (window : ℤ) (sameReserved : reserved key history = reserved key older)
    (sameFinished : ∀ n, finished key n history = finished key n older)
    (sameStamps : stamps key history = stamps key older) :
    unfinished key history = unfinished key older ∧
      number window key history = number window key older := by
  have same : unfinished key history = unfinished key older := by
    simp only [unfinished, sameReserved, sameFinished]
  refine ⟨same, funext fun now => ?_⟩
  simp only [number, same, sameStamps]

/-- A call that records nothing for a key and neither makes nor ends a reservation. -/
theorem quiet (reserves : Call.reserves key (call, admitted) = false)
    (finishes : ∀ n, Call.finishes key n (call, admitted) = true → finished key n older = true)
    (records : recorded key older (call, admitted) = []) :
    reserved key ((call, admitted) :: older) = reserved key older ∧
      (∀ n, finished key n ((call, admitted) :: older) = finished key n older) ∧
      stamps key ((call, admitted) :: older) = stamps key older := by
  refine ⟨?_, fun n => ?_, ?_⟩
  · rw [reserved_cons, reserves]
    rfl
  · rw [finished_cons]
    cases first : Call.finishes key n (call, admitted) with
    | false => rfl
    | true => rw [finishes n first, Bool.or_true]
  · rw [stamps, records, List.append_nil]

/-- A call about another key leaves what is counted for a key. -/
theorem quiet_of_ne (ne : call.key? ≠ some key) (admitted : Bool) (older : History Key) :
    reserved key ((call, admitted) :: older) = reserved key older ∧
      (∀ n, finished key n ((call, admitted) :: older) = finished key n older) ∧
      stamps key ((call, admitted) :: older) = stamps key older := by
  cases call with
  | available other now =>
      exact quiet rfl (fun n ends => by cases ends) rfl
  | tryReserve other now =>
      have differ : other ≠ key := fun same => ne (congrArg some same)
      refine quiet ?_ (fun n ends => by cases ends) rfl
      cases admitted <;> simp [Call.reserves, differ]
  | allowAndCount other now stamp =>
      have differ : other ≠ key := fun same => ne (congrArg some same)
      refine quiet rfl (fun n ends => by cases ends) ?_
      cases admitted <;> simp [recorded, differ]
  | finish other m failed stamp now =>
      have differ : other ≠ key := fun same => ne (congrArg some same)
      refine quiet rfl (fun n ends => ?_) ?_
      · cases admitted <;> simp [Call.finishes, differ] at ends
      · cases admitted <;> cases failed <;> simp [recorded, differ]
  | cleanup visits => exact quiet rfl (fun n ends => by cases ends) rfl
  | close => exact quiet rfl (fun n ends => by cases ends) rfl

theorem isOpen_cons (call : Call Key) (admitted : Bool) (older : History Key) :
    isOpen ((call, admitted) :: older) = (decide (call ≠ .close) && isOpen older) := by
  simp [isOpen, Bool.not_or]

theorem unfinished_reserve (now : Time) (fresh : finished key (reserved key older) older = false) :
    unfinished key ((.tryReserve key now, true) :: older) = unfinished key older + 1 := by
  have reserves : reserved key ((.tryReserve key now, true) :: older) = reserved key older + 1 := by
    simp [reserved_cons, Call.reserves]
  have finishes : ∀ n, finished key n ((.tryReserve key now, true) :: older) =
      finished key n older := fun n => by simp [finished_cons, Call.finishes]
  simp only [unfinished, reserves, finishes, Finset.range_add_one, Finset.filter_insert, fresh,
    if_true]
  rw [Finset.card_insert_of_notMem (by simp)]

/-- The first call of the function of a reservation ends it. -/
theorem unfinished_finish (stamp now : Time) (failed : Bool) (handed : n < reserved key older)
    (first : finished key n older = false) :
    unfinished key ((.finish key n failed stamp now, true) :: older) + 1 =
      unfinished key older := by
  have reserves : reserved key ((.finish key n failed stamp now, true) :: older) =
      reserved key older := by simp [reserved_cons, Call.reserves]
  have erased : (Finset.range (reserved key older)).filter (fun m =>
        finished key m ((.finish key n failed stamp now, true) :: older) = false) =
      ((Finset.range (reserved key older)).filter fun m => finished key m older = false).erase n := by
    ext m
    simp only [finished_cons, Call.finishes, Finset.mem_filter, Finset.mem_erase, true_and,
      Bool.or_eq_false_iff, decide_eq_false_iff_not]
    constructor
    · rintro ⟨inRange, differ, left⟩
      exact ⟨fun same => differ same.symm, inRange, left⟩
    · rintro ⟨differ, inRange, left⟩
      exact ⟨inRange, fun same => differ same.symm, left⟩
  rw [unfinished, reserves, erased, Finset.card_erase_add_one
    (Finset.mem_filter.mpr ⟨Finset.mem_range.mpr handed, first⟩)]
  rfl

end History

section Recent

variable {window : ℤ} {items : List Time} {now later : Time}

theorem recent_append (window : ℤ) (items others : List Time) (now : Time) :
    recent window (items ++ others) now = recent window items now ++ recent window others now :=
  List.filter_append ..

/-- Forgetting what is too old does not show in a later window. -/
theorem recent_recent (window : ℤ) (items : List Time) (le : now ≤ later) :
    recent window (recent window items now) later = recent window items later := by
  rw [recent, recent, List.filter_filter]
  refine List.filter_congr fun stamp _ => ?_
  rw [Bool.and_eq_left_iff_imp, decide_eq_true_iff, decide_eq_true_iff]
  exact (sub_le_sub_right le window).trans_lt

theorem recent_length_anti (window : ℤ) (items : List Time) (le : now ≤ later) :
    (recent window items later).length ≤ (recent window items now).length := by
  rw [← recent_recent window items le]
  exact List.length_filter_le _ _

end Recent

section Tracks

variable {Key : Type u} [DecidableEq Key]

/-- A limiter holds what its history counts, in every window that ends at an instant or later. -/
structure Tracks (limit window : ℤ) (w : Window Key) (history : History Key) (now : Time) :
    Prop where
  separate : w.Separate
  limit_eq : w.limit = limit
  window_eq : w.window = window
  closed : w.closed = !isOpen history
  handed : ∀ key, (w.finishes key).length = reserved key history
  done : ∀ key (n : ℕ) f, (w.finishes key)[n]? = some f → f.done = finished key n history
  held : ∀ key (n : ℕ) f, (w.finishes key)[n]? = some f → f.done = false →
    w.entries key = some f.entry
  made : ∀ key n, finished key n history = true → n < reserved key history
  inflight : ∀ key, (w.account key).inflight = unfinished key history
  counts : ∀ key later, now ≤ later →
    recent window (w.account key).counts later = recent window (stamps key history) later
  bounded : ∀ key later, now ≤ later → number window key history later ≤ limit

namespace Tracks

variable {limit window : ℤ} {w : Window Key} {history : History Key} {now later : Time}
  {key other : Key} {call : Call Key} {admitted : Bool}

theorem at_later (tracks : Tracks limit window w history now) (le : now ≤ later) :
    Tracks limit window w history later where
  __ := tracks
  counts key instant after := tracks.counts key instant (le.trans after)
  bounded key instant after := tracks.bounded key instant (le.trans after)

/-- A reservation that is held keeps the entry of its key in use. -/
theorem unfinished_of_held (tracks : Tracks limit window w history now) {n : ℕ} {f : Finish}
    (found : (w.finishes key)[n]? = some f) (open_ : f.done = false) :
    0 < unfinished key history := by
  refine Finset.card_pos.mpr ⟨n, Finset.mem_filter.mpr ⟨Finset.mem_range.mpr ?_, ?_⟩⟩
  · rw [← tracks.handed]
    exact (List.getElem?_eq_some_iff.mp found).1
  · rw [← tracks.done key n f found, open_]

/-- A visit of a key loses nothing. -/
theorem prune (tracks : Tracks limit window w history now) (key : Key) :
    Tracks limit window (w.pruneLocked key now) history now where
  separate := tracks.separate.prune key now
  limit_eq := (Window.pruneLocked_limit ..).trans tracks.limit_eq
  window_eq := (Window.pruneLocked_window ..).trans tracks.window_eq
  closed := (Window.pruneLocked_closed ..).trans tracks.closed
  handed other := by
    rw [Window.pruneLocked_finishes]
    exact tracks.handed other
  done other n f found := by
    rw [Window.pruneLocked_finishes] at found
    exact tracks.done other n f found
  held other n f found open_ := by
    rw [Window.pruneLocked_finishes] at found
    have pointer := tracks.held other n f found open_
    rw [Window.pruneLocked_entries]
    split
    · rename_i empty
      have differ : other ≠ key := by
        rintro rfl
        have used := tracks.unfinished_of_held found open_
        rw [tracks.inflight] at empty
        omega
      rwa [Function.update_of_ne differ]
    · exact pointer
  made := tracks.made
  inflight other := by
    by_cases here : other = key
    · subst here
      rw [Window.account_prune_self]
      exact tracks.inflight other
    · rw [Window.account_prune_of_ne tracks.separate here]
      exact tracks.inflight other
  counts other instant after := by
    by_cases here : other = key
    · subst here
      rw [Window.account_prune_self, tracks.window_eq, recent_recent window _ after]
      exact tracks.counts other instant after
    · rw [Window.account_prune_of_ne tracks.separate here]
      exact tracks.counts other instant after
  bounded := tracks.bounded

/-- A key that is still in the table after a visit counts for something. -/
theorem kept_of_prune (tracks : Tracks limit window w history now) {e : ℕ}
    (found : (w.pruneLocked key now).entries key = some e) : 0 < number window key history now := by
  rw [Window.pruneLocked_entries] at found
  split at found
  · rw [Function.update_self] at found
    cases found
  · rename_i used
    rw [tracks.window_eq, tracks.counts key now le_rfl, tracks.inflight] at used
    by_contra none
    refine used ⟨List.length_eq_zero_iff.mp ?_, ?_⟩
    · unfold number at none
      omega
    · unfold number at none
      omega

/-- A call that nothing is counted of. -/
theorem recordClosed (tracks : Tracks limit window w history now) {closed : Bool}
    (isClosed : closed = !isOpen ((call, admitted) :: history))
    (quiet : ∀ key, reserved key ((call, admitted) :: history) = reserved key history ∧
      (∀ n, finished key n ((call, admitted) :: history) = finished key n history) ∧
      stamps key ((call, admitted) :: history) = stamps key history) :
    Tracks limit window { w with closed } ((call, admitted) :: history) now where
  separate := ⟨tracks.separate.allocated, tracks.separate.unshared⟩
  limit_eq := tracks.limit_eq
  window_eq := tracks.window_eq
  closed := isClosed
  handed key := (tracks.handed key).trans (quiet key).1.symm
  done key n f found := (tracks.done key n f found).trans ((quiet key).2.1 n).symm
  held := tracks.held
  made key n known := by
    rw [(quiet key).2.1] at known
    rw [(quiet key).1]
    exact tracks.made key n known
  inflight key := by
    rw [(number_congr window (quiet key).1 (quiet key).2.1 (quiet key).2.2).1]
    exact tracks.inflight key
  counts key instant after := by
    rw [(quiet key).2.2]
    exact tracks.counts key instant after
  bounded key instant after := by
    rw [(number_congr window (quiet key).1 (quiet key).2.1 (quiet key).2.2).2]
    exact tracks.bounded key instant after

theorem record (tracks : Tracks limit window w history now) (isOpen_ : call ≠ .close)
    (quiet : ∀ key, reserved key ((call, admitted) :: history) = reserved key history ∧
      (∀ n, finished key n ((call, admitted) :: history) = finished key n history) ∧
      stamps key ((call, admitted) :: history) = stamps key history) :
    Tracks limit window w ((call, admitted) :: history) now := by
  have same : w.closed = !isOpen ((call, admitted) :: history) := ?_
  · exact tracks.recordClosed same quiet
  rw [isOpen_cons, decide_eq_true isOpen_, Bool.true_and]
  exact tracks.closed

/-- A call that changes the entry of its key as it is counted. -/
theorem change (tracks : Tracks limit window w history now) (about : call.key? = some key)
    {update : Entry → Entry} {functions : List Finish}
    (inflight : (update (w.account key)).inflight = unfinished key ((call, admitted) :: history))
    (counts : ∀ later, now ≤ later → recent window (update (w.account key)).counts later =
      recent window (stamps key ((call, admitted) :: history)) later)
    (bounded : ∀ later, now ≤ later →
      number window key ((call, admitted) :: history) later ≤ limit)
    (handed : functions.length = reserved key ((call, admitted) :: history))
    (done : ∀ (n : ℕ) f, functions[n]? = some f →
      f.done = finished key n ((call, admitted) :: history))
    (held : ∀ (n : ℕ) f, functions[n]? = some f → f.done = false →
      f.entry = (w.entryLocked key).1)
    (made : ∀ n, finished key n ((call, admitted) :: history) = true →
      n < reserved key ((call, admitted) :: history)) :
    Tracks limit window
      { w.onEntry key update with finishes := Function.update w.finishes key functions }
      ((call, admitted) :: history) now := by
  have quiet : ∀ {other}, other ≠ key →
      reserved other ((call, admitted) :: history) = reserved other history ∧
      (∀ n, finished other n ((call, admitted) :: history) = finished other n history) ∧
      stamps other ((call, admitted) :: history) = stamps other history :=
    fun differ => quiet_of_ne (fun same => differ (Option.some.inj (same.symm.trans about)))
      admitted history
  have account : ∀ other, Window.account
      { w.onEntry key update with finishes := Function.update w.finishes key functions } other =
      (w.onEntry key update).account other := fun _ => rfl
  have separate := tracks.separate.onEntry key update
  refine
    { separate := ⟨separate.allocated, separate.unshared⟩
      limit_eq := (Window.onEntry_limit w key update).trans tracks.limit_eq
      window_eq := (Window.onEntry_window w key update).trans tracks.window_eq
      closed := ?_, handed := ?_, done := ?_, held := ?_, made := ?_, inflight := ?_,
      counts := ?_, bounded := ?_ }
  · have open_ : call ≠ .close := by
      rintro rfl
      cases about
    rw [isOpen_cons, decide_eq_true open_, Bool.true_and, ← tracks.closed]
    exact Window.onEntry_closed w key update
  · intro other
    by_cases here : other = key
    · subst here
      simpa using handed
    · simp only [Function.update_of_ne here, (quiet here).1]
      exact tracks.handed other
  · intro other n f found
    by_cases here : other = key
    · subst here
      exact done n f (by simpa using found)
    · rw [(quiet here).2.1]
      exact tracks.done other n f (by simpa [Function.update_of_ne here] using found)
  · intro other n f found open_
    simp only [Window.onEntry_entries]
    by_cases here : other = key
    · subst here
      rw [Function.update_self, held n f (by simpa using found) open_]
    · rw [Function.update_of_ne here]
      exact tracks.held other n f (by simpa [Function.update_of_ne here] using found) open_
  · intro other n known
    by_cases here : other = key
    · subst here
      exact made n known
    · rw [(quiet here).2.1] at known
      rw [(quiet here).1]
      exact tracks.made other n known
  · intro other
    rw [account]
    by_cases here : other = key
    · subst here
      rw [Window.account_onEntry_self]
      exact inflight
    · rw [Window.account_onEntry_of_ne tracks.separate here,
        (number_congr window (quiet here).1 (quiet here).2.1 (quiet here).2.2).1]
      exact tracks.inflight other
  · intro other instant after
    rw [account]
    by_cases here : other = key
    · subst here
      rw [Window.account_onEntry_self]
      exact counts instant after
    · rw [Window.account_onEntry_of_ne tracks.separate here, (quiet here).2.2]
      exact tracks.counts other instant after
  · intro other instant after
    by_cases here : other = key
    · subst here
      exact bounded instant after
    · rw [(number_congr window (quiet here).1 (quiet here).2.1 (quiet here).2.2).2]
      exact tracks.bounded other instant after

/-- After a visit a limiter has room exactly when the number of the key is below the limit. -/
theorem hasRoom (tracks : Tracks limit window w history now) (positive : 0 < limit) (key : Key) :
    (w.pruneLocked key now).hasRoom key =
      (isOpen history && decide (number window key history now < limit)) := by
  rw [Window.hasRoom_eq (by rwa [Window.pruneLocked_limit, tracks.limit_eq]),
    Window.pruneLocked_closed, tracks.closed, Bool.not_not, Window.account_prune_self,
    Window.pruneLocked_limit, tracks.limit_eq, tracks.window_eq, tracks.counts key now le_rfl,
    tracks.inflight]
  simp only [number, add_comm]

theorem number_anti (window : ℤ) (key : Key) (history : History Key) (le : now ≤ later) :
    number window key history later ≤ number window key history now := by
  have shorter := recent_length_anti window (stamps key history) le
  unfold number
  omega

/-- `TryReserve` tracks its calls. -/
theorem tryReserve (tracks : Tracks limit window w history now) (positive : 0 < limit)
    (key : Key) :
    Tracks limit window (w.TryReserve key now).2
      ((.tryReserve key now, (w.TryReserve key now).1) :: history) now := by
  have visited := tracks.prune key
  have room := tracks.hasRoom positive key
  unfold Window.TryReserve
  dsimp only
  split
  · rename_i admitted
    rw [room, Bool.and_eq_true, decide_eq_true_iff] at admitted
    have fresh : finished key (reserved key history) history = false := by
      by_contra known
      exact absurd (visited.made key _ (Bool.not_eq_false _ ▸ known)) (lt_irrefl _)
    have reserves : reserved key ((.tryReserve key now, true) :: history) =
        reserved key history + 1 := by simp [reserved_cons, Call.reserves]
    have finishes : ∀ n, finished key n ((.tryReserve key now, true) :: history) =
        finished key n history := fun n => by simp [finished_cons, Call.finishes]
    have records : stamps key ((.tryReserve key now, true) :: history) = stamps key history := by
      simp [stamps, recorded]
    refine visited.change rfl ?_ ?_ ?_ ?_ ?_ ?_ ?_
    · rw [unfinished_reserve now fresh, Nat.cast_succ, ← visited.inflight]
    · intro instant after
      rw [records]
      exact visited.counts key instant after
    · intro instant after
      have before := number_anti window key history after
      simp only [number, records, unfinished_reserve now fresh] at before admitted ⊢
      omega
    · rw [List.length_append, visited.handed, reserves, List.length_singleton]
    · intro n f found
      rw [finishes]
      rw [List.getElem?_append] at found
      split at found
      · exact visited.done key n f found
      · rename_i last
        rw [List.getElem?_singleton] at found
        split at found
        · cases found
          have same : n = reserved key history := by
            rw [← visited.handed]
            omega
          rw [same, fresh]
        · cases found
    · intro n f found open_
      rw [List.getElem?_append] at found
      split at found
      · rw [Window.entryLocked_of_some (visited.held key n f found open_)]
      · rw [List.getElem?_singleton] at found
        split at found
        · cases found
          rfl
        · cases found
    · intro n known
      rw [finishes] at known
      rw [reserves]
      exact Nat.lt_succ_of_lt (visited.made key n known)
  · refine visited.record (by simp) fun other => ?_
    exact quiet rfl (fun n ends => by cases ends) rfl

/-- `AllowAndCount` tracks its calls. -/
theorem allowAndCount (tracks : Tracks limit window w history now) (positive : 0 < limit)
    (key : Key) (le : now ≤ later) :
    Tracks limit window (w.AllowAndCount key now later).2
      ((.allowAndCount key now later, (w.AllowAndCount key now later).1) :: history) later := by
  have visited := tracks.prune key
  have room := tracks.hasRoom positive key
  unfold Window.AllowAndCount
  dsimp only
  split
  · rename_i admitted
    rw [room, Bool.and_eq_true, decide_eq_true_iff] at admitted
    have reserves : reserved key ((.allowAndCount key now later, true) :: history) =
        reserved key history := by simp [reserved_cons, Call.reserves]
    have finishes : ∀ n, finished key n ((.allowAndCount key now later, true) :: history) =
        finished key n history := fun n => by simp [finished_cons, Call.finishes]
    have records : stamps key ((.allowAndCount key now later, true) :: history) =
        stamps key history ++ [later] := by simp [stamps, recorded]
    have same : unfinished key ((.allowAndCount key now later, true) :: history) =
        unfinished key history := by simp only [unfinished, reserves, finishes]
    have kept : Function.update (w.pruneLocked key now).finishes key
        ((w.pruneLocked key now).finishes key) = (w.pruneLocked key now).finishes :=
      Function.update_eq_self ..
    have changed := @change _ _ _ _ _ _ _ key (.allowAndCount key now later) true
      (visited.at_later le) rfl (fun e => { e with counts := e.counts ++ [later] })
      ((w.pruneLocked key now).finishes key) ?_ ?_ ?_ ?_ ?_ ?_ ?_
    · rw [kept, ← Window.onEntry_finishes (w.pruneLocked key now) key
        fun e => { e with counts := e.counts ++ [later] }] at changed
      exact changed
    · rw [same]
      exact visited.inflight key
    · intro instant after
      rw [records]
      simp only [recent_append]
      rw [visited.counts key instant (le.trans after)]
    · intro instant after
      have before := number_anti window key history (le.trans after)
      have one : (recent window [later] instant).length ≤ 1 := List.length_filter_le _ _
      simp only [number, records, same, recent_append, List.length_append] at before admitted ⊢
      omega
    · rw [reserves]
      exact visited.handed key
    · intro n f found
      rw [finishes]
      exact visited.done key n f found
    · intro n f found open_
      rw [Window.entryLocked_of_some (visited.held key n f found open_)]
    · intro n known
      rw [finishes] at known
      rw [reserves]
      exact visited.made key n known
  · refine (visited.record (by simp) fun other => ?_).at_later le
    exact quiet rfl (fun n ends => by cases ends) rfl

/-- The function of a reservation that was finished before. -/
theorem quiet_finish {n : ℕ} (again : finished key n history = true) (failed : Bool)
    (stamp now : Time) (admitted : Bool) (other : Key) :
    reserved other ((.finish key n failed stamp now, admitted) :: history) =
        reserved other history ∧
      (∀ m, finished other m ((.finish key n failed stamp now, admitted) :: history) =
        finished other m history) ∧
      stamps other ((.finish key n failed stamp now, admitted) :: history) =
        stamps other history := by
  refine quiet rfl (fun m ends => ?_) ?_
  · cases admitted
    · cases ends
    · rcases of_decide_eq_true ends with ⟨rfl, rfl⟩
      exact again
  · cases admitted <;> cases failed <;> try rfl
    simp only [recorded]
    refine if_neg ?_
    rintro ⟨rfl, first⟩
    rw [again] at first
    cases first

/-- The first call of the function of a reservation, before it visits its key. -/
theorem ended (tracks : Tracks limit window w history now) {n : ℕ} {f : Finish}
    (found : (w.finishes key)[n]? = some f) (open_ : f.done = false) (failed : Bool)
    (stamp : Time) :
    Tracks limit window
      { w.onEntry key fun e =>
          { counts := if failed then e.counts ++ [stamp] else e.counts
            inflight := e.inflight - 1 } with
        finishes := Function.update w.finishes key ((w.finishes key).set n { f with done := true }) }
      ((.finish key n failed stamp now, true) :: history) now := by
  have handed : n < reserved key history := by
    rw [← tracks.handed]
    exact (List.getElem?_eq_some_iff.mp found).1
  have first : finished key n history = false := by rw [← tracks.done key n f found, open_]
  have less := unfinished_finish stamp now failed handed first
  have reserves : reserved key ((.finish key n failed stamp now, true) :: history) =
      reserved key history := by simp [reserved_cons, Call.reserves]
  have finishes : ∀ m, finished key m ((.finish key n failed stamp now, true) :: history) =
      (decide (n = m) || finished key m history) := fun m => by
    simp [finished_cons, Call.finishes]
  have records : stamps key ((.finish key n failed stamp now, true) :: history) =
      stamps key history ++ if failed then [stamp] else [] := by
    cases failed <;> simp [stamps, recorded, first]
  refine tracks.change rfl ?_ ?_ ?_ ?_ ?_ ?_ ?_
  · dsimp only
    rw [tracks.inflight]
    omega
  · intro instant after
    rw [records]
    cases failed with
    | false =>
        rw [if_neg Bool.false_ne_true, if_neg Bool.false_ne_true, List.append_nil]
        exact tracks.counts key instant after
    | true =>
        rw [if_pos rfl, if_pos rfl, recent_append, recent_append, tracks.counts key instant after]
  · intro instant after
    have before := tracks.bounded key instant after
    have one : (recent window (if failed then [stamp] else []) instant).length ≤ 1 :=
      (List.length_filter_le _ _).trans (by cases failed <;> simp)
    simp only [number, records, recent_append, List.length_append] at before ⊢
    omega
  · rw [List.length_set, reserves]
    exact tracks.handed key
  · intro m g known
    rw [finishes]
    rw [List.getElem?_set] at known
    split at known
    · rename_i same
      split at known
      · cases known
        rw [decide_eq_true same, Bool.true_or]
      · cases known
    · rename_i differ
      rw [decide_eq_false differ, Bool.false_or]
      exact tracks.done key m g known
  · intro m g known stillOpen
    rw [List.getElem?_set] at known
    split at known
    · split at known
      · cases known
        cases stillOpen
      · cases known
    · rw [Window.entryLocked_of_some (tracks.held key m g known stillOpen)]
  · intro m known
    rw [finishes, Bool.or_eq_true, decide_eq_true_iff] at known
    rw [reserves]
    rcases known with rfl | known
    · exact handed
    · exact tracks.made key m known

/-- What the function of a reservation does. -/
theorem finish_cases (tracks : Tracks limit window w history now) (key : Key) (n : ℕ)
    (failed : Bool) (stamp instant : Time) :
    reserved key history ≤ n ∧ w.finish key n failed stamp instant = (false, w) ∨
      finished key n history = true ∧ w.finish key n failed stamp instant = (true, w) ∨
      n < reserved key history ∧ finished key n history = false ∧
        ∃ f, (w.finishes key)[n]? = some f ∧ f.done = false ∧
        w.finish key n failed stamp instant =
          (true, Window.pruneLocked { w.onEntry key fun e =>
            { counts := if failed then e.counts ++ [stamp] else e.counts
              inflight := e.inflight - 1 } with
            finishes := Function.update w.finishes key
              ((w.finishes key).set n { f with done := true }) } key instant) := by
  unfold Window.finish
  cases found : (w.finishes key)[n]? with
  | none =>
      refine .inl ⟨?_, rfl⟩
      rw [← tracks.handed]
      exact List.getElem?_eq_none_iff.mp found
  | some f =>
      have known := tracks.done key n f found
      dsimp only
      cases ended : f.done with
      | true =>
          refine .inr (.inl ⟨by rw [← known, ended], ?_⟩)
          rfl
      | false =>
          refine .inr (.inr ⟨?_, by rw [← known, ended], f, rfl, ended, ?_⟩)
          · rw [← tracks.handed]
            exact (List.getElem?_eq_some_iff.mp found).1
          · rw [Window.onEntry_of_some (tracks.held key n f found ended)]
            cases failed <;> rfl

/-- The function of a reservation tracks its calls. -/
theorem finish (tracks : Tracks limit window w history now) (key : Key) (n : ℕ) (failed : Bool)
    (stamp : Time) :
    Tracks limit window (w.finish key n failed stamp now).2
      ((.finish key n failed stamp now, (w.finish key n failed stamp now).1) :: history) now := by
  rcases tracks.finish_cases key n failed stamp now with ⟨-, same⟩ | ⟨again, same⟩ |
    ⟨-, -, f, found, open_, same⟩
  · rw [same]
    refine tracks.record (by simp) fun other => quiet rfl (fun m ends => by cases ends) ?_
    cases failed <;> rfl
  · rw [same]
    exact tracks.record (by simp) (quiet_finish again failed stamp now true)
  · rw [same]
    exact (tracks.ended found open_ failed stamp).prune key

end Tracks

end Tracks

end TelemtPanel.RateLimit
