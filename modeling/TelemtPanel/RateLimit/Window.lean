import Mathlib

/-!
# The sliding-window limiter

A limiter counts, for every key, the failures or requests of the last window together
with the reservations that are still held.  The entry of a key is allocated when it is
first needed and dropped when a visit finds nothing in it; the function that ends a
reservation keeps the entry it was made with, whatever the table holds by then.

All calls run under one lock, so that a call is one step.  The readings of the clock
that a call makes are arguments of it.
-/

namespace TelemtPanel.RateLimit

universe u

/-- Nanoseconds, for instants and durations. -/
abbrev Time := ℤ

/-- `entry`. -/
structure Entry where
  counts : List Time
  inflight : ℤ
  deriving DecidableEq, Repr

/-- A function that `TryReserve` returned: the entry it captured, and whether its `once` is done. -/
structure Finish where
  entry : ℕ
  done : Bool
  deriving DecidableEq, Repr

/-- `Window`.  Entries are allocated one after the other and named by their number; the functions
returned for a key are kept in the order in which they were returned. -/
structure Window (Key : Type u) where
  entries : Key → Option ℕ
  heap : ℕ → Entry
  allocated : ℕ
  finishes : Key → List Finish
  limit : ℤ
  window : ℤ
  closed : Bool

/-- Stamps that are after the start of the window of an instant. -/
def recent (window : ℤ) (stamps : List Time) (now : Time) : List Time :=
  stamps.filter fun stamp => decide (now - window < stamp)

/-- `New`, which panics on an invalid window. -/
def New (Key : Type u) (limit window : ℤ) : Option (Window Key) :=
  if limit ≤ 0 ∨ window ≤ 0 then none
  else some ⟨fun _ => none, fun _ => ⟨[], 0⟩, 0, fun _ => [], limit, window, false⟩

namespace Window

variable {Key : Type u} [DecidableEq Key]

/-- The entry of a key, when there is one. -/
def entry? (w : Window Key) (key : Key) : Option Entry := (w.entries key).map w.heap

/-- `pruneLocked`. -/
def pruneLocked (w : Window Key) (key : Key) (now : Time) : Window Key :=
  match w.entries key with
  | none => w
  | some e =>
      let kept := recent w.window (w.heap e).counts now
      let w := { w with heap := Function.update w.heap e { w.heap e with counts := kept } }
      if kept = [] ∧ (w.heap e).inflight = 0 then
        { w with entries := Function.update w.entries key none }
      else w

/-- `availableLocked`, in the window that it has pruned. -/
def hasRoom (w : Window Key) (key : Key) : Bool :=
  !w.closed && ((w.entry? key).all fun e => decide (e.counts.length + e.inflight < w.limit))

/-- `entryLocked`. -/
def entryLocked (w : Window Key) (key : Key) : ℕ × Window Key :=
  match w.entries key with
  | some e => (e, w)
  | none =>
      (w.allocated, { w with
        heap := Function.update w.heap w.allocated ⟨[], 0⟩
        entries := Function.update w.entries key (some w.allocated)
        allocated := w.allocated + 1 })

/-- `Available`. -/
def Available (w : Window Key) (key : Key) (now : Time) : Bool × Window Key :=
  let w := w.pruneLocked key now
  (w.hasRoom key, w)

/-- Changes the entry of a key, which is allocated when there is none. -/
def onEntry (w : Window Key) (key : Key) (change : Entry → Entry) : Window Key :=
  let (e, w) := w.entryLocked key
  { w with heap := Function.update w.heap e (change (w.heap e)) }

/-- `TryReserve`. -/
def TryReserve (w : Window Key) (key : Key) (now : Time) : Bool × Window Key :=
  let w := w.pruneLocked key now
  if w.hasRoom key then
    let reserved := w.onEntry key fun e => { e with inflight := e.inflight + 1 }
    (true, { reserved with
      finishes := Function.update w.finishes key
        (w.finishes key ++ [⟨(w.entryLocked key).1, false⟩]) })
  else (false, w)

/-- `AllowAndCount`; a request that is admitted is counted at a second reading of the clock. -/
def AllowAndCount (w : Window Key) (key : Key) (now stamp : Time) : Bool × Window Key :=
  let w := w.pruneLocked key now
  if w.hasRoom key then
    (true, w.onEntry key fun e => { e with counts := e.counts ++ [stamp] })
  else (false, w)

/-- Calls the function that was returned for a reservation of a key. -/
def finish (w : Window Key) (key : Key) (n : ℕ) (failed : Bool) (stamp now : Time) :
    Bool × Window Key :=
  match (w.finishes key)[n]? with
  | none => (false, w)
  | some f =>
      if f.done then (true, w)
      else
        let e := w.heap f.entry
        let e := { e with inflight := e.inflight - 1 }
        let e := if failed then { e with counts := e.counts ++ [stamp] } else e
        let w := { w with
          heap := Function.update w.heap f.entry e
          finishes := Function.update w.finishes key ((w.finishes key).set n { f with done := true }) }
        (true, w.pruneLocked key now)

/-- One tick of `cleanup`: the keys in the order in which the table is iterated, each with the
reading of the clock that its visit makes. -/
def cleanup (w : Window Key) (visits : List (Key × Time)) : Window Key :=
  visits.foldl (fun w visit => w.pruneLocked visit.1 visit.2) w

/-- `Close`. -/
def Close (w : Window Key) : Window Key := { w with closed := true }

end Window

/-- Calls of a limiter with the readings of the clock. -/
inductive Call (Key : Type u) where
  | available (key : Key) (now : Time)
  | tryReserve (key : Key) (now : Time)
  | allowAndCount (key : Key) (now stamp : Time)
  | finish (key : Key) (n : ℕ) (failed : Bool) (stamp now : Time)
  | cleanup (visits : List (Key × Time))
  | close
  deriving DecidableEq

namespace Call

variable {Key : Type u}

/-- Readings of the clock that a call may make, in order. -/
def readings : Call Key → List Time
  | available _ now => [now]
  | tryReserve _ now => [now]
  | allowAndCount _ now stamp => [now, stamp]
  | finish _ _ failed stamp now => if failed then [stamp, now] else [now]
  | cleanup visits => visits.map (·.2)
  | close => []

/-- The key that a call is about. -/
def key? : Call Key → Option Key
  | available key _ => some key
  | tryReserve key _ => some key
  | allowAndCount key _ _ => some key
  | finish key _ _ _ _ => some key
  | cleanup _ => none
  | close => none

end Call

/-- The answer of a call and the window after it; what returns nothing answers true. -/
def Window.call {Key : Type u} [DecidableEq Key] (w : Window Key) : Call Key → Bool × Window Key
  | .available key now => w.Available key now
  | .tryReserve key now => w.TryReserve key now
  | .allowAndCount key now stamp => w.AllowAndCount key now stamp
  | .finish key n failed stamp now => w.finish key n failed stamp now
  | .cleanup visits => (true, w.cleanup visits)
  | .close => (true, w.Close)

end TelemtPanel.RateLimit
