import TelemtPanel.Auth.SessionStreams

/-!
# Runs of the guard

Only a login stores a session, only a stored session gets a stream, and a cancelled stream
writes at most one more frame.  While a call holds the lock, nothing else touches the registry
or deletes a session.
-/

namespace TelemtPanel.Auth

open TelemtPanel.Library

/-- Whether a call is one that may delete sessions in its next step. -/
def Call.deletes : Call → Prop
  | .expire _ _ => True
  | .revoke _ => True
  | .others _ => True
  | _ => False

/-- A call that is in the middle of its work. -/
def Call.started : Call → Prop
  | .revoked _ => True
  | .scan _ _ => True
  | _ => False

namespace System

section Moments

variable {start : System} {events : List Event}

/-- State at a moment of a run. -/
abbrev moment (start : System) (events : List Event) (m : ℕ) : System :=
  stateAt System.step start events m

end Moments

section Sessions

variable {system : System} {hash : String}

theorem sessions_advance (sid : ℕ) (phase : Phase) (change : Stream → Stream) :
    (system.advance sid phase change).sessions = system.sessions := by
  unfold advance
  split
  · rfl
  · split <;> rfl

/-- A login stores a session. -/
def Logs (event : Event) (hash : String) : Prop :=
  ∃ outcome, event = .login hash outcome ∧ outcome ≠ .failed

end Sessions

section Runs

variable {start : System} {events : List Event} {hash : String}

/-- A session with a hash is stored by a login between two moments. -/
def StoredAgain (events : List Event) (hash : String) (from_ until_ : ℕ) : Prop :=
  ∃ m event, from_ ≤ m ∧ m < until_ ∧ events[m]? = some event ∧ Logs event hash

theorem StoredAgain.mono {from_ until_ later : ℕ} (again : StoredAgain events hash from_ until_)
    (le : until_ ≤ later) : StoredAgain events hash from_ later := by
  rcases again with ⟨m, event, lower, upper, made, logs⟩
  exact ⟨m, event, lower, upper.trans_le le, made, logs⟩

/-- What has become of a stream that was cancelled earlier.  `again` says that its session has
been stored again since. -/
structure Late (again : Prop) (before later : Stream) : Prop where
  hash : later.hash = before.hash
  cancelled : later.cancelled = true
  waiting : later.phase = .tested ∨ later.phase = .checked →
    later.frames = before.frames ∧ later.extensions = before.extensions ∧
      (before.phase = .checked ∨ before.phase = .tested)
  passed : later.phase = .checked ∨ later.frames ≠ before.frames →
    before.phase = .checked ∨ (before.phase = .tested ∧ again)
  frames : later.frames = before.frames ∨ later.frames = before.frames + 1

theorem Late.refl {again : Prop} {stream : Stream} (cancelled : stream.cancelled = true) :
    Late again stream stream where
  hash := rfl
  cancelled := cancelled
  waiting := fun phase => ⟨rfl, rfl, phase.symm⟩
  passed := by
    rintro (checked | differ)
    · exact Or.inl checked
    · exact absurd rfl differ
  frames := Or.inl rfl

/-- A step of a cancelled stream: no test of the context passes any more. -/
theorem Late.move {again present : Prop} {before middle later : Stream}
    (late : Late again before middle) (moves : Moves present middle later)
    (stored : present → before.phase = .tested → again) : Late again before later := by
  have hash := moves.hash.trans late.hash
  have cancelled := moves.cancelled late.cancelled
  cases moves.writer with
  | keep phase frames extensions =>
      refine ⟨hash, cancelled, ?_, ?_, ?_⟩
      · rw [phase, frames, extensions]
        exact late.waiting
      · rw [phase, frames]
        exact late.passed
      · rw [frames]
        exact late.frames
  | stop phase frames extensions =>
      refine ⟨hash, cancelled, ?_, ?_, ?_⟩
      · simp [phase]
      · rw [frames, phase]
        rintro (⟨⟨⟩⟩ | differ)
        exact late.passed (Or.inr differ)
      · rw [frames]
        exact late.frames
  | extend idle phase frames extensions =>
      refine ⟨hash, cancelled, ?_, ?_, ?_⟩
      · rcases phase with phase | phase <;> simp [phase]
      · rw [frames]
        rintro (checked | differ)
        · rcases phase with phase | phase <;> simp [phase] at checked
        · exact late.passed (Or.inr differ)
      · rw [frames]
        exact late.frames
  | rest asked phase frames extensions =>
      refine ⟨hash, cancelled, ?_, ?_, ?_⟩
      · rcases phase with phase | phase <;> simp [phase]
      · rw [frames]
        rintro (checked | differ)
        · rcases phase with phase | phase <;> simp [phase] at checked
        · exact late.passed (Or.inr differ)
      · rw [frames]
        exact late.frames
  | test extended live phase frames extensions =>
      rw [late.cancelled] at live
      cases live
  | pass tested isPresent phase frames extensions =>
      rcases late.waiting (Or.inl tested) with ⟨sameFrames, sameExtensions, began⟩
      refine ⟨hash, cancelled, ?_, ?_, ?_⟩
      · intro _
        exact ⟨frames.trans sameFrames, extensions.trans sameExtensions, began⟩
      · intro _
        rcases began with checked | began
        · exact Or.inl checked
        · exact Or.inr ⟨began, stored isPresent began⟩
      · rw [frames]
        exact late.frames
  | write checked phase frames extensions =>
      rcases late.waiting (Or.inr checked) with ⟨sameFrames, -, -⟩
      refine ⟨hash, cancelled, ?_, ?_, ?_⟩
      · simp [phase]
      · intro _
        exact late.passed (Or.inl checked)
      · exact Or.inr (by rw [frames, sameFrames])

end Runs

section Registration

variable {system : System}

variable {start : System} {events : List Event}

end Registration

section Calls

variable {system : System} {hash : String}

theorem lock_of_busy {call other : Call} (holds : system.call = some call) :
    system.lock other = system := by
  unfold lock
  rw [holds]

theorem call_advance (sid : ℕ) (phase : Phase) (change : Stream → Stream) :
    (system.advance sid phase change).call = system.call ∧
      (system.advance sid phase change).registry = system.registry := by
  unfold advance
  split
  · exact ⟨rfl, rfl⟩
  · split <;> exact ⟨rfl, rfl⟩

/-- While a call holds the lock, everything else keeps the registry and deletes no session. -/
theorem step_of_busy {call : Call} (holds : system.call = some call) {event : Event}
    (other : ∀ readOk outcome order, event ≠ .proceed readOk outcome order) :
    (system.step event).call = some call ∧ (system.step event).registry = system.registry ∧
      ∀ hash, system.Stored hash → (system.step event).Stored hash := by
  have same : system.call = some call ∧ system.registry = system.registry ∧
      ∀ hash, system.Stored hash → system.Stored hash := ⟨holds, rfl, fun _ => id⟩
  have unchanged : ∀ next : System, next = system → next.call = some call ∧
      next.registry = system.registry ∧ ∀ hash, system.Stored hash → next.Stored hash := by
    rintro next rfl
    exact same
  have inserted : ∀ (hash : String) at_, ∀ kept, system.Stored kept →
      ({ system with sessions := system.sessions.insert hash at_ } : System).Stored kept := by
    rintro hash at_ kept ⟨lastSeen, known⟩
    by_cases here : hash = kept
    · exact ⟨at_, by simp [here]⟩
    · exact ⟨lastSeen, by rw [Table.lookup_insert, if_neg here, known]⟩
  have moved : ∀ sid phase change, (system.advance sid phase change).call = some call ∧
      (system.advance sid phase change).registry = system.registry ∧
        ∀ hash, system.Stored hash → (system.advance sid phase change).Stored hash := by
    intro sid phase change
    refine ⟨(call_advance _ _ _).1.trans holds, (call_advance _ _ _).2, ?_⟩
    rintro hash ⟨lastSeen, known⟩
    exact ⟨lastSeen, by rw [sessions_advance, known]⟩
  cases event with
  | login hash outcome =>
      simp only [step]
      split
      · exact same
      · exact ⟨holds, rfl, inserted hash _⟩
  | touch hash =>
      simp only [step]
      split
      · exact same
      · exact ⟨holds, rfl, inserted hash _⟩
  | wait elapsed => exact same
  | setTTL ttl => exact same
  | check hash => exact unchanged _ (lock_of_busy holds)
  | track hash alive =>
      simp only [step]
      split
      · exact unchanged _ (lock_of_busy holds)
      · exact same
  | revoke hash => exact unchanged _ (lock_of_busy holds)
  | revokeOthers keep => exact unchanged _ (lock_of_busy holds)
  | close => exact unchanged _ (by simp only [step, holds])
  | proceed readOk outcome order => exact absurd rfl (other readOk outcome order)
  | disconnect sid => exact same
  | header sid => exact moved _ _ _
  | extend sid => exact moved _ _ _
  | test sid => exact moved _ _ _
  | probe sid => exact moved _ _ _
  | checkStream sid =>
      simp only [step]
      split
      · exact same
      · split
        · exact unchanged _ (lock_of_busy holds)
        · exact same
  | frame sid => exact moved _ _ _
  | release sid =>
      simp only [step]
      split
      · exact same
      · split <;> exact same
  | remove sid => exact unchanged _ (by simp only [step, holds])

theorem call_lock_not_started {call found : Call} (free : system.call = none)
    (fresh : ¬call.started) (holds : (system.lock call).call = some found) : ¬found.started := by
  unfold lock at holds
  rw [free] at holds
  cases holds
  exact fresh

/-- A call does not begin in the middle of its work. -/
theorem call_step_not_started {event : Event} {found : Call} (free : system.call = none)
    (holds : (system.step event).call = some found) : ¬found.started := by
  have impossible : ∀ next : System, next.call = some found → next.call = system.call →
      ¬found.started := by
    intro next isFound same
    rw [same, free] at isFound
    cases isFound
  cases event with
  | login hash outcome =>
      simp only [step] at holds
      split at holds <;> exact impossible _ holds rfl
  | touch hash =>
      simp only [step] at holds
      split at holds <;> exact impossible _ holds rfl
  | wait elapsed => exact impossible _ holds rfl
  | setTTL ttl => exact impossible _ holds rfl
  | check hash => exact call_lock_not_started free id holds
  | track hash alive =>
      simp only [step] at holds
      split at holds
      · exact call_lock_not_started free id holds
      · exact impossible _ holds rfl
  | revoke hash => exact call_lock_not_started free id holds
  | revokeOthers keep => exact call_lock_not_started free id holds
  | close =>
      simp only [step, free] at holds
      exact impossible (system.cancelAll _) holds rfl
  | proceed readOk outcome order =>
      simp only [step, free] at holds
      exact impossible _ (free ▸ holds) rfl
  | disconnect sid => exact impossible (system.modify sid _) holds rfl
  | header sid => exact impossible _ holds (call_advance _ _ _).1
  | extend sid => exact impossible _ holds (call_advance _ _ _).1
  | test sid => exact impossible _ holds (call_advance _ _ _).1
  | probe sid => exact impossible _ holds (call_advance _ _ _).1
  | checkStream sid =>
      simp only [step] at holds
      split at holds
      · exact impossible _ holds rfl
      · split at holds
        · exact call_lock_not_started free id holds
        · exact impossible _ holds rfl
  | frame sid => exact impossible _ holds (call_advance _ _ _).1
  | release sid =>
      simp only [step] at holds
      split at holds
      · exact impossible _ holds rfl
      · split at holds
        · exact impossible (system.modify sid _) holds rfl
        · exact impossible _ holds rfl
  | remove sid =>
      simp only [step, free] at holds
      split at holds
      · split at holds
        · exact impossible (system.modify sid fun stream => { stream with removed := true })
            holds rfl
        · exact impossible _ (free ▸ holds) rfl
      · exact impossible _ (free ▸ holds) rfl

theorem call_refuse (purpose : Purpose) : (system.refuse hash purpose).call = none := by
  cases purpose <;> rfl

theorem call_pass_not_started {purpose : Purpose} {found : Call}
    (holds : (system.pass hash purpose).call = some found) : ¬found.started := by
  cases purpose with
  | track =>
      cases holds
      exact id
  | request => cases holds
  | stream sid => cases holds
  | retrack sid => cases holds

/-- How a call gets into the middle of its work. -/
theorem call_proceed_started {call found : Call} {readOk : Bool} {outcome : Outcome}
    {order : List String}
    (holds : (system.proceed readOk outcome order call).call = some found)
    (started : found.started) :
    (∃ hash, call = .revoke hash ∧ found = .revoked hash ∧ outcome = .ok) ∨
      (∃ keep, call = .others keep ∧ outcome = .ok ∧
        ∃ todo, found = .scan keep todo ∧ ∀ hash, hash ∈ system.registry.keys → hash ∈ todo) ∨
      ∃ keep hash todo, call = .scan keep (hash :: todo) ∧ found = .scan keep todo := by
  cases call with
  | get hash purpose =>
      simp only [proceed] at holds
      split at holds
      · rw [call_refuse] at holds
        cases holds
      split at holds
      · rw [call_refuse] at holds
        cases holds
      split at holds
      · cases holds
        exact absurd started id
      · exact absurd started (call_pass_not_started holds)
  | expire hash purpose =>
      rw [proceed, call_refuse] at holds
      cases holds
  | revoke hash =>
      simp only [proceed] at holds
      split at holds
      · rename_i isOk
        cases holds
        exact Or.inl ⟨hash, rfl, rfl, isOk⟩
      · cases holds
  | revoked hash => cases holds
  | others keep =>
      simp only [proceed] at holds
      split at holds
      · rename_i isOk
        cases holds
        refine Or.inr (Or.inl ⟨keep, rfl, isOk, _, rfl, ?_⟩)
        intro hash mem
        split
        · rename_i perm
          exact perm.mem_iff.mpr mem
        · exact mem
      · cases holds
  | scan keep todo =>
      cases todo with
      | nil => cases holds
      | cons hash todo =>
          simp only [proceed] at holds
          split at holds
          · cases holds
            exact Or.inr (Or.inr ⟨keep, hash, todo, rfl, rfl⟩)
          split at holds
          · cases holds
          split at holds
          · cases holds
            exact Or.inr (Or.inr ⟨keep, hash, todo, rfl, rfl⟩)
          · cases holds
            exact Or.inr (Or.inr ⟨keep, hash, todo, rfl, rfl⟩)

end Calls

end System

end TelemtPanel.Auth
