import TelemtPanel.Auth.SessionGuard

/-!
# What a step does to a stream

A step of the guard or of a writer changes a stream in one of a few ways.  In particular a
cancelled stream stays cancelled and passes no test of its context any more, and the check
before a frame only passes while the session is in the store.
-/

namespace TelemtPanel.Auth

open TelemtPanel.Library

/-- Ways in which the writer of a stream goes on, where `present` says that the session of the
stream is in the store. -/
inductive WriterMoves (present : Prop) (before later : Stream) : Prop
  | keep (phase : later.phase = before.phase) (frames : later.frames = before.frames)
      (extensions : later.extensions = before.extensions)
  | stop (phase : later.phase = .ended) (frames : later.frames = before.frames)
      (extensions : later.extensions = before.extensions)
  | extend (idle : before.phase = .idle) (phase : later.phase = .idle ∨ later.phase = .extended)
      (frames : later.frames = before.frames)
      (extensions : later.extensions = before.extensions + 1)
  | rest (asked : before.phase = .idle ∨ before.phase = .probing)
      (phase : later.phase = .idle ∨ later.phase = .probing) (frames : later.frames = before.frames)
      (extensions : later.extensions = before.extensions)
  | test (extended : before.phase = .extended) (live : before.cancelled = false)
      (phase : later.phase = .tested) (frames : later.frames = before.frames)
      (extensions : later.extensions = before.extensions)
  | pass (tested : before.phase = .tested) (stored : present) (phase : later.phase = .checked)
      (frames : later.frames = before.frames) (extensions : later.extensions = before.extensions)
  | write (checked : before.phase = .checked) (phase : later.phase = .idle)
      (frames : later.frames = before.frames + 1)
      (extensions : later.extensions = before.extensions)

/-- Ways in which a stream changes in a step. -/
structure Moves (present : Prop) (before later : Stream) : Prop where
  hash : later.hash = before.hash
  cancelled : before.cancelled = true → later.cancelled = true
  writer : WriterMoves present before later

theorem Moves.refl (present : Prop) (stream : Stream) : Moves present stream stream :=
  ⟨rfl, id, .keep rfl rfl rfl⟩

theorem Moves.cancel (present : Prop) (stream : Stream) : Moves present stream stream.cancel :=
  ⟨rfl, fun _ => rfl, .keep rfl rfl rfl⟩

theorem Stream.moves_passed {present : Prop} (stored : present) (stream : Stream) :
    Moves present stream stream.passed := by
  unfold Stream.passed
  split
  · rename_i tested
    exact ⟨rfl, id, .pass tested stored rfl rfl rfl⟩
  split
  · rename_i probing
    exact ⟨rfl, id, .rest (Or.inr probing) (Or.inl rfl) rfl rfl⟩
  · exact .refl _ _

namespace System

/-- Whether the session of a hash is in the store. -/
def Stored (system : System) (hash : String) : Prop :=
  ∃ lastSeen, system.sessions[hash]? = some lastSeen

/-- Every stream is still there, and has changed in one of the known ways. -/
def Evolves (system next : System) : Prop :=
  ∀ sid stream, system.streams sid = some stream →
    ∃ later, next.streams sid = some later ∧ Moves (system.Stored stream.hash) stream later

/-- Some streams are cancelled, and nothing else happens to any. -/
def Cancels (system next : System) : Prop :=
  ∀ sid stream, system.streams sid = some stream →
    next.streams sid = some stream ∨ next.streams sid = some stream.cancel

variable {system next : System}

theorem cancels_of_streams_eq (same : next.streams = system.streams) : Cancels system next :=
  fun _ _ known => Or.inl (same ▸ known)

theorem Cancels.evolves (cancels : Cancels system next) : Evolves system next := by
  intro sid stream known
  rcases cancels sid stream known with same | cancelled
  · exact ⟨stream, same, .refl _ _⟩
  · exact ⟨stream.cancel, cancelled, .cancel _ _⟩

theorem Cancels.unlock (cancels : Cancels system next) : Cancels system next.unlock := cancels

theorem Cancels.cancelAll (cancels : Cancels system next) (sids : Finset ℕ) :
    Cancels system (next.cancelAll sids) := by
  intro sid stream known
  simp only [System.cancelAll]
  rcases cancels sid stream known with same | cancelled
  · rw [same]
    split
    · exact Or.inr rfl
    · exact Or.inl rfl
  · rw [cancelled]
    split
    · exact Or.inr rfl
    · exact Or.inr rfl

theorem Cancels.cancelLocked (cancels : Cancels system next) (hash : String) :
    Cancels system (next.cancelLocked hash) :=
  cancels.cancelAll _

theorem Cancels.deleteSession (cancels : Cancels system next) (hash : String) (outcome : Outcome) :
    Cancels system (next.deleteSession hash outcome) := by
  unfold System.deleteSession
  split
  · exact cancels
  · exact cancels

theorem cancels_deleteOtherSessions (keep : String) (outcome : Outcome) :
    Cancels system (system.deleteOtherSessions keep outcome) := by
  unfold deleteOtherSessions
  split
  · exact cancels_of_streams_eq rfl
  · exact cancels_of_streams_eq rfl

theorem modify_streams_self (sid : ℕ) (change : Stream → Stream) :
    (system.modify sid change).streams sid = (system.streams sid).map change := by
  simp [modify]

theorem modify_streams_of_ne {sid other : ℕ} (differ : other ≠ sid) (change : Stream → Stream) :
    (system.modify sid change).streams other = system.streams other := by
  simp [modify, differ]

/-- One stream changes in a known way after some have been cancelled. -/
theorem Cancels.modify (cancels : Cancels system next) {sid : ℕ} {change : Stream → Stream}
    (moves : ∀ stream, system.streams sid = some stream →
      Moves (system.Stored stream.hash) stream (change stream) ∧
        Moves (system.Stored stream.hash) stream (change stream.cancel)) :
    Evolves system (next.modify sid change) := by
  intro other stream known
  by_cases same : other = sid
  · subst same
    rw [modify_streams_self]
    rcases cancels other stream known with kept | cancelled
    · rw [kept]
      exact ⟨_, rfl, (moves stream known).1⟩
    · rw [cancelled]
      exact ⟨_, rfl, (moves stream known).2⟩
  · rw [modify_streams_of_ne same]
    exact cancels.evolves other stream known

/-- A stream that is refused stops, and a stream that is being registered is cancelled. -/
theorem Cancels.refuse (cancels : Cancels system next) (hash : String) (purpose : Purpose) :
    Evolves system (next.refuse hash purpose) := by
  cases purpose with
  | request => exact cancels.unlock.evolves
  | stream sid =>
      exact cancels.modify fun stream _ =>
        ⟨⟨rfl, id, .stop rfl rfl rfl⟩, ⟨rfl, fun _ => rfl, .stop rfl rfl rfl⟩⟩
  | track => exact cancels.unlock.evolves
  | retrack sid => exact ((cancels.cancelAll {sid}).cancelLocked hash).unlock.evolves

/-- A writer in a phase that goes on in a known way. -/
theorem evolves_advance {sid : ℕ} {phase : Phase} {change : Stream → Stream}
    (moves : ∀ stream, stream.phase = phase → ∀ present, Moves present stream (change stream)) :
    Evolves system (system.advance sid phase change) := by
  unfold advance
  split
  · exact (cancels_of_streams_eq rfl).evolves
  · rename_i stream known
    split
    · rename_i here
      intro other current isCurrent
      by_cases same : other = sid
      · subst same
        rw [known] at isCurrent
        cases isCurrent
        rw [modify_streams_self, known]
        exact ⟨_, rfl, moves stream here _⟩
      · rw [modify_streams_of_ne same]
        exact ⟨current, isCurrent, .refl _ _⟩
    · exact (cancels_of_streams_eq rfl).evolves

end System

end TelemtPanel.Auth
