import TelemtPanel.Auth.StreamMoves

/-!
# The registry of streams

Every stream that is not cancelled is registered under its hash, and everything registered is
a stream that has not been removed.  This invariant is what makes a revocation reach all
streams of a session.
-/

namespace TelemtPanel.Auth

open TelemtPanel.Library

/-- Stream on which a call of `checkLocked` works, if it works on one. -/
def Purpose.sid? : Purpose → Option ℕ
  | .stream sid => some sid
  | .retrack sid => some sid
  | _ => none

/-- Hash and purpose of the check that holds the lock. -/
def Call.checking? : Call → Option (String × Purpose)
  | .get hash purpose => some (hash, purpose)
  | .expire hash purpose => some (hash, purpose)
  | _ => none

namespace System

/-- A stream is being registered by the call that holds the lock. -/
def Registering (system : System) (hash : String) (sid : ℕ) : Prop :=
  system.call.bind Call.checking? = some (hash, .retrack sid)

/-- The registry holds exactly what it has to. -/
structure Tracked (system : System) : Prop where
  live : ∀ sid stream, system.streams sid = some stream → stream.cancelled = false →
    sid ∈ system.entries stream.hash
  known : ∀ hash, ∀ sid ∈ system.entries hash, ∃ stream, system.streams sid = some stream ∧
    stream.hash = hash ∧ stream.removed = false ∧
      (stream.opened = true ∨ system.Registering hash sid)
  nonempty : ∀ (hash : String) sids, system.registry[hash]? = some sids → sids ≠ ∅
  fresh : ∀ sid, system.nextID ≤ sid → system.streams sid = none
  asked : ∀ hash purpose sid, system.call.bind Call.checking? = some (hash, purpose) →
    purpose.sid? = some sid → ∃ stream, system.streams sid = some stream ∧ stream.hash = hash
  released : ∀ sid stream, system.streams sid = some stream → stream.releasing = true →
    stream.cancelled = true

section Changes

variable {system : System}

/-- The invariant only looks at the registry, the streams and the call. -/
theorem Tracked.congr {next : System} (tracked : system.Tracked)
    (registry : next.registry = system.registry) (streams : next.streams = system.streams)
    (nextID : next.nextID = system.nextID)
    (call : next.call.bind Call.checking? = system.call.bind Call.checking?) : next.Tracked := by
  have entries : next.entries = system.entries := by
    funext hash
    simp only [System.entries, registry]
  refine ⟨?_, ?_, ?_, ?_, ?_, ?_⟩
  · rw [streams, entries]
    exact tracked.live
  · rw [streams, entries]
    simp only [Registering, call]
    exact tracked.known
  · rw [registry]
    exact tracked.nonempty
  · rw [streams, nextID]
    exact tracked.fresh
  · rw [streams, call]
    exact tracked.asked
  · rw [streams]
    exact tracked.released

/-- The lock can be released unless a stream is being registered. -/
theorem Tracked.endCall (tracked : system.Tracked) {call : Option Call}
    (idle : call.bind Call.checking? = none)
    (settled : ∀ hash sid, system.Registering hash sid → sid ∉ system.entries hash ∨
      ∀ stream, system.streams sid = some stream → stream.opened = true) :
    ({ system with call := call } : System).Tracked := by
  refine ⟨tracked.live, ?_, tracked.nonempty, tracked.fresh, ?_, tracked.released⟩
  · intro hash sid mem
    rcases tracked.known hash sid mem with ⟨stream, isStream, sameHash, kept, opened | registering⟩
    · exact ⟨stream, isStream, sameHash, kept, Or.inl opened⟩
    · rcases settled hash sid registering with absent | opened
      · exact absurd mem absent
      · exact ⟨stream, isStream, sameHash, kept, Or.inl (opened stream isStream)⟩
  · intro hash purpose sid checking
    simp only [idle] at checking
    cases checking

/-- A change of one stream that keeps its registration. -/
theorem Tracked.modify (tracked : system.Tracked) {sid : ℕ} {change : Stream → Stream}
    (hash : ∀ stream, (change stream).hash = stream.hash)
    (removed : ∀ stream, (change stream).removed = stream.removed)
    (opened : ∀ stream, stream.opened = true → (change stream).opened = true)
    (cancelled : ∀ stream, stream.cancelled = true → (change stream).cancelled = true)
    (released : ∀ stream, (stream.releasing = true → stream.cancelled = true) →
      (change stream).releasing = true → (change stream).cancelled = true) :
    (system.modify sid change).Tracked := by
  have before : ∀ other later, (system.modify sid change).streams other = some later →
      ∃ stream, system.streams other = some stream ∧
        (later = stream ∨ later = change stream) := by
    intro other later isLater
    by_cases same : other = sid
    · subst same
      rw [modify_streams_self, Option.map_eq_some_iff] at isLater
      rcases isLater with ⟨stream, isStream, rfl⟩
      exact ⟨stream, isStream, Or.inr rfl⟩
    · rw [modify_streams_of_ne same] at isLater
      exact ⟨later, isLater, Or.inl rfl⟩
  have next : ∀ other stream, system.streams other = some stream →
      ∃ later, (system.modify sid change).streams other = some later ∧
        (later = stream ∨ later = change stream) := by
    intro other stream isStream
    by_cases same : other = sid
    · subst same
      rw [modify_streams_self, isStream]
      exact ⟨_, rfl, Or.inr rfl⟩
    · rw [modify_streams_of_ne same]
      exact ⟨stream, isStream, Or.inl rfl⟩
  refine ⟨?_, ?_, tracked.nonempty, ?_, ?_, ?_⟩
  · intro other later isLater live
    rcases before other later isLater with ⟨stream, isStream, rfl | rfl⟩
    · exact tracked.live other later isStream live
    · rw [hash]
      apply tracked.live other stream isStream
      by_contra dead
      rw [cancelled stream (by simpa using dead)] at live
      cases live
  · intro hash' other mem
    rcases tracked.known hash' other mem with ⟨stream, isStream, sameHash, kept, state⟩
    rcases next other stream isStream with ⟨later, isLater, rfl | rfl⟩
    · exact ⟨later, isLater, sameHash, kept, state⟩
    · refine ⟨_, isLater, (hash stream).trans sameHash, (removed stream).trans kept, ?_⟩
      exact state.imp (opened stream) id
  · intro other le
    have none := tracked.fresh other le
    by_cases same : other = sid
    · subst same
      rw [modify_streams_self, none]
      rfl
    · rw [modify_streams_of_ne same, none]
  · intro hash' purpose other checking asks
    rcases tracked.asked hash' purpose other checking asks with ⟨stream, isStream, sameHash⟩
    rcases next other stream isStream with ⟨later, isLater, rfl | rfl⟩
    · exact ⟨later, isLater, sameHash⟩
    · exact ⟨_, isLater, (hash stream).trans sameHash⟩
  · intro other later isLater releasing
    rcases before other later isLater with ⟨stream, isStream, rfl | rfl⟩
    · exact tracked.released other later isStream releasing
    · exact released stream (tracked.released other stream isStream) releasing

theorem Tracked.goto (tracked : system.Tracked) (sid : ℕ) (change : Stream → Phase) :
    (system.modify sid fun stream => stream.goto (change stream)).Tracked :=
  tracked.modify (fun _ => rfl) (fun _ => rfl) (fun _ => id) (fun _ => id) (fun _ => id)

theorem Tracked.advance (tracked : system.Tracked) {sid : ℕ} {phase : Phase}
    {change : Stream → Stream} (modified : (system.modify sid change).Tracked) :
    (system.advance sid phase change).Tracked := by
  unfold System.advance
  split
  · exact tracked
  · split
    · exact modified
    · exact tracked

theorem entries_cancelLocked (hash other : String) :
    (system.cancelLocked hash).entries other =
      if hash = other then ∅ else system.entries other := by
  simp only [entries, cancelLocked, cancelAll, Table.lookup_erase]
  split <;> rfl

theorem streams_cancelAll (sids : Finset ℕ) (sid : ℕ) :
    (system.cancelAll sids).streams sid =
      if sid ∈ sids then (system.streams sid).map Stream.cancel else system.streams sid := rfl

/-- Streams that are cancelled may be taken out of the registry. -/
theorem Tracked.unregister (tracked : system.Tracked) {sids : Finset ℕ}
    {registry : Table String (Finset ℕ)}
    (kept : ∀ hash sid, sid ∈ (registry[hash]?).getD ∅ → sid ∈ system.entries hash)
    (gone : ∀ hash sid, sid ∈ system.entries hash → sid ∉ (registry[hash]?).getD ∅ → sid ∈ sids)
    (nonempty : ∀ (hash : String) rest, registry[hash]? = some rest → rest ≠ ∅) :
    ({ system.cancelAll sids with registry := registry } : System).Tracked := by
  have before : ∀ sid later, (system.cancelAll sids).streams sid = some later →
      ∃ stream, system.streams sid = some stream ∧
        ((sid ∈ sids ∧ later = stream.cancel) ∨ (sid ∉ sids ∧ later = stream)) := by
    intro sid later isLater
    rw [streams_cancelAll] at isLater
    split at isLater
    · rename_i mem
      rw [Option.map_eq_some_iff] at isLater
      rcases isLater with ⟨stream, isStream, rfl⟩
      exact ⟨stream, isStream, Or.inl ⟨mem, rfl⟩⟩
    · rename_i notMem
      exact ⟨later, isLater, Or.inr ⟨notMem, rfl⟩⟩
  have next : ∀ sid stream, system.streams sid = some stream →
      ∃ later, (system.cancelAll sids).streams sid = some later ∧ later.hash = stream.hash ∧
        later.removed = stream.removed ∧ later.opened = stream.opened := by
    intro sid stream isStream
    rw [streams_cancelAll, isStream]
    split
    · exact ⟨_, rfl, rfl, rfl, rfl⟩
    · exact ⟨_, rfl, rfl, rfl, rfl⟩
  refine ⟨?_, ?_, nonempty, ?_, ?_, ?_⟩
  · intro sid later isLater live
    rcases before sid later isLater with ⟨stream, isStream, ⟨-, rfl⟩ | ⟨notMem, rfl⟩⟩
    · cases live
    · by_contra absent
      exact notMem (gone _ sid (tracked.live sid later isStream live) absent)
  · intro hash sid mem
    rcases tracked.known hash sid (kept hash sid mem) with ⟨stream, isStream, sameHash, notGone, st⟩
    rcases next sid stream isStream with ⟨later, isLater, hashLater, removedLater, openedLater⟩
    exact ⟨later, isLater, hashLater.trans sameHash, removedLater.trans notGone, openedLater ▸ st⟩
  · intro sid le
    have none := tracked.fresh sid le
    change (system.cancelAll sids).streams sid = _
    rw [streams_cancelAll, none]
    split <;> rfl
  · intro hash purpose sid checking asks
    rcases tracked.asked hash purpose sid checking asks with ⟨stream, isStream, sameHash⟩
    rcases next sid stream isStream with ⟨later, isLater, hashLater, -⟩
    exact ⟨later, isLater, hashLater.trans sameHash⟩
  · intro sid later isLater releasing
    rcases before sid later isLater with ⟨stream, isStream, ⟨-, rfl⟩ | ⟨-, rfl⟩⟩
    · rfl
    · exact tracked.released sid later isStream releasing

theorem Tracked.cancelAll (tracked : system.Tracked) (sids : Finset ℕ) :
    (system.cancelAll sids).Tracked :=
  tracked.unregister (fun _ _ mem => mem) (fun _ _ mem absent => absurd mem absent)
    tracked.nonempty

theorem Tracked.cancelLocked (tracked : system.Tracked) (hash : String) :
    (system.cancelLocked hash).Tracked := by
  have lookup : ∀ other : String, (system.registry.erase hash)[other]? =
      if hash = other then none else system.registry[other]? := Table.lookup_erase _ _
  apply tracked.unregister
  · intro other sid mem
    rw [lookup] at mem
    split at mem
    · simp at mem
    · exact mem
  · intro other sid mem absent
    rw [lookup] at absent
    split at absent
    · rename_i same
      exact same ▸ mem
    · exact absurd mem absent
  · intro other rest isRest
    rw [lookup] at isRest
    split at isRest
    · cases isRest
    · exact tracked.nonempty other rest isRest

/-- A call takes the lock. -/
theorem Tracked.lock (tracked : system.Tracked) {call : Call}
    (asked : ∀ hash purpose, call.checking? = some (hash, purpose) →
      ∀ sid, purpose.sid? = some sid →
        ∃ stream, system.streams sid = some stream ∧ stream.hash = hash) :
    (system.lock call).Tracked := by
  unfold System.lock
  split
  · rename_i free
    refine ⟨tracked.live, ?_, tracked.nonempty, tracked.fresh, ?_, tracked.released⟩
    · intro hash sid mem
      rcases tracked.known hash sid mem with ⟨stream, isStream, sameHash, kept, opened | busy⟩
      · exact ⟨stream, isStream, sameHash, kept, Or.inl opened⟩
      · rw [Registering, free] at busy
        cases busy
    · intro hash purpose sid checking
      exact asked hash purpose checking sid
  · exact tracked

/-- A check of a stream that is not being registered ends. -/
theorem Tracked.endCheck (tracked : system.Tracked) {hash : String} {purpose : Purpose}
    (checking : system.call.bind Call.checking? = some (hash, purpose))
    (other : ∀ sid, purpose ≠ .retrack sid) : system.unlock.Tracked := by
  apply tracked.endCall rfl
  intro hash' sid registering
  rw [Registering, checking] at registering
  cases registering
  exact absurd rfl (other sid)

theorem Tracked.refuse (tracked : system.Tracked) {hash : String} {purpose : Purpose}
    (checking : system.call.bind Call.checking? = some (hash, purpose)) :
    (system.refuse hash purpose).Tracked := by
  cases purpose with
  | request => exact tracked.endCheck checking (by simp)
  | stream sid => exact (tracked.goto sid fun _ => .ended).endCheck checking (by simp)
  | track => exact tracked.endCheck checking (by simp)
  | retrack sid =>
      apply ((tracked.cancelAll {sid}).cancelLocked hash).endCall rfl
      intro hash' other registering
      have same : system.call.bind Call.checking? = some (hash', .retrack other) := registering
      rw [checking] at same
      cases same
      refine Or.inl ?_
      rw [entries_cancelLocked, if_pos rfl]
      simp

theorem entries_register (hash other : String) :
    (system.register hash).entries other =
      if hash = other then insert system.nextID (system.entries hash) else system.entries other := by
  simp only [entries, register, Table.lookup_insert]
  split <;> rfl

theorem Tracked.register (tracked : system.Tracked) {hash : String}
    (checking : system.call.bind Call.checking? = some (hash, .track)) :
    (system.register hash).Tracked := by
  have fresh := tracked.fresh system.nextID le_rfl
  have grows : ∀ other, system.entries other ⊆ (system.register hash).entries other := by
    intro other
    rw [entries_register]
    split
    · rename_i same
      exact same ▸ Finset.subset_insert _ _
    · exact subset_rfl
  have old : ∀ sid stream, system.streams sid = some stream →
      (system.register hash).streams sid = some stream := by
    intro sid stream isStream
    have differ : sid ≠ system.nextID := by
      rintro rfl
      rw [fresh] at isStream
      cases isStream
    simpa [System.register, differ] using isStream
  refine ⟨?_, ?_, ?_, ?_, ?_, ?_⟩
  · intro sid stream isStream live
    simp only [System.register, Function.update_apply] at isStream
    split at isStream
    · rename_i same
      cases isStream
      subst same
      rw [entries_register, if_pos rfl]
      exact Finset.mem_insert_self _ _
    · exact grows _ (tracked.live sid stream isStream live)
  · intro other sid mem
    have cases_ : (other = hash ∧ sid = system.nextID) ∨ sid ∈ system.entries other := by
      rw [entries_register] at mem
      split at mem
      · rename_i same
        subst same
        rcases Finset.mem_insert.mp mem with new | before
        · exact Or.inl ⟨rfl, new⟩
        · exact Or.inr before
      · exact Or.inr mem
    rcases cases_ with ⟨rfl, rfl⟩ | before
    · exact ⟨_, Function.update_self _ _ _, rfl, rfl, Or.inr rfl⟩
    · rcases tracked.known other sid before with ⟨stream, isStream, sameHash, kept, opened | busy⟩
      · exact ⟨stream, old sid stream isStream, sameHash, kept, Or.inl opened⟩
      · rw [Registering, checking] at busy
        cases busy
  · intro other sids isEntry
    simp only [System.register, Table.lookup_insert] at isEntry
    split at isEntry
    · cases isEntry
      exact (Finset.insert_nonempty _ _).ne_empty
    · exact tracked.nonempty other sids isEntry
  · intro sid le
    have differ : sid ≠ system.nextID := by
      rintro rfl
      simp [System.register] at le
    simpa [System.register, differ] using tracked.fresh sid (Nat.le_of_succ_le le)
  · intro other purpose sid asking asks
    cases asking
    cases asks
    exact ⟨_, Function.update_self _ _ _, rfl⟩
  · intro sid stream isStream releasing
    simp only [System.register, Function.update_apply] at isStream
    split at isStream
    · cases isStream
      cases releasing
    · exact tracked.released sid stream isStream releasing

theorem Tracked.pass (tracked : system.Tracked) {hash : String} {purpose : Purpose}
    (checking : system.call.bind Call.checking? = some (hash, purpose)) :
    (system.pass hash purpose).Tracked := by
  cases purpose with
  | request => exact tracked.endCheck checking (by simp)
  | stream sid =>
      have shape : ∀ stream : Stream, stream.passed = stream.goto stream.passed.phase := by
        intro stream
        unfold Stream.passed
        split
        · rfl
        split
        · rfl
        · rfl
      have modified : (system.modify sid Stream.passed).Tracked := by
        rw [funext shape]
        exact tracked.goto sid fun stream => stream.passed.phase
      exact modified.endCheck checking (by simp)
  | track => exact tracked.register checking
  | retrack sid =>
      have modified : (system.modify sid fun stream => { stream with opened := true }).Tracked :=
        tracked.modify (fun _ => rfl) (fun _ => rfl) (fun _ _ => rfl) (fun _ => id) (fun _ => id)
      apply modified.endCall rfl
      intro hash' other registering
      have same : system.call.bind Call.checking? = some (hash', .retrack other) := registering
      rw [checking] at same
      cases same
      refine Or.inr ?_
      intro stream isStream
      rw [modify_streams_self, Option.map_eq_some_iff] at isStream
      rcases isStream with ⟨_, -, rfl⟩
      rfl

end Changes

section Steps

variable {system : System}

theorem Tracked.deleteSession (tracked : system.Tracked) (hash : String) (outcome : Outcome) :
    (system.deleteSession hash outcome).Tracked := by
  unfold System.deleteSession
  split
  · exact tracked
  · exact tracked.congr rfl rfl rfl rfl

theorem Tracked.deleteOtherSessions (tracked : system.Tracked) (keep : String)
    (outcome : Outcome) : (system.deleteOtherSessions keep outcome).Tracked := by
  unfold System.deleteOtherSessions
  split
  · exact tracked
  · exact tracked.congr rfl rfl rfl rfl

theorem call_deleteSession (hash : String) (outcome : Outcome) :
    (system.deleteSession hash outcome).call = system.call := by
  unfold System.deleteSession
  split <;> rfl

theorem call_deleteOtherSessions (keep : String) (outcome : Outcome) :
    (system.deleteOtherSessions keep outcome).call = system.call := by
  unfold System.deleteOtherSessions
  split <;> rfl

/-- A call that does not check a session goes on or ends. -/
theorem Tracked.nextCall (tracked : system.Tracked)
    (idle : system.call.bind Call.checking? = none) {call : Option Call}
    (next : call.bind Call.checking? = none) : ({ system with call := call } : System).Tracked := by
  apply tracked.endCall next
  intro hash sid registering
  rw [Registering, idle] at registering
  cases registering

theorem Tracked.proceed (tracked : system.Tracked) {call : Call} (holds : system.call = some call)
    (readOk : Bool) (outcome : Outcome) (order : List String) :
    (system.proceed readOk outcome order call).Tracked := by
  cases call with
  | get hash purpose =>
      have checking : system.call.bind Call.checking? = some (hash, purpose) := by
        rw [holds]
        rfl
      simp only [System.proceed]
      split
      · exact tracked.refuse checking
      split
      · exact (tracked.cancelLocked hash).refuse checking
      split
      · exact tracked.congr rfl rfl rfl checking.symm
      · exact tracked.pass checking
  | expire hash purpose =>
      apply ((tracked.deleteSession hash outcome).cancelLocked hash).refuse
      change (system.deleteSession hash outcome).call.bind Call.checking? = _
      rw [call_deleteSession, holds]
      rfl
  | revoke hash =>
      apply (tracked.deleteSession hash outcome).nextCall
      · rw [call_deleteSession, holds]
        rfl
      · split <;> rfl
  | revoked hash =>
      apply (tracked.cancelLocked hash).nextCall
      · change system.call.bind Call.checking? = none
        rw [holds]
        rfl
      · rfl
  | others keep =>
      apply (tracked.deleteOtherSessions keep outcome).nextCall
      · rw [call_deleteOtherSessions, holds]
        rfl
      · split <;> rfl
  | scan keep todo =>
      have idle : system.call.bind Call.checking? = none := by
        rw [holds]
        rfl
      cases todo with
      | nil => exact tracked.nextCall idle rfl
      | cons hash todo =>
          simp only [System.proceed]
          split
          · exact tracked.nextCall idle rfl
          split
          · exact tracked.nextCall idle rfl
          split
          · exact (tracked.cancelLocked hash).nextCall idle rfl
          · exact tracked.nextCall idle rfl

theorem lookup_unregister (hash other : String) (sid : ℕ) :
    (system.unregister hash sid)[other]? =
      if hash = other then
        (if (system.entries hash).erase sid = ∅ then none
          else some ((system.entries hash).erase sid))
      else system.registry[other]? := by
  unfold System.unregister
  by_cases empty : (system.entries hash).erase sid = ∅
  · simp only [empty, if_true, Table.lookup_erase]
  · simp only [empty, if_false, Table.lookup_insert]

theorem entries_unregister (hash other : String) (sid : ℕ) :
    (system.unregister hash sid)[other]?.getD ∅ =
      if hash = other then (system.entries hash).erase sid else system.entries other := by
  rw [lookup_unregister]
  split
  · split
    · rename_i empty
      exact empty.symm
    · rfl
  · rfl

/-- A released stream is taken out of the registry. -/
theorem Tracked.remove (tracked : system.Tracked) {sid : ℕ} {stream : Stream}
    (isStream : system.streams sid = some stream) (cancelled : stream.cancelled = true) :
    ({ system.modify sid (fun stream => { stream with removed := true }) with
      registry := system.unregister stream.hash sid } : System).Tracked := by
  have before : ∀ other later, (system.modify sid fun stream =>
      { stream with removed := true }).streams other = some later →
      (other = sid ∧ later = { stream with removed := true }) ∨
        (other ≠ sid ∧ system.streams other = some later) := by
    intro other later isLater
    by_cases same : other = sid
    · subst same
      rw [modify_streams_self, isStream] at isLater
      cases isLater
      exact Or.inl ⟨rfl, rfl⟩
    · rw [modify_streams_of_ne same] at isLater
      exact Or.inr ⟨same, isLater⟩
  refine ⟨?_, ?_, ?_, ?_, ?_, ?_⟩
  · intro other later isLater live
    rcases before other later isLater with ⟨rfl, rfl⟩ | ⟨differ, isOther⟩
    · rw [cancelled] at live
      cases live
    · have mem := tracked.live other later isOther live
      change other ∈ (system.unregister stream.hash sid)[later.hash]?.getD ∅
      rw [entries_unregister]
      split
      · rename_i same
        exact Finset.mem_erase.mpr ⟨differ, same ▸ mem⟩
      · exact mem
  · intro hash other mem
    change other ∈ (system.unregister stream.hash sid)[hash]?.getD ∅ at mem
    rw [entries_unregister] at mem
    have kept : other ≠ sid ∧ other ∈ system.entries hash := by
      split at mem
      · rename_i same
        exact ⟨Finset.ne_of_mem_erase mem, same ▸ Finset.mem_of_mem_erase mem⟩
      · rename_i differ
        refine ⟨?_, mem⟩
        rintro rfl
        rcases tracked.known hash other mem with ⟨found, isFound, sameHash, -⟩
        rw [isStream] at isFound
        cases isFound
        exact differ sameHash
    rcases tracked.known hash other kept.2 with ⟨found, isFound, rest⟩
    refine ⟨found, ?_, rest⟩
    change (system.modify sid _).streams other = _
    rw [modify_streams_of_ne kept.1]
    exact isFound
  · intro hash sids isEntry
    change (system.unregister stream.hash sid)[hash]? = some sids at isEntry
    rw [lookup_unregister] at isEntry
    split at isEntry
    · split at isEntry
      · cases isEntry
      · rename_i nonempty
        cases isEntry
        exact nonempty
    · exact tracked.nonempty hash sids isEntry
  · intro other le
    have none := tracked.fresh other le
    change (system.modify sid _).streams other = _
    rw [modify_streams_of_ne _, none]
    rintro rfl
    rw [none] at isStream
    cases isStream
  · intro hash purpose other checking asks
    rcases tracked.asked hash purpose other checking asks with ⟨found, isFound, sameHash⟩
    by_cases same : other = sid
    · subst same
      rw [isStream] at isFound
      cases isFound
      refine ⟨{ stream with removed := true }, ?_, sameHash⟩
      change (system.modify other _).streams other = some { stream with removed := true }
      rw [modify_streams_self, isStream]
      rfl
    · refine ⟨found, ?_, sameHash⟩
      change (system.modify sid _).streams other = _
      rw [modify_streams_of_ne same]
      exact isFound
  · intro other later isLater releasing
    rcases before other later isLater with ⟨rfl, rfl⟩ | ⟨-, isOther⟩
    · exact cancelled
    · exact tracked.released other later isOther releasing

/-- All streams are cancelled and unregistered. -/
theorem Tracked.close (tracked : system.Tracked) :
    ({ system.cancelAll (system.registry.keys.toFinset.biUnion system.entries) with
      closed := true
      registry := ∅ } : System).Tracked := by
  have unregistered : ({ system.cancelAll (system.registry.keys.toFinset.biUnion system.entries)
      with registry := ∅ } : System).Tracked := by
    apply tracked.unregister
    · simp
    · intro hash sid mem _
      refine Finset.mem_biUnion.mpr ⟨hash, ?_, mem⟩
      rw [List.mem_toFinset, Std.ExtTreeMap.mem_keys]
      by_contra absent
      rw [System.entries, Std.ExtTreeMap.getElem?_eq_none absent] at mem
      simp at mem
    · simp
  exact unregistered.congr rfl rfl rfl rfl

theorem Tracked.step (tracked : system.Tracked) (event : Event) : (system.step event).Tracked := by
  cases event with
  | login hash outcome =>
      simp only [System.step]
      split
      · exact tracked
      · exact tracked.congr rfl rfl rfl rfl
  | touch hash =>
      simp only [System.step]
      split
      · exact tracked
      · exact tracked.congr rfl rfl rfl rfl
  | wait elapsed => exact tracked.congr rfl rfl rfl rfl
  | setTTL ttl => exact tracked.congr rfl rfl rfl rfl
  | check hash =>
      apply tracked.lock
      rintro _ _ ⟨⟩ sid ⟨⟩
  | track hash alive =>
      simp only [System.step]
      split
      · apply tracked.lock
        rintro _ _ ⟨⟩ sid ⟨⟩
      · exact tracked
  | revoke hash =>
      apply tracked.lock
      rintro _ _ ⟨⟩
  | revokeOthers keep =>
      apply tracked.lock
      rintro _ _ ⟨⟩
  | close =>
      simp only [System.step]
      split
      · exact tracked.close
      · exact tracked
  | proceed readOk outcome order =>
      simp only [System.step]
      split
      · exact tracked
      · rename_i call holds
        exact tracked.proceed holds readOk outcome order
  | disconnect sid =>
      exact tracked.modify (fun _ => rfl) (fun _ => rfl) (fun _ => id) (fun _ _ => rfl)
        (fun _ _ _ => rfl)
  | header sid =>
      exact tracked.advance (tracked.modify (fun _ => rfl) (fun _ => rfl) (fun _ => id)
        (fun _ => id) (fun _ => id))
  | extend sid =>
      exact tracked.advance (tracked.modify (fun _ => rfl) (fun _ => rfl) (fun _ => id)
        (fun _ => id) (fun _ => id))
  | test sid => exact tracked.advance (tracked.goto sid _)
  | probe sid => exact tracked.advance (tracked.goto sid _)
  | checkStream sid =>
      simp only [System.step]
      split
      · exact tracked
      · rename_i stream isStream
        split
        · apply tracked.lock
          rintro _ _ ⟨⟩ other ⟨⟩
          exact ⟨stream, isStream, rfl⟩
        · exact tracked
  | frame sid =>
      exact tracked.advance (tracked.modify (fun _ => rfl) (fun _ => rfl) (fun _ => id)
        (fun _ => id) (fun _ => id))
  | release sid =>
      simp only [System.step]
      split
      · exact tracked
      · split
        · exact tracked.modify (fun _ => rfl) (fun _ => rfl) (fun _ => id) (fun _ _ => rfl)
            (fun _ _ _ => rfl)
        · exact tracked
  | remove sid =>
      simp only [System.step]
      split
      · rename_i stream free isStream
        split
        · rename_i releasing
          exact tracked.remove isStream (tracked.released sid stream isStream releasing)
        · exact tracked
      · exact tracked

theorem Tracked.evolves_pass (tracked : system.Tracked) {hash : String} {purpose : Purpose}
    (checking : system.call.bind Call.checking? = some (hash, purpose))
    (stored : system.Stored hash) : Evolves system (system.pass hash purpose) := by
  have self : Cancels system system := cancels_of_streams_eq rfl
  cases purpose with
  | request => exact self.unlock.evolves
  | stream sid =>
      rcases tracked.asked hash _ sid checking rfl with ⟨asking, isAsking, rfl⟩
      apply self.modify
      intro stream isStream
      rw [isAsking] at isStream
      cases isStream
      refine ⟨asking.moves_passed stored, ?_⟩
      have moves := asking.cancel.moves_passed stored
      have passed : asking.cancel.passed.cancelled = true := by
        unfold Stream.passed
        split
        · rfl
        split <;> rfl
      refine ⟨moves.hash, fun _ => passed, ?_⟩
      cases moves.writer with
      | keep phase frames extensions => exact .keep phase frames extensions
      | stop phase frames extensions => exact .stop phase frames extensions
      | extend idle phase frames extensions => exact .extend idle phase frames extensions
      | rest asked phase frames extensions => exact .rest asked phase frames extensions
      | test extended live phase frames extensions => cases live
      | pass tested present phase frames extensions =>
          exact .pass tested present phase frames extensions
      | write checked phase frames extensions => exact .write checked phase frames extensions
  | track =>
      intro sid stream isStream
      refine ⟨stream, ?_, .refl _ _⟩
      have differ : sid ≠ system.nextID := by
        rintro rfl
        rw [tracked.fresh _ le_rfl] at isStream
        cases isStream
      simpa [System.pass, System.register, differ] using isStream
  | retrack sid =>
      apply self.modify
      intro stream _
      exact ⟨⟨rfl, id, .keep rfl rfl rfl⟩, ⟨rfl, fun _ => rfl, .keep rfl rfl rfl⟩⟩

theorem Tracked.evolves_proceed (tracked : system.Tracked) {call : Call}
    (holds : system.call = some call) (readOk : Bool) (outcome : Outcome) (order : List String) :
    Evolves system (system.proceed readOk outcome order call) := by
  have self : Cancels system system := cancels_of_streams_eq rfl
  cases call with
  | get hash purpose =>
      have checking : system.call.bind Call.checking? = some (hash, purpose) := by
        rw [holds]
        rfl
      simp only [System.proceed]
      split
      · exact self.refuse hash purpose
      split
      · exact (self.cancelLocked hash).refuse hash purpose
      · rename_i lastSeen known
        split
        · exact self.evolves
        · exact tracked.evolves_pass checking ⟨lastSeen, known⟩
  | expire hash purpose => exact ((self.deleteSession hash outcome).cancelLocked hash).refuse _ _
  | revoke hash => exact (self.deleteSession hash outcome).evolves
  | revoked hash => exact (self.cancelLocked hash).evolves
  | others keep => exact (cancels_deleteOtherSessions keep outcome).evolves
  | scan keep todo =>
      cases todo with
      | nil => exact self.evolves
      | cons hash todo =>
          simp only [System.proceed]
          split
          · exact self.evolves
          split
          · exact self.evolves
          split
          · exact (self.cancelLocked hash).evolves
          · exact self.evolves

theorem cancels_lock (call : Call) : Cancels system (system.lock call) := by
  unfold System.lock
  split
  · exact cancels_of_streams_eq rfl
  · exact cancels_of_streams_eq rfl

/-- Every step only moves the streams in known ways. -/
theorem Tracked.evolves (tracked : system.Tracked) (event : Event) :
    Evolves system (system.step event) := by
  have self : Cancels system system := cancels_of_streams_eq rfl
  cases event with
  | login hash outcome =>
      simp only [System.step]
      split
      · exact self.evolves
      · exact self.evolves
  | touch hash =>
      simp only [System.step]
      split
      · exact self.evolves
      · exact self.evolves
  | wait elapsed => exact self.evolves
  | setTTL ttl => exact self.evolves
  | check hash => exact (cancels_lock _).evolves
  | track hash alive =>
      simp only [System.step]
      split
      · exact (cancels_lock _).evolves
      · exact self.evolves
  | revoke hash => exact (cancels_lock _).evolves
  | revokeOthers keep => exact (cancels_lock _).evolves
  | close =>
      simp only [System.step]
      split
      · exact (self.cancelAll (system.registry.keys.toFinset.biUnion system.entries)).evolves
      · exact self.evolves
  | proceed readOk outcome order =>
      simp only [System.step]
      split
      · exact self.evolves
      · rename_i call holds
        exact tracked.evolves_proceed holds readOk outcome order
  | disconnect sid =>
      exact self.modify fun stream _ => ⟨.cancel _ _, .cancel _ _⟩
  | header sid =>
      exact evolves_advance fun stream idle _ =>
        ⟨rfl, id, .extend idle (Or.inl idle) rfl rfl⟩
  | extend sid =>
      exact evolves_advance fun stream idle _ =>
        ⟨rfl, id, .extend idle (Or.inr rfl) rfl rfl⟩
  | test sid =>
      apply evolves_advance
      intro stream extended _
      refine ⟨rfl, id, ?_⟩
      cases live : stream.cancelled with
      | true => exact .stop rfl rfl rfl
      | false => exact .test extended live rfl rfl rfl
  | probe sid =>
      apply evolves_advance
      intro stream idle _
      refine ⟨rfl, id, ?_⟩
      cases live : stream.cancelled with
      | true => exact .stop rfl rfl rfl
      | false => exact .rest (Or.inl idle) (Or.inr rfl) rfl rfl
  | checkStream sid =>
      simp only [System.step]
      split
      · exact self.evolves
      · split
        · exact (cancels_lock _).evolves
        · exact self.evolves
  | frame sid =>
      exact evolves_advance fun stream checked _ => ⟨rfl, id, .write checked rfl rfl rfl⟩
  | release sid =>
      simp only [System.step]
      split
      · exact self.evolves
      · split
        · exact self.modify fun stream _ =>
            ⟨⟨rfl, fun _ => rfl, .stop rfl rfl rfl⟩, ⟨rfl, fun _ => rfl, .stop rfl rfl rfl⟩⟩
        · exact self.evolves
  | remove sid =>
      simp only [System.step]
      split
      · split
        · exact self.modify fun stream _ =>
            ⟨⟨rfl, id, .keep rfl rfl rfl⟩, ⟨rfl, fun _ => rfl, .keep rfl rfl rfl⟩⟩
        · exact self.evolves
      · exact self.evolves

end Steps

end System

end TelemtPanel.Auth
