import TelemtPanel.Polling.UserIPBatches

/-!
# Observations that are left out

An observation that a limit leaves out is owed to the store as the mark of a limited collection.
The mark is part of every batch that is built from then on, but a batch that already waits is passed
again as it was built: it may be stored once before the mark is.
-/

namespace TelemtPanel.Polling

open TelemtPanel.Library Store

/-- The response of an event that is accepted lists an address that is not recorded. -/
def UserIPCollector.Drops (c : UserIPCollector) : CollectorEvent → Prop
  | .observe users generation env =>
      generation = c.generation ∧ c.through < env.now ∧ ∃ next, c.consult env = .ok next ∧
        ∃ key, (∃ user ∈ users, user.Observed key) ∧
          ¬(next.readUsers users env).Records env.now key
  | _ => False

/-- The batches that the store takes during a run. -/
def UserIPCollector.stored (c : UserIPCollector) (events : List CollectorEvent) :
    List UserIPBatch :=
  (c.calls events).filterMap StoreCall.storedBatch

/-- Apart from the batch that waits, the next batch is marked as limited. -/
def MarksNext (waiting : Option UserIPBatch) (stored : List UserIPBatch) : Prop :=
  ∃ front rest, stored = front ++ rest ∧ (∀ batch ∈ front, waiting = some batch) ∧
    front.length ≤ 1 ∧ ∀ batch ∈ rest.head?, batch.limited = true

/-- The mark is owed: it will be part of the next batch that is built. -/
structure UserIPCollector.Owes (waiting : Option UserIPBatch) (c : UserIPCollector) : Prop where
  limited : c.limited = true
  unsaved : c.flushed < c.through
  retry : ∀ batch ∈ c.retry, batch.limited = true ∨
    waiting = some batch ∧ batch.through < c.through

/-- How a step deals with the mark that is owed: it is stored, or still owed, or the batch that
waited has been stored before it. -/
inductive Settles (waiting : Option UserIPBatch) (next : UserIPCollector) :
    List UserIPBatch → Prop where
  | paid {front rest : List UserIPBatch} {batch : UserIPBatch}
      (isWaiting : ∀ b ∈ front, waiting = some b) (short : front.length ≤ 1)
      (limited : batch.limited = true) : Settles waiting next (front ++ batch :: rest)
  | same (owes : next.Owes waiting) : Settles waiting next []
  | used {batch : UserIPBatch} (isWaiting : waiting = some batch) (owes : next.Owes none) :
      Settles waiting next [batch]

section Steps

variable {c : UserIPCollector} {waiting : Option UserIPBatch}

theorem UserIPCollector.Owes.congr (owes : c.Owes waiting) {next : UserIPCollector}
    (limited : next.limited = c.limited) (flushed : next.flushed = c.flushed)
    (through : next.through = c.through) (retry : next.retry = c.retry) : next.Owes waiting := by
  refine ⟨limited.trans owes.limited, ?_, ?_⟩
  · rw [flushed, through]
    exact owes.unsaved
  · rw [retry, through]
    exact owes.retry

/-- The batch that is built next is marked. -/
theorem UserIPCollector.Owes.flushPending (owes : c.Owes waiting) (env : FlushEnv) :
    Settles waiting (flushPending env c).2.2
        ((flushPending env c).1.filterMap StoreCall.storedBatch) ∧
      ((flushPending env c).2.1 = true → ∀ next,
        Settles waiting next ((flushPending env c).1.filterMap StoreCall.storedBatch)) := by
  have paid : ∀ (next : UserIPCollector) (batch : UserIPBatch), batch.limited = true →
      Settles waiting next [batch] := fun next batch limited =>
    @Settles.paid waiting next [] [] batch (by simp) (Nat.zero_le 1) limited
  unfold Polling.flushPending
  rw [if_neg (not_le.mpr owes.unsaved)]
  cases env.id with
  | none => exact ⟨.same owes, fun ok => by cases ok⟩
  | some id =>
      dsimp only
      split
      · exact ⟨paid _ _ owes.limited, fun _ next => paid next _ owes.limited⟩
      · refine ⟨.same ⟨owes.limited, owes.unsaved, ?_⟩, fun ok => by cases ok⟩
        intro batch mem
        cases mem
        exact .inl owes.limited

theorem UserIPCollector.Owes.flushUserIPs (owes : c.Owes waiting) (env : FlushEnv) :
    Settles waiting (flushUserIPs env c).2.2
        ((flushUserIPs env c).1.filterMap StoreCall.storedBatch) ∧
      ((flushUserIPs env c).2.1 = true → ∀ next,
        Settles waiting next ((flushUserIPs env c).1.filterMap StoreCall.storedBatch)) := by
  unfold Polling.flushUserIPs flushRetry
  cases waits : c.retry with
  | none =>
      simp only [if_true, List.nil_append]
      exact owes.flushPending env
  | some batch =>
      cases stored : env.retryStored with
      | false =>
          simp only [Bool.false_eq_true, if_false]
          exact ⟨.same owes, fun ok => by cases ok⟩
      | true =>
          simp only [if_true, List.filterMap_append]
          rcases owes.retry batch waits with limited | ⟨isWaiting, early⟩
          · have paid : ∀ (next : UserIPCollector) (others : List UserIPBatch),
                Settles waiting next (batch :: others) := fun next others =>
              @Settles.paid waiting next [] others batch (by simp) (Nat.zero_le 1) limited
            exact ⟨paid _ _, fun _ next => paid next _⟩
          · -- The batch that waited has been stored, and nothing waits any more.
            have rest : UserIPCollector.Owes none
                { c with flushed := batch.through, retry := none } := by
              refine ⟨owes.limited, early, fun other mem => ?_⟩
              cases mem
            have behind : ∀ (next : UserIPCollector) (others : List UserIPBatch),
                Settles none next others → Settles waiting next (batch :: others) := by
              intro next others settles
              cases settles with
              | @paid front rest last noneWaits _ limited =>
                  have empty : front = [] := List.eq_nil_iff_forall_not_mem.mpr fun b mem => by
                    cases noneWaits b mem
                  subst empty
                  exact @Settles.paid waiting next [batch] rest last (by simpa using isWaiting)
                    le_rfl limited
              | same owes => exact .used isWaiting owes
              | used noneWaits _ => cases noneWaits
            rcases rest.flushPending env with ⟨settles, always⟩
            exact ⟨behind _ _ settles, fun ok next => behind next _ (always ok next)⟩

/-- A step settles the mark. -/
theorem UserIPCollector.Owes.step (owes : c.Owes waiting) (sound : c.Sound)
    (event : CollectorEvent) : Settles waiting (c.step event).2
      ((c.step event).1.filterMap StoreCall.storedBatch) := by
  cases event with
  | observe users generation env =>
      rcases sound.consult env with ⟨-, accepted⟩
      simp only [UserIPCollector.step, observeUserIPs]
      split
      · exact .same owes
      split
      · exact .same owes
      rename_i later
      cases consulted : c.consult env with
      | error next =>
          refine .same ?_
          unfold UserIPCollector.consult at consulted
          split at consulted
          · split at consulted
            · cases consulted
              exact owes.congr rfl rfl rfl rfl
            · split at consulted
              · cases consulted
                exact owes
              · cases consulted
          · cases consulted
      | ok next =>
          rcases accepted next consulted with ⟨nextSound, through, flushed, retry, limited⟩
          rcases @UserIPCollector.Sound.readUsers _ nextSound users env (by omega) with
            ⟨-, readThrough, readFlushed, readRetry, readLimited, -⟩
          have unsaved := owes.unsaved
          have read : (next.readUsers users env).Owes waiting := by
            refine ⟨readLimited (limited.trans owes.limited), by omega, fun batch mem => ?_⟩
            rw [readRetry, retry] at mem
            refine (owes.retry batch mem).imp_right fun both => ⟨both.1, ?_⟩
            have early := both.2
            omega
          dsimp only
          split
          · exact (read.flushUserIPs env.flush).1
          · exact .same read
  | pollFailed now env =>
      have failed : UserIPCollector.Owes waiting { c with failed := true, gap := true } :=
        owes.congr rfl rfl rfl rfl
      simp only [UserIPCollector.step, pollFailed]
      split
      · exact (failed.flushUserIPs env).1
      · exact .same failed
  | flush env => exact (owes.flushUserIPs env).1
  | reset username env done =>
      rcases owes.flushUserIPs env with ⟨settles, always⟩
      simp only [UserIPCollector.step, resetUserIPHistory]
      split
      · exact settles
      · rename_i ok
        rw [not_or, Bool.not_eq_false] at ok
        split
        · exact always ok.1 _
        · exact always ok.1 _

/-- What the rest of a run stores once a step has settled the mark. -/
theorem Settles.marksNext {next : UserIPCollector} {stored later : List UserIPBatch}
    (settles : Settles waiting next stored)
    (rest : ∀ still, next.Owes still → MarksNext still later) :
    MarksNext waiting (stored ++ later) := by
  cases settles with
  | @paid front others batch isWaiting short limited =>
      refine ⟨front, batch :: others ++ later, by simp, isWaiting, short, ?_⟩
      rintro other mem
      cases mem
      exact limited
  | same owes => exact rest waiting owes
  | @used batch isWaiting owes =>
      rcases rest none owes with ⟨front, others, rfl, noneWaits, -, marked⟩
      have empty : front = [] := List.eq_nil_iff_forall_not_mem.mpr fun b mem => by
        cases noneWaits b mem
      subst empty
      exact ⟨[batch], others, rfl, by simpa using isWaiting, le_rfl, marked⟩

theorem UserIPCollector.stored_cons (event : CollectorEvent) (events : List CollectorEvent) :
    c.stored (event :: events) =
      (c.step event).1.filterMap StoreCall.storedBatch ++ (c.step event).2.stored events := by
  simp [UserIPCollector.stored, UserIPCollector.calls, outputs]

/-- A mark that is owed is stored with the next batch, apart from the one that waits. -/
theorem UserIPCollector.Owes.stored (owes : c.Owes waiting) (sound : c.Sound)
    (events : List CollectorEvent) : MarksNext waiting (c.stored events) := by
  induction events generalizing c waiting with
  | nil =>
      refine ⟨[], [], rfl, ?_, Nat.zero_le 1, ?_⟩
      · intro batch mem
        cases mem
      · intro batch mem
        cases mem
  | cons event events ih =>
      have settles := owes.step sound event
      rw [stored_cons]
      exact settles.marksNext fun still stillOwes => ih stillOwes (sound.step event).1

/-- An event that drops an observation leaves the mark owed, or settles it. -/
theorem UserIPCollector.Drops.settles {event : CollectorEvent} (drops : c.Drops event)
    (sound : c.Sound) : Settles c.retry (c.step event).2
      ((c.step event).1.filterMap StoreCall.storedBatch) := by
  cases event with
  | observe users generation env =>
      rcases drops with ⟨current, later, next, consulted, key, observed, unrecorded⟩
      rcases (sound.consult env).2 next consulted with ⟨nextSound, through, flushed, retry, -⟩
      rcases @UserIPCollector.Sound.readUsers _ nextSound users env (by omega) with
        ⟨-, readThrough, readFlushed, readRetry, -, recorded⟩
      have saved := sound.saved
      have read : (next.readUsers users env).Owes c.retry := by
        refine ⟨?_, by omega, fun batch mem => .inr ?_⟩
        · by_contra unset
          rw [Bool.not_eq_true] at unset
          exact unrecorded (recorded unset key observed)
        · rw [readRetry, retry] at mem
          have early := (sound.retry batch mem).2
          exact ⟨mem, by omega⟩
      simp only [UserIPCollector.step, observeUserIPs]
      rw [if_neg (not_not.mpr current), if_neg (not_le.mpr later), consulted]
      dsimp only
      split
      · exact (read.flushUserIPs env.flush).1
      · exact .same read
  | pollFailed now env => cases drops
  | flush env => cases drops
  | reset username env done => cases drops

end Steps

/-- In every run, the batches that are passed to the store are ones that it accepts, what is kept in
memory is bounded, and an observation that is left out is marked by the next batch that is stored,
apart from one that already waits. -/
theorem collector_batches (events : List CollectorEvent) :
    (∀ call ∈ UserIPCollector.empty.calls events, validateUserIPBatch call.batch = .ok ()) ∧
      (UserIPCollector.empty.run events).pending.size ≤ userIPBatchLimit ∧
      (UserIPCollector.empty.run events).live.size ≤ userIPMemoryLimit ∧
      (UserIPCollector.empty.run events).live.rowSum (·.active.size) ≤ userIPMemoryLimit ∧
      ∀ event later, (UserIPCollector.empty.run events).Drops event →
        MarksNext (UserIPCollector.empty.run events).retry
          ((UserIPCollector.empty.run events).stored (event :: later)) := by
  have sound := UserIPCollector.sound_run events
  have room := sound.room
  refine ⟨fun call mem => ?_, by omega, sound.users, sound.overlay, fun event later drops => ?_⟩
  · exact validateUserIPBatch_ok_iff.mpr (sound_empty.calls events call mem)
  · rw [UserIPCollector.stored_cons]
    exact (drops.settles sound).marksNext fun still owes => owes.stored (sound.step event).1 later

/-- A flush for which the store fails, or not. -/
def sampleFlush (stored : Bool) : FlushEnv where
  retryStored := stored
  id := some ⟨List.replicate 16 0, rfl⟩
  stored := stored
  order := Sorter.stable _

/-- One address of a user at a time, under a cap of one address. -/
def sampleObservation (now : ℤ) (recent : List String) (stored : Bool) : CollectorEvent :=
  .observe [⟨"alice", some ["10.0.0.1"], some recent⟩] 0
    ⟨now, some 0, 1, true, fun _ => Sorter.stable _, sampleFlush stored⟩

/-- The first batch is not stored, and the second observation leaves an address out.  The batch that
waits is stored next, without a mark. -/
theorem sampleObservation_unmarked :
    ¬∀ (events : List CollectorEvent) (event : CollectorEvent) (later : List CollectorEvent),
      (UserIPCollector.empty.run events).Drops event →
      ∀ batch ∈ ((UserIPCollector.empty.run events).stored (event :: later)).head?,
        batch.limited = true := by
  intro marked
  have drops : (UserIPCollector.empty.run [sampleObservation 100 [] false]).Drops
      (sampleObservation 200 ["10.0.0.2"] true) := by
    refine ⟨by decide +kernel, by decide +kernel, _, if_neg (by decide +kernel),
      ⟨"alice", "10.0.0.2"⟩, ?_, ?_⟩
    · exact ⟨_, List.mem_singleton_self _, rfl, ⟨by decide, by decide⟩, "10.0.0.2", by decide, 4,
        by decide +kernel⟩
    · rintro ⟨r, found, -⟩
      have absent : ((UserIPCollector.empty.run [sampleObservation 100 [] false]).readUsers
          [⟨"alice", some ["10.0.0.1"], some ["10.0.0.2"]⟩]
          ⟨200, some 0, 1, true, fun _ => Sorter.stable _, sampleFlush true⟩).pending[
            (⟨"alice", "10.0.0.2"⟩ : UserIPKey)]? = none := by decide +kernel
      rw [absent] at found
      cases found
  have head := marked _ _ [] drops
  revert head
  decide +kernel

end TelemtPanel.Polling
