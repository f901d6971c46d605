import TelemtPanel.QuotaReset.Manager

/-!
# Exclusive and honestly counted bulk resets

The slot of the manager has at most one holder, and its three flags say what the holder
does.  From this we get that dispatchers never overlap, that a token starts at most one
run, and that the counters of the job are those of the latest run.
-/

namespace TelemtPanel.QuotaReset

open Library

section Slot

def Call.flags : Call → Bool × Bool × Bool
  | .preparing => (true, false, false)
  | .releasing => (true, false, false)
  | .starting _ => (true, false, false)
  | .scheduling => (true, false, false)
  | .resetting _ => (false, true, false)
  | .looping _ => (false, false, true)
  | .waiting _ _ => (false, false, true)
  | .stopping => (false, false, true)

def Manager.flags (manager : Manager) : Bool × Bool × Bool :=
  (manager.checking, manager.single, manager.running)

/-- The calls of a slot with at most one holder. -/
def slotCalls : Option (ℕ × Call) → ℕ → Option Call
  | none => fun _ => none
  | some (id, call) => Function.update (fun _ => none) id (some call)

structure Holds (system : System) (holder : Option (ℕ × Call)) : Prop where
  calls : system.calls = slotCalls holder
  flags : system.manager.flags = (holder.map fun held => held.2.flags).getD (false, false, false)

variable {system : System} {holder : Option (ℕ × Call)} {id : ℕ} {call : Call}

theorem slotCalls_eq_some (found : slotCalls holder id = some call) :
    holder = some (id, call) := by
  cases holder with
  | none => cases found
  | some held =>
      rcases held with ⟨other, mine⟩
      by_cases same : id = other
      · subst same
        simp only [slotCalls, Function.update_self, Option.some_inj] at found
        rw [found]
      · simp [slotCalls, same] at found

theorem Holds.of_call (holds : Holds system holder) (found : system.calls id = some call) :
    holder = some (id, call) := by
  rw [holds.calls] at found
  exact slotCalls_eq_some found

theorem Holds.of_free (holds : Holds system holder) (free : system.manager.busy = false) :
    holder = none := by
  have flags := holds.flags
  simp only [Manager.busy, Bool.or_eq_false_iff] at free
  rcases free with ⟨⟨checking, single⟩, running⟩
  simp only [Manager.flags, checking, single, running] at flags
  cases holder with
  | none => rfl
  | some held =>
      rcases held with ⟨other, mine⟩
      cases mine <;> simp [Call.flags] at flags

theorem slotCalls_set (call : Option Call) (holder : Option (ℕ × Call))
    (mine : holder = none ∨ ∃ old, holder = some (id, old)) :
    Function.update (slotCalls holder) id call =
      slotCalls (call.map fun now => (id, now)) := by
  have alone : Function.update (slotCalls holder) id call =
      Function.update (fun _ => none) id call := by
    rcases mine with rfl | ⟨old, rfl⟩
    · rfl
    · simp [slotCalls]
  rw [alone]
  cases call with
  | none =>
      funext other
      by_cases same : other = id <;> simp [slotCalls, same]
  | some now => rfl

/-- The holder goes on, or gives the slot up. -/
theorem Holds.set (holds : Holds system holder)
    (mine : holder = none ∨ ∃ old, holder = some (id, old)) (call : Option Call)
    {next : System} (calls : next.calls = (system.set id call).calls)
    (flags : next.manager.flags = (call.map Call.flags).getD (false, false, false)) :
    Holds next (call.map fun now => (id, now)) := by
  refine ⟨?_, ?_⟩
  · rw [calls, System.set]
    simp only [holds.calls]
    exact slotCalls_set call holder mine
  · rw [flags]
    cases call with
    | none => rfl
    | some now => rfl

end Slot

section Snapshot

theorem compact_cons_subset (name : String) (rest : List String) :
    ∀ other ∈ compact (name :: rest), other = name ∨ other ∈ rest := by
  induction rest generalizing name with
  | nil => simp [compact]
  | cons next rest ih =>
      intro other member
      unfold compact at member
      split at member
      · rename_i same
        rcases ih next other member with first | later
        · exact .inl (first.trans same.symm)
        · exact .inr (List.mem_cons_of_mem _ later)
      · rcases List.mem_cons.mp member with first | later
        · exact .inl first
        · rcases ih next other later with second | last
          · exact .inr (second ▸ List.mem_cons_self)
          · exact .inr (List.mem_cons_of_mem _ last)

theorem compact_pairwise {names : List String} (sorted : names.Pairwise (· ≤ ·)) :
    (compact names).Pairwise (· < ·) := by
  induction names with
  | nil => exact .nil
  | cons name rest ih =>
      cases rest with
      | nil => exact List.pairwise_singleton _ _
      | cons next rest =>
          rcases List.pairwise_cons.mp sorted with ⟨least, tail⟩
          unfold compact
          split
          · exact ih tail
          · rename_i different
            refine List.pairwise_cons.mpr ⟨?_, ih tail⟩
            intro other member
            have first : name < next :=
              lt_of_le_of_ne (least next List.mem_cons_self) different
            rcases compact_cons_subset next rest other member with rfl | later
            · exact first
            · exact first.trans_le ((List.pairwise_cons.mp tail).1 other later)

theorem sortNames_pairwise (names : List String) : (sortNames names).Pairwise (· < ·) := by
  apply compact_pairwise
  have sorted := @List.pairwise_mergeSort _ (fun left right => decide (left ≤ right))
    (fun first second third => by simpa using le_trans)
    (fun first second => by simpa using le_total first second) names
  simpa using sorted

/-- The users of a snapshot are sorted and distinct. -/
theorem snapshot_pairwise (answers : Answers) : (snapshot answers).1.Pairwise (· < ·) := by
  unfold snapshot
  repeat' split
  all_goals first | exact .nil | exact sortNames_pairwise _

end Snapshot

section History

/-- Exactly the users whose reset was refused or not confirmed. -/
def Run.issues (run : Run) : List Issue :=
  run.results.filterMap fun answer => answer.2.map fun failure => (classify answer.1 failure).1

/-- No answer so far ends the run. -/
def Run.Continues (run : Run) : Prop :=
  ∀ name failure, (name, some failure) ∈ run.results → failure = .api 404 "not_found"

/-- What a run may have sent. -/
structure Run.Sound (run : Run) : Prop where
  sorted : run.selected.Pairwise (· < ·)
  confirmed : ∀ prepared, run.confirmed = some prepared → run.id = prepared.token ∧
    run.fresh = (prepared.names, prepared.revision) ∧ run.selected = prepared.names
  sent : run.sent.map Prod.fst <+: run.selected
  revision : ∀ request ∈ run.sent, request.2 = run.fresh.2
  results : run.results.map Prod.fst <+: run.sent.map Prod.fst
  waits : run.sent.length ≤ run.results.length + 1
  stops : ∀ place name failure, run.results[place]? = some (name, some failure) →
    place + 1 < run.sent.length → failure = .api 404 "not_found"

/-- Where a run stands whose call is in the slot. -/
def Run.At (run : Run) : Call → Prop
  | .looping names => run.sent.map Prod.fst ++ names = run.selected ∧
      run.results.map Prod.fst = run.sent.map Prod.fst ∧ run.Continues
  | .waiting name names => run.sent.map Prod.fst ++ names = run.selected ∧
      run.results.map Prod.fst ++ [name] = run.sent.map Prod.fst ∧ run.Continues
  | .stopping => run.results.map Prod.fst = run.sent.map Prod.fst
  | _ => False

/-- The counters of a job are those of its run. -/
structure Counts (job : Job) (run : Run) : Prop where
  id : job.id = run.id
  total : job.total = run.selected.length
  processed : job.processed = run.results.length
  confirmed : job.confirmed = run.results.countP fun answer => answer.2.isNone
  rejected : job.rejected = run.issues.countP fun issue => decide (issue.outcome = .rejected)
  unknown : job.unknown = run.issues.countP fun issue => decide (issue.outcome = .unknown)

variable {run : Run}

theorem Run.issues_record (run : Run) (name : String) (result : Option Failure) :
    Run.issues { run with results := run.results ++ [(name, result)] } =
      run.issues ++ (result.map fun failure => (classify name failure).1).toList := by
  cases result <;> simp [Run.issues, List.filterMap_append]

theorem Run.Sound.dispatch (sound : run.Sound) {name : String} {names : List String}
    (here : run.At (.looping (name :: names))) :
    let next := { run with sent := run.sent ++ [(name, run.fresh.2)] }
    next.Sound ∧ next.At (.waiting name names) := by
  rcases here with ⟨selected, answered, continues⟩
  have sizes : run.results.length = run.sent.length := by
    simpa using congrArg List.length answered
  refine ⟨⟨sound.sorted, sound.confirmed, ?_, ?_, ?_, ?_, ?_⟩, ?_, ?_, continues⟩
  · exact ⟨names, by simp [← selected]⟩
  · intro request member
    rcases List.mem_append.mp member with old | new
    · exact sound.revision request old
    · rw [List.mem_singleton.mp new]
  · rw [answered, List.map_append]
    exact List.prefix_append ..
  · rw [List.length_append, sizes]
    exact le_rfl
  · intro place other failure found _
    exact continues other failure (List.mem_of_getElem? found)
  · simp [← selected]
  · simp [answered]

theorem Run.Sound.answer (sound : run.Sound) {name : String} {names : List String}
    (here : run.At (.waiting name names)) (result : Option Failure) :
    let next := { run with results := run.results ++ [(name, result)] }
    next.Sound ∧ next.results.map Prod.fst = next.sent.map Prod.fst := by
  rcases here with ⟨selected, answered, continues⟩
  have whole : (run.results ++ [(name, result)]).map Prod.fst = run.sent.map Prod.fst := by
    simpa using answered
  have sizes : run.results.length + 1 = run.sent.length := by
    simpa using congrArg List.length answered
  refine ⟨⟨sound.sorted, sound.confirmed, sound.sent, sound.revision, ?_, ?_, ?_⟩, whole⟩
  · rw [whole]
  · rw [List.length_append, ← sizes]
    exact Nat.le_succ _
  · intro place other failure found more
    have bound : place + 1 < run.sent.length := more
    have early : place < run.results.length := by omega
    rw [List.getElem?_append_left early] at found
    exact continues other failure (List.mem_of_getElem? found)

/-- The run goes on after an answer that does not stop it. -/
theorem Run.continues_record {name : String} {names : List String}
    (here : run.At (.waiting name names)) {result : Option Failure}
    (goes : ∀ failure, result = some failure → (classify name failure).2 = false) :
    Run.Continues { run with results := run.results ++ [(name, result)] } := by
  intro other failure member
  rcases List.mem_append.mp member with old | new
  · exact here.2.2 other failure old
  · have same := List.mem_singleton.mp new
    cases same
    have flag := goes failure rfl
    unfold classify at flag
    split at flag
    · rename_i status code
      by_cases known : status = 404 ∧ code = "not_found"
      · rw [known.1, known.2]
      · rw [if_neg known] at flag
        exfalso
        repeat' split at flag
        all_goals cases flag
    · cases flag

end History

section Invariant

/-- The result that the manager shows belongs to the latest run. -/
structure Shows (manager : Manager) (runs : List Run) : Prop where
  nothing : runs = [] → manager.job = none ∧ manager.issues = []
  latest : ∀ run earlier, runs = run :: earlier → manager.issues = run.issues ∧
    ∃ job, manager.job = some job ∧ Counts job run

/-- Tokens of confirmations and runs have been drawn, and no run has the token of the
confirmation that may start the next one. -/
structure Fresh (rand : ℕ → String) (prepared : Option Prepared) (draws : ℕ)
    (runs : List Run) : Prop where
  prepared : ∀ confirmation, prepared = some confirmation →
    confirmation.token ∉ runs.map Run.id ∧ ∃ draw < draws, confirmation.token = rand draw
  drawn : ∀ run ∈ runs, ∃ draw < draws, run.id = rand draw
  distinct : (runs.map Run.id).Nodup

/-- A call in the slot agrees with the manager and the latest run. -/
def Agrees (manager : Manager) (runs : List Run) (call : Call) : Prop :=
  match call with
  | .starting confirmation => manager.prepared = some confirmation
  | .looping _ | .waiting _ _ | .stopping => ∃ run earlier, runs = run :: earlier ∧ run.At call
  | _ => True

structure Sound (rand : ℕ → String) (system : System) (holder : Option (ℕ × Call)) : Prop where
  holds : Holds system holder
  agrees : ∀ id call, holder = some (id, call) → Agrees system.manager system.runs call
  runs : ∀ run ∈ system.runs, run.Sound
  shows : Shows system.manager system.runs
  fresh : Fresh rand system.manager.prepared system.draws system.runs

theorem sound_initialSystem (rand : ℕ → String) : Sound rand initialSystem none where
  holds := ⟨rfl, rfl⟩
  agrees := fun _ _ impossible => by cases impossible
  runs := fun _ member => by cases member
  shows := ⟨fun _ => ⟨rfl, rfl⟩, fun _ _ impossible => by cases impossible⟩
  fresh := by
    refine ⟨?_, ?_, List.nodup_nil⟩
    · intro _ impossible
      cases impossible
    · intro _ member
      cases member

variable {rand : ℕ → String} {system next : System} {holder : Option (ℕ × Call)} {id : ℕ}

/-- A step that neither starts nor counts anything. -/
theorem Sound.move (sound : Sound rand system holder) {later : Option (ℕ × Call)}
    (holds : Holds next later)
    (agrees : ∀ id call, later = some (id, call) → Agrees next.manager next.runs call)
    (runs : next.runs = system.runs) (job : next.manager.job = system.manager.job)
    (issues : next.manager.issues = system.manager.issues)
    (fresh : Fresh rand next.manager.prepared next.draws system.runs) :
    Sound rand next later where
  holds := holds
  agrees := agrees
  runs := by
    rw [runs]
    exact sound.runs
  shows := by
    rw [runs]
    refine ⟨?_, ?_⟩
    · rw [job, issues]
      exact sound.shows.nothing
    · rw [job, issues]
      exact sound.shows.latest
  fresh := by
    rw [runs]
    exact fresh

theorem Fresh.mono {prepared : Option Prepared} {draws later : ℕ} {runs : List Run}
    (fresh : Fresh rand prepared draws runs) (more : draws ≤ later) :
    Fresh rand prepared later runs where
  prepared confirmation same := by
    rcases fresh.prepared confirmation same with ⟨unused, draw, bound, token⟩
    exact ⟨unused, draw, bound.trans_le more, token⟩
  drawn run member := by
    rcases fresh.drawn run member with ⟨draw, bound, token⟩
    exact ⟨draw, bound.trans_le more, token⟩
  distinct := fresh.distinct

theorem Fresh.forget {prepared : Option Prepared} {draws : ℕ} {runs : List Run}
    (fresh : Fresh rand prepared draws runs) : Fresh rand none draws runs where
  prepared _ impossible := by cases impossible
  drawn := fresh.drawn
  distinct := fresh.distinct

/-- A token that has just been drawn is not in use. -/
theorem Fresh.unused {prepared : Option Prepared} {draws : ℕ} {runs : List Run}
    (fresh : Fresh rand prepared draws runs) (injective : Function.Injective rand) :
    rand draws ∉ runs.map Run.id := by
  intro member
  rcases List.mem_map.mp member with ⟨run, listed, same⟩
  rcases fresh.drawn run listed with ⟨draw, bound, token⟩
  have equal := injective (token.symm.trans same)
  omega

theorem Manager.refusal_eq_none {manager : Manager} (free : manager.refusal = none) :
    manager.busy = false := by
  unfold Manager.refusal at free
  split at free
  · cases free
  · split at free
    · cases free
    · rename_i idle
      simpa using idle

theorem Sound.enter (sound : Sound rand system holder) (id : ℕ) (call : Call) (manager : Manager)
    (flags : system.manager.busy = false → manager.flags = call.flags)
    (same : manager.job = system.manager.job ∧ manager.issues = system.manager.issues ∧
      manager.prepared = system.manager.prepared)
    (agrees : Agrees manager system.runs call) :
    ∃ later, Sound rand (system.enter id call manager) later := by
  unfold System.enter
  split
  · exact ⟨holder, sound⟩
  · rename_i admitted
    have free := Manager.refusal_eq_none (by
      have accepted := (not_or.mp admitted).2
      simpa using accepted)
    have nobody := sound.holds.of_free free
    refine ⟨some (id, call), sound.move ?_ ?_ rfl same.1 same.2.1 ?_⟩
    · exact sound.holds.set (.inl nobody) (some call) rfl (flags free)
    · intro other now held
      cases held
      exact agrees
    · rw [same.2.2]
      exact sound.fresh

theorem Manager.flags_of_busy {manager : Manager} (free : manager.busy = false) :
    manager.flags = (false, false, false) := by
  simp only [Manager.busy, Bool.or_eq_false_iff] at free
  rcases free with ⟨⟨checking, single⟩, running⟩
  simp only [Manager.flags, checking, single, running]

/-- The flags while a call holds the slot. -/
theorem Sound.flags (sound : Sound rand system holder) {call : Call}
    (found : system.calls id = some call) : system.manager.flags = call.flags := by
  have mine := sound.holds.of_call found
  have flags := sound.holds.flags
  rwa [mine] at flags

theorem Sound.agreement (sound : Sound rand system holder) {call : Call}
    (found : system.calls id = some call) : Agrees system.manager system.runs call :=
  sound.agrees id call (sound.holds.of_call found)

/-- The holder moves on without starting or counting anything. -/
theorem Sound.advance (sound : Sound rand system holder) {call : Call}
    (found : system.calls id = some call) (now : Option Call)
    (calls : next.calls = (system.set id now).calls)
    (flags : next.manager.flags = (now.map Call.flags).getD (false, false, false))
    (agrees : ∀ call, now = some call → Agrees next.manager next.runs call)
    (runs : next.runs = system.runs) (job : next.manager.job = system.manager.job)
    (issues : next.manager.issues = system.manager.issues)
    (fresh : Fresh rand next.manager.prepared next.draws system.runs) :
    ∃ later, Sound rand next later := by
  have mine := sound.holds.of_call found
  refine ⟨_, sound.move (sound.holds.set (.inr ⟨call, mine⟩) now calls flags) ?_ runs job issues
    fresh⟩
  intro other held same
  cases now with
  | none => cases same
  | some held =>
      cases same
      exact agrees held rfl

theorem Manager.admission_checking {manager : Manager} {token : String} {now : ℤ}
    {confirmation : Prepared} (admitted : manager.admission token now = .checking confirmation) :
    manager.busy = false ∧ manager.prepared = some confirmation := by
  unfold Manager.admission at admitted
  split at admitted
  · cases admitted
  · split at admitted
    · cases admitted
    · split at admitted
      · cases admitted
      · rename_i idle
        split at admitted
        · cases admitted
        · rename_i found
          split at admitted
          · cases admitted
          · cases admitted
            exact ⟨by simpa using idle, found⟩

end Invariant

section Steps

variable {rand : ℕ → String} {system : System} {holder : Option (ℕ × Call)} {id : ℕ}

theorem Sound.prepared (sound : Sound rand system holder) (injective : Function.Injective rand)
    (answers : Answers) (now : ℤ) :
    ∃ later, Sound rand (step rand system (.prepared id answers now)) later := by
  simp only [step]
  split
  · rename_i found
    have flags := sound.flags found
    split
    · refine sound.advance found (some .releasing) rfl flags ?_ rfl rfl rfl sound.fresh
      intro call same
      cases same
      trivial
    · unfold Manager.store
      refine sound.advance found (some .releasing) rfl ?_ ?_ rfl ?_ ?_ ?_
      · split
        · exact flags
        · exact flags
      · intro call same
        cases same
        trivial
      · split <;> rfl
      · split <;> rfl
      · split
        · exact sound.fresh.mono (Nat.le_succ _)
        · refine ⟨?_, (sound.fresh.mono (Nat.le_succ _)).drawn, sound.fresh.distinct⟩
          intro confirmation same
          cases same
          exact ⟨sound.fresh.unused injective, system.draws, Nat.lt_succ_self _, rfl⟩
  · exact ⟨holder, sound⟩

theorem Sound.release (sound : Sound rand system holder) :
    ∃ later, Sound rand (step rand system (.release id)) later := by
  simp only [step]
  split
  · rename_i found
    have flags := sound.flags found
    refine sound.advance found none rfl ?_ ?_ rfl rfl rfl sound.fresh
    · simp only [Manager.flags, Call.flags, Prod.mk.injEq] at flags
      simp only [Manager.flags, flags.2.1, Option.map_none, Option.getD_none]
      rw [← flags.2.2]
      rfl
    · intro call impossible
      cases impossible
  · exact ⟨holder, sound⟩

theorem Sound.singleDone (sound : Sound rand system holder) :
    ∃ later, Sound rand (step rand system (.singleDone id)) later := by
  simp only [step]
  split
  · rename_i found
    have flags := sound.flags found
    refine sound.advance found none rfl ?_ ?_ rfl rfl rfl sound.fresh
    · simp only [Manager.flags, Call.flags, Prod.mk.injEq] at flags
      simp only [Manager.flags, flags.1, Option.map_none, Option.getD_none]
      rw [← flags.2.2]
      rfl
    · intro call impossible
      cases impossible
  · exact ⟨holder, sound⟩

theorem Sound.start (sound : Sound rand system holder) (token : String) (now : ℤ) :
    ∃ later, Sound rand (step rand system (.start id token now)) later := by
  simp only [step]
  split
  · exact ⟨holder, sound⟩
  · split
    · rename_i confirmation admitted
      have kept := Manager.admission_checking admitted
      have nobody := sound.holds.of_free kept.1
      refine ⟨some (id, .starting confirmation), sound.move ?_ ?_ rfl rfl rfl sound.fresh⟩
      · refine sound.holds.set (.inl nobody) (some (.starting confirmation)) rfl ?_
        have flags := Manager.flags_of_busy kept.1
        simp only [Manager.flags, Prod.mk.injEq] at flags
        simp only [Manager.flags, flags.2.1, Option.map_some, Option.getD_some, Call.flags]
        rw [← flags.2.2]
        rfl
      · intro other call held
        cases held
        exact kept.2
    · exact ⟨holder, sound⟩

/-- A run with nothing sent yet takes the slot of the check before it. -/
theorem Sound.begin (sound : Sound rand system holder) {call : Call}
    (found : system.calls id = some call) (check : call.flags = (true, false, false))
    (run : Run) (runSound : run.Sound) (nothing : run.sent = [] ∧ run.results = [])
    (unused : run.id ∉ system.runs.map Run.id) {draws : ℕ} (more : system.draws ≤ draws)
    (drawn : ∃ draw < draws, run.id = rand draw) (trigger : String) (now : ℤ) :
    ∃ later, Sound rand
      (System.beginRun { system with draws := draws } id
        (system.manager.begin trigger run.id run.selected.length now) run) later := by
  have mine := sound.holds.of_call found
  have flags := sound.flags found
  rw [check] at flags
  simp only [Manager.flags, Prod.mk.injEq] at flags
  refine ⟨some (id, .looping run.selected), ?_, ?_, ?_, ?_, ?_⟩
  · refine sound.holds.set (.inr ⟨call, mine⟩) (some (.looping run.selected)) rfl ?_
    simp only [System.beginRun, Manager.flags, Manager.begin, flags.2.1]
    rfl
  · intro other now held
    cases held
    refine ⟨run, system.runs, rfl, ?_, ?_, ?_⟩
    · rw [nothing.1]
      rfl
    · rw [nothing.1, nothing.2]
      rfl
    · intro name failure member
      rw [nothing.2] at member
      cases member
  · intro other member
    rcases List.mem_cons.mp member with rfl | old
    · exact runSound
    · exact sound.runs other old
  · refine ⟨fun impossible => (by cases impossible), ?_⟩
    intro latest earlier same
    cases same
    have noIssues : run.issues = [] := by rw [Run.issues, nothing.2]; rfl
    refine ⟨noIssues.symm, _, rfl, ?_⟩
    exact {
      id := rfl
      total := rfl
      processed := by rw [nothing.2]; rfl
      confirmed := by rw [nothing.2]; rfl
      rejected := by rw [noIssues]; rfl
      unknown := by rw [noIssues]; rfl }
  · refine ⟨fun _ impossible => (by cases impossible), ?_, ?_⟩
    · intro other member
      rcases List.mem_cons.mp member with rfl | old
      · exact drawn
      · exact (sound.fresh.mono more).drawn other old
    · exact List.nodup_cons.mpr ⟨unused, sound.fresh.distinct⟩

/-- A check that ends without a run. -/
theorem Sound.giveUp (sound : Sound rand system holder) {call : Call}
    (found : system.calls id = some call) (check : call.flags = (true, false, false))
    {draws : ℕ} (more : system.draws ≤ draws) {manager : Manager}
    (same : manager.job = system.manager.job ∧ manager.issues = system.manager.issues ∧
      manager.single = system.manager.single ∧ manager.checking = false)
    (prepared : manager.prepared = system.manager.prepared ∨ manager.prepared = none) :
    ∃ later, Sound rand
      { (System.set { system with draws := draws } id none) with manager := manager } later := by
  have flags := sound.flags found
  rw [check] at flags
  simp only [Manager.flags, Prod.mk.injEq] at flags
  refine sound.advance found none rfl ?_ ?_ rfl same.1 same.2.1 ?_
  · simp only [Manager.flags, Manager.running, same.1, same.2.2.1, same.2.2.2, flags.2.1]
    have idle := flags.2.2
    simp only [Manager.running] at idle
    rw [idle]
    rfl
  · intro call impossible
    cases impossible
  · rcases prepared with kept | gone
    · rw [kept]
      exact sound.fresh.mono more
    · rw [gone]
      exact (sound.fresh.mono more).forget

/-- What the second section of a start can do. -/
theorem Manager.confirm_cases (manager : Manager) (confirmation : Prepared)
    (fresh : List String × String × Option Failure) (now : ℤ) :
    (∃ other failure, manager.confirm confirmation fresh now = (other, .error failure) ∧
      (other.job = manager.job ∧ other.issues = manager.issues ∧
        other.single = manager.single ∧ other.checking = false) ∧
      (other.prepared = manager.prepared ∨ other.prepared = none)) ∨
    (fresh.1 = confirmation.names ∧ fresh.2.1 = confirmation.revision ∧
      manager.confirm confirmation fresh now =
        (manager.begin "" confirmation.token fresh.1.length now, .ok fresh.1)) := by
  rcases fresh with ⟨names, revision, failed⟩
  cases failed with
  | some failure => exact .inl ⟨_, failure, rfl, ⟨rfl, rfl, rfl, rfl⟩, .inl rfl⟩
  | none =>
      simp only [Manager.confirm]
      split
      · exact .inl ⟨_, _, rfl, ⟨rfl, rfl, rfl, rfl⟩, .inl rfl⟩
      · split
        · exact .inl ⟨_, _, rfl, ⟨rfl, rfl, rfl, rfl⟩, .inl rfl⟩
        · split
          · exact .inl ⟨_, _, rfl, ⟨rfl, rfl, rfl, rfl⟩, .inr rfl⟩
          · rename_i same
            rcases not_or.mp same with ⟨revisions, names⟩
            exact .inr ⟨by simpa using names, by simpa using revisions, rfl⟩

theorem Manager.reserve_cases (manager : Manager)
    (fresh : List String × String × Option Failure) (done : Bool) (token : String)
    (reservation : List String → String → Except Failure (List String)) (now : ℤ) :
    (∃ other failure, manager.reserve fresh done token reservation now = (other, .error failure) ∧
      (other.job = manager.job ∧ other.issues = manager.issues ∧
        other.single = manager.single ∧ other.checking = false) ∧
      other.prepared = manager.prepared) ∨
    ∃ selected, reservation fresh.1 token = .ok selected ∧
      manager.reserve fresh done token reservation now =
        (manager.begin "schedule" token selected.length now, .ok selected) := by
  rcases fresh with ⟨names, revision, failed⟩
  simp only [Manager.reserve]
  split
  · exact .inl ⟨_, _, rfl, ⟨rfl, rfl, rfl, rfl⟩, rfl⟩
  · split
    · exact .inl ⟨_, _, rfl, ⟨rfl, rfl, rfl, rfl⟩, rfl⟩
    · split
      · exact .inl ⟨_, _, rfl, ⟨rfl, rfl, rfl, rfl⟩, rfl⟩
      · rename_i selected reserved
        split
        · exact .inl ⟨_, _, rfl, ⟨rfl, rfl, rfl, rfl⟩, rfl⟩
        · exact .inr ⟨selected, reserved, rfl⟩

theorem Sound.confirm (sound : Sound rand system holder) (answers : Answers) (now : ℤ) :
    ∃ later, Sound rand (step rand system (.confirm id answers now)) later := by
  simp only [step]
  split
  · rename_i confirmation found
    have kept : system.manager.prepared = some confirmation := sound.agreement found
    rcases sound.fresh.prepared confirmation kept with ⟨unused, drawn⟩
    rcases system.manager.confirm_cases confirmation (snapshot answers) now with
      ⟨other, failure, result, same, prepared⟩ | ⟨names, revision, result⟩
    · rw [result]
      exact sound.giveUp found rfl le_rfl same prepared
    · rw [result]
      have runSound : Run.Sound
          { id := confirmation.token, confirmed := some confirmation
            fresh := ((snapshot answers).1, (snapshot answers).2.1)
            selected := (snapshot answers).1, sent := [], results := [] } := {
        sorted := snapshot_pairwise answers
        confirmed := by
          intro other same
          cases same
          exact ⟨rfl, by rw [names, revision], names⟩
        sent := List.nil_prefix
        revision := fun _ member => by cases member
        results := List.nil_prefix
        waits := Nat.zero_le _
        stops := fun _ _ _ impossible => by cases impossible }
      exact sound.begin found rfl _ runSound ⟨rfl, rfl⟩ unused le_rfl drawn "" now
  · exact ⟨holder, sound⟩

/-- The reservation picks some of the users it is shown, as the scheduler's does. -/
def Action.Allowed : Action → Prop
  | .reserve _ _ _ reservation _ => ∀ names token selected,
      reservation names token = .ok selected → selected.Sublist names
  | _ => True

theorem Sound.reserve (sound : Sound rand system holder) (injective : Function.Injective rand)
    (answers : Answers) (done : Bool)
    {reservation : List String → String → Except Failure (List String)} {now : ℤ}
    (allowed : Action.Allowed (.reserve id answers done reservation now)) :
    ∃ later, Sound rand (step rand system (.reserve id answers done reservation now)) later := by
  simp only [step]
  split
  · rename_i found
    rcases system.manager.reserve_cases (snapshot answers) done (rand system.draws) reservation
      now with ⟨other, failure, result, same, prepared⟩ | ⟨selected, reserved, result⟩
    · rw [result]
      exact sound.giveUp found rfl (Nat.le_succ _) same (.inl prepared)
    · rw [result]
      have runSound : Run.Sound
          { id := rand system.draws, confirmed := none
            fresh := ((snapshot answers).1, (snapshot answers).2.1)
            selected := selected, sent := [], results := [] } := {
        sorted := (snapshot_pairwise answers).sublist (allowed _ _ _ reserved)
        confirmed := fun _ impossible => by cases impossible
        sent := List.nil_prefix
        revision := fun _ member => by cases member
        results := List.nil_prefix
        waits := Nat.zero_le _
        stops := fun _ _ _ impossible => by cases impossible }
      exact sound.begin found rfl _ runSound ⟨rfl, rfl⟩ (sound.fresh.unused injective)
        (Nat.le_succ _) ⟨system.draws, Nat.lt_succ_self _, rfl⟩ "schedule" now
  · exact ⟨holder, sound⟩

theorem Shows.record {manager next : Manager} {run : Run} {earlier : List Run}
    (shows : Shows manager (run :: earlier)) {change : Run → Run}
    (issues : next.issues = (change run).issues)
    (job : ∀ job, manager.job = some job → Counts job run →
      ∃ now, next.job = some now ∧ Counts now (change run)) :
    Shows next (change run :: earlier) := by
  refine ⟨fun impossible => (by cases impossible), ?_⟩
  intro latest others same
  cases same
  rcases (shows.latest run earlier rfl).2 with ⟨old, known, counts⟩
  exact ⟨issues, job old known counts⟩

/-- The holder sends a request or learns its answer. -/
theorem Sound.record (sound : Sound rand system holder) {call now : Call}
    (found : system.calls id = some call) {run : Run} {earlier : List Run}
    (latest : system.runs = run :: earlier) {change : Run → Run} (sameID : (change run).id = run.id)
    (runSound : (change run).Sound) (here : (change run).At now) {manager : Manager}
    (flags : manager.flags = now.flags) (prepared : manager.prepared = system.manager.prepared)
    (issues : manager.issues = (change run).issues)
    (job : ∀ job, system.manager.job = some job → Counts job run →
      ∃ next, manager.job = some next ∧ Counts next (change run)) :
    ∃ later, Sound rand
      (System.record { system.set id (some now) with manager := manager } change) later := by
  have mine := sound.holds.of_call found
  have shows := sound.shows
  have fresh := sound.fresh
  rw [latest] at shows fresh
  have runs : (System.record { system.set id (some now) with manager := manager } change).runs =
      change run :: earlier := by
    simp [System.record, System.set, latest]
  have ids : (change run :: earlier).map Run.id = (run :: earlier).map Run.id := by
    simp [sameID]
  refine ⟨some (id, now), ?_, ?_, ?_, ?_, ?_⟩
  · exact sound.holds.set (.inr ⟨call, mine⟩) (some now) rfl flags
  · intro other held same
    cases same
    rw [runs]
    cases now with
    | looping names => exact ⟨_, _, rfl, here⟩
    | waiting name names => exact ⟨_, _, rfl, here⟩
    | stopping => exact ⟨_, _, rfl, here⟩
    | _ => exact here.elim
  · rw [runs]
    intro other member
    rcases List.mem_cons.mp member with rfl | old
    · exact runSound
    · exact sound.runs other (latest ▸ List.mem_cons_of_mem _ old)
  · rw [runs]
    exact shows.record issues job
  · rw [runs]
    refine ⟨?_, ?_, ?_⟩
    · intro confirmation same
      rw [ids]
      exact fresh.prepared confirmation (prepared ▸ same)
    · intro other member
      rcases List.mem_cons.mp member with rfl | old
      · rw [sameID]
        exact fresh.drawn run List.mem_cons_self
      · exact fresh.drawn other (List.mem_cons_of_mem _ old)
    · rw [ids]
      exact fresh.distinct

theorem Manager.modifyJob_running {manager : Manager} {change : Job → Job}
    (same : ∀ job, (change job).state = job.state) :
    (manager.modifyJob change).running = manager.running := by
  simp only [Manager.running, Manager.modifyJob]
  cases manager.job <;> simp [same]

/-- A change of the job's reason touches neither the counters nor the run. -/
theorem Sound.reason (sound : Sound rand system holder) {names : List String}
    (found : system.calls id = some (.looping names)) {change : Job → Job}
    (state : ∀ job, (change job).state = job.state)
    (counters : ∀ job run, Counts job run → Counts (change job) run)
    (rest : ∀ run : Run, run.At (.looping names) → run.At .stopping) :
    ∃ later, Sound rand
      { system.set id (some .stopping) with manager := system.manager.modifyJob change }
      later := by
  have mine := sound.holds.of_call found
  have flags := sound.flags found
  rcases sound.agreement found with ⟨run, earlier, latest, here⟩
  refine ⟨some (id, .stopping), ?_, ?_, sound.runs, ?_, sound.fresh⟩
  · refine sound.holds.set (.inr ⟨_, mine⟩) (some .stopping) rfl ?_
    rw [Manager.flags, Manager.modifyJob_running state]
    exact flags
  · intro other call held
    cases held
    exact ⟨run, earlier, latest, rest run here⟩
  · refine ⟨?_, ?_⟩
    · intro empty
      rw [show (system.set id (some Call.stopping)).runs = system.runs from rfl, latest] at empty
      cases empty
    · intro other others same
      rcases sound.shows.latest other others same with ⟨issues, job, known, counts⟩
      refine ⟨issues, change job, ?_, counters job other counts⟩
      simp [Manager.modifyJob, known]

theorem Sound.dispatch (sound : Sound rand system holder) :
    ∃ later, Sound rand (step rand system (.dispatch id)) later := by
  simp only [step]
  split
  · rename_i found
    have stopped := sound.reason found (fun _ => rfl) (fun _ _ counts => counts)
      fun run here => here.2.1
    have same : system.manager.modifyJob (fun job => job) = system.manager := by
      simp [Manager.modifyJob]
    rw [same] at stopped
    exact stopped
  · rename_i name names found
    rcases sound.agreement found with ⟨run, earlier, latest, here⟩
    have runSound : run.Sound := sound.runs run (latest ▸ List.mem_cons_self)
    split
    · apply sound.reason found
      · exact fun _ => rfl
      · exact fun _ _ counts => ⟨counts.id, counts.total, counts.processed, counts.confirmed,
          counts.rejected, counts.unknown⟩
      · exact fun run here => here.2.1
    · have next := runSound.dispatch here
      have shown := (sound.shows.latest run earlier latest).1
      exact sound.record found latest rfl next.1 next.2 (by rw [sound.flags found]; rfl) rfl shown
        fun job known counts => ⟨job, known, counts.id, counts.total, counts.processed,
          counts.confirmed, counts.rejected, counts.unknown⟩
  · exact ⟨holder, sound⟩

theorem Manager.count_flags (manager : Manager) (name : String) (result : Option Failure) :
    (manager.count name result).1.flags = manager.flags ∧
      (manager.count name result).1.prepared = manager.prepared := by
  cases result with
  | none =>
      refine ⟨Prod.ext rfl (Prod.ext rfl ?_), rfl⟩
      exact Manager.modifyJob_running fun _ => rfl
  | some failure =>
      refine ⟨Prod.ext rfl (Prod.ext rfl ?_), rfl⟩
      exact manager.modifyJob_running fun _ => rfl

theorem Manager.count_issues (manager : Manager) (name : String) (result : Option Failure) :
    (manager.count name result).1.issues =
      manager.issues ++ (result.map fun failure => (classify name failure).1).toList := by
  cases result with
  | none => simp [Manager.count, Manager.modifyJob]
  | some failure => simp [Manager.count]

theorem Manager.count_stops (manager : Manager) (name : String) (result : Option Failure)
    (goes : (manager.count name result).2 = false) :
    ∀ failure, result = some failure → (classify name failure).2 = false := by
  intro failure same
  subst same
  exact goes

/-- The counters move together with the list of answers. -/
theorem Manager.count_job {manager : Manager} {job : Job} {run : Run} (known : manager.job = some job)
    (counts : Counts job run) (name : String) (result : Option Failure) :
    ∃ next, (manager.count name result).1.job = some next ∧
      Counts next { run with results := run.results ++ [(name, result)] } := by
  have issues := run.issues_record name result
  cases result with
  | none =>
      refine ⟨{ job with processed := job.processed + 1, confirmed := job.confirmed + 1 }, ?_, ?_⟩
      · simp [Manager.count, Manager.modifyJob, known]
      · refine ⟨counts.id, counts.total, ?_, ?_, ?_, ?_⟩
        · simp [counts.processed]
        · simp [counts.confirmed, List.countP_append]
        · rw [issues]
          simpa using counts.rejected
        · rw [issues]
          simpa using counts.unknown
  | some failure =>
      refine ⟨_, by simp only [Manager.count, Manager.modifyJob, known]; rfl, ?_⟩
      refine ⟨counts.id, counts.total, ?_, ?_, ?_, ?_⟩
      · simp [counts.processed]
      · simp [counts.confirmed, List.countP_append]
      · rw [issues]
        cases outcome : (classify name failure).1.outcome with
        | unknown => simp [counts.rejected, outcome, List.countP_append]
        | rejected => simp [counts.rejected, outcome, List.countP_append]
      · rw [issues]
        cases outcome : (classify name failure).1.outcome with
        | unknown => simp [counts.unknown, outcome, List.countP_append]
        | rejected => simp [counts.unknown, outcome, List.countP_append]

theorem Sound.answer (sound : Sound rand system holder) (result : Option Failure) :
    ∃ later, Sound rand (step rand system (.answer id result)) later := by
  simp only [step]
  split
  · rename_i name names found
    rcases sound.agreement found with ⟨run, earlier, latest, here⟩
    have runSound : run.Sound := sound.runs run (latest ▸ List.mem_cons_self)
    have next := runSound.answer here result
    have shown := (sound.shows.latest run earlier latest).1
    rcases system.manager.count_flags name result with ⟨flags, prepared⟩
    refine sound.record found latest rfl next.1 ?_ ?_ prepared ?_
      fun job known counts => Manager.count_job known counts name result
    · split
      · exact next.2
      · rename_i goes
        have continues := Run.continues_record here
          (system.manager.count_stops name result (by simpa using goes))
        exact ⟨here.1, next.2, continues⟩
    · rw [flags, sound.flags found]
      split <;> rfl
    · rw [Manager.count_issues, shown, Run.issues_record]
  · exact ⟨holder, sound⟩

theorem Sound.finish (sound : Sound rand system holder) (now : ℤ) :
    ∃ later, Sound rand (step rand system (.finish id now)) later := by
  simp only [step]
  split
  · rename_i found
    have mine := sound.holds.of_call found
    have flags := sound.flags found
    refine ⟨none, ?_, fun _ _ impossible => (by cases impossible), sound.runs, ?_, sound.fresh⟩
    · refine sound.holds.set (.inr ⟨_, mine⟩) none rfl ?_
      simp only [Manager.flags, Call.flags, Prod.mk.injEq] at flags
      have idle : (system.manager.complete now).running = false := by
        simp only [Manager.running, Manager.complete, Manager.modifyJob]
        cases system.manager.job with
        | none => rfl
        | some job =>
            simp only [Option.map_some, Option.any_some]
            split <;> rfl
      simp only [Manager.flags, idle]
      exact Prod.ext flags.1 (Prod.ext flags.2.1 rfl)
    · refine ⟨?_, ?_⟩
      · intro empty
        rcases sound.shows.nothing empty with ⟨job, issues⟩
        exact ⟨by simp [Manager.complete, Manager.modifyJob, job], issues⟩
      · intro run earlier same
        rcases sound.shows.latest run earlier same with ⟨issues, job, known, counts⟩
        refine ⟨issues, _, by simp only [Manager.complete, Manager.modifyJob, known]; rfl, ?_⟩
        exact ⟨counts.id, counts.total, counts.processed, counts.confirmed, counts.rejected,
          counts.unknown⟩
  · exact ⟨holder, sound⟩

theorem Sound.close (sound : Sound rand system holder) :
    ∃ later, Sound rand (step rand system .close) later := by
  refine ⟨holder, ⟨sound.holds.calls, sound.holds.flags⟩, ?_, sound.runs, ?_, sound.fresh⟩
  · intro other call held
    have before := sound.agrees other call held
    cases call <;> exact before
  · exact ⟨sound.shows.nothing, sound.shows.latest⟩

theorem Sound.step (sound : Sound rand system holder) (injective : Function.Injective rand)
    (action : Action) (allowed : action.Allowed) :
    ∃ later, Sound rand (step rand system action) later := by
  have checked (free : system.manager.busy = false) :
      Manager.flags { system.manager with checking := true } = (true, false, false) := by
    have flags := Manager.flags_of_busy free
    simp only [Manager.flags, Prod.mk.injEq] at flags
    exact Prod.ext rfl (Prod.ext flags.2.1 flags.2.2)
  have single (free : system.manager.busy = false) :
      Manager.flags { system.manager with single := true } = (false, true, false) := by
    have flags := Manager.flags_of_busy free
    simp only [Manager.flags, Prod.mk.injEq] at flags
    exact Prod.ext flags.1 (Prod.ext rfl flags.2.2)
  cases action with
  | prepare id => exact sound.enter id .preparing _ checked ⟨rfl, rfl, rfl⟩ trivial
  | prepared id answers now => exact sound.prepared injective answers now
  | release id => exact sound.release
  | start id token now => exact sound.start token now
  | confirm id answers now => exact sound.confirm answers now
  | schedule id => exact sound.enter id .scheduling _ checked ⟨rfl, rfl, rfl⟩ trivial
  | reserve id answers done reservation now => exact sound.reserve injective answers done allowed
  | dispatch id => exact sound.dispatch
  | answer id result => exact sound.answer result
  | finish id now => exact sound.finish now
  | resetSingle id name =>
      exact sound.enter id (.resetting name) _ single ⟨rfl, rfl, rfl⟩ trivial
  | singleDone id => exact sound.singleDone
  | close => exact sound.close

end Steps

section Counting

variable {job : Job} {run : Run}

theorem Run.length_results (run : Run) :
    run.results.length =
      (run.results.countP fun answer => answer.2.isNone) + run.issues.length := by
  rw [Run.issues]
  induction run.results with
  | nil => rfl
  | cons answer rest ih =>
      rcases answer with ⟨name, result⟩
      cases result with
      | none =>
          simp [ih]
          omega
      | some failure =>
          simp [ih]
          omega

theorem length_issues (issues : List Issue) :
    issues.length = (issues.countP fun issue => decide (issue.outcome = .rejected)) +
      issues.countP fun issue => decide (issue.outcome = .unknown) := by
  rw [List.length_eq_countP_add_countP fun issue => decide (issue.outcome = .rejected)]
  congr 1
  apply List.countP_congr
  intro issue _
  cases issue.outcome <;> simp

theorem Counts.processed_eq (counts : Counts job run) :
    job.processed = job.confirmed + job.rejected + job.unknown := by
  rw [counts.processed, counts.confirmed, counts.rejected, counts.unknown, run.length_results,
    length_issues run.issues]
  omega

theorem Run.Sound.length_results_le (sound : run.Sound) :
    run.results.length ≤ run.selected.length := by
  have answered := sound.results.length_le
  have sent := sound.sent.length_le
  simp only [List.length_map] at answered sent
  exact answered.trans sent

/-- All pages of the issues, each asked for at the offset that the last one named. -/
def listIssues (job : Job) (issues : List Issue) : ℕ → ℤ → List Issue
  | 0, _ => []
  | pages + 1, offset =>
      let status := statusLocked job issues offset
      status.issues ++
        match status.nextOffset with
        | none => []
        | some next => listIssues job issues pages next

theorem statusLocked_page (job : Job) (issues : List Issue) {start : ℕ}
    (inside : start ≤ issues.length) :
    (statusLocked job issues start).issues = (issues.drop start).take 50 ∧
      (statusLocked job issues start).nextOffset =
        if start + 50 < issues.length then some (start + 50) else none := by
  have clamped : (max 0 (min (start : ℤ) issues.length)).toNat = start := by omega
  simp only [statusLocked, clamped]
  by_cases more : start + 50 < issues.length
  · have stop : min (start + 50) issues.length = start + 50 := by omega
    simp [stop, more]
  · have stop : min (start + 50) issues.length = issues.length := by omega
    simp only [stop, lt_irrefl, if_false, more, and_true]
    rw [List.take_of_length_le, List.take_of_length_le]
    · rw [List.length_drop]
      omega
    · rw [List.length_drop]

theorem listIssues_eq (job : Job) (issues : List Issue) (pages start : ℕ)
    (inside : start ≤ issues.length) (enough : issues.length - start < pages) :
    listIssues job issues pages start = issues.drop start := by
  induction pages generalizing start with
  | zero => omega
  | succ pages ih =>
      rcases statusLocked_page job issues inside with ⟨page, next⟩
      simp only [listIssues, page, next]
      by_cases more : start + 50 < issues.length
      · simp only [more, if_true]
        rw [ih (start + 50) (by omega) (by omega), ← List.drop_drop]
        exact List.take_append_drop 50 _
      · simp only [more, if_false, List.append_nil]
        apply List.take_of_length_le
        rw [List.length_drop]
        omega

end Counting

section Results

variable {rand : ℕ → String} {system : System} {holder : Option (ℕ × Call)}

/-- What a token that has started a run does when it is presented again. -/
def System.Settled (system : System) (run : Run) (now : ℤ) : Prop :=
  if system.manager.closed then system.manager.admission run.id now = .refused .closed
  else if system.runs.head? = some run then
    ∃ status, system.manager.admission run.id now = .current status ∧ status.job.id = run.id
  else ∃ failure, system.manager.admission run.id now = .refused failure

/-- A status is honest about the latest run. -/
structure Status.Honest (status : Status) (run : Run) (issues : List Issue) : Prop where
  id : status.job.id = run.id
  total : status.job.total = run.selected.length
  processed : status.job.processed = run.results.length
  added : status.job.processed = status.job.confirmed + status.job.rejected + status.job.unknown
  bounded : status.job.processed ≤ status.job.total
  remaining : status.remaining = status.job.total - status.job.processed
  issuesTotal : status.issuesTotal = status.job.rejected + status.job.unknown
  issues : listIssues status.job issues (issues.length + 1) 0 = run.issues

theorem Sound.honest (sound : Sound rand system holder) {id : String} {offset : ℤ}
    {status : Status} (shown : system.manager.status id offset = .ok (some status)) :
    ∃ run earlier, system.runs = run :: earlier ∧ status.Honest run system.manager.issues := by
  cases runs : system.runs with
  | nil =>
      have nothing := (sound.shows.nothing runs).1
      simp only [Manager.status, nothing] at shown
      split at shown <;> cases shown
  | cons run earlier =>
      rcases sound.shows.latest run earlier runs with ⟨issues, job, known, counts⟩
      have runSound := sound.runs run (runs ▸ List.mem_cons_self)
      refine ⟨run, earlier, rfl, ?_⟩
      simp only [Manager.status, known] at shown
      split at shown
      · cases shown
      · cases shown
        exact {
          id := counts.id
          total := counts.total
          processed := counts.processed
          added := counts.processed_eq
          bounded := by
            simp only [statusLocked, counts.processed, counts.total]
            exact runSound.length_results_le
          remaining := rfl
          issuesTotal := by
            simp only [statusLocked, counts.rejected, counts.unknown, issues]
            exact length_issues run.issues
          issues := by
            rw [issues]
            exact listIssues_eq job run.issues _ 0 (Nat.zero_le _) (Nat.lt_succ_self _) }

theorem Sound.settled (sound : Sound rand system holder) {run : Run} (member : run ∈ system.runs)
    (now : ℤ) : system.Settled run now := by
  unfold System.Settled Manager.admission
  by_cases closed : system.manager.closed = true
  · simp [closed]
  · simp only [closed, Bool.false_eq_true, if_false]
    rcases List.mem_iff_append.mp member with ⟨before, after, split⟩
    cases before with
    | nil =>
        rcases sound.shows.latest run after split with ⟨-, job, known, counts⟩
        have found : system.manager.job.filter (fun job => decide (job.id = run.id)) =
            some job := by
          simp [known, counts.id]
        simp only [split, List.nil_append, List.head?_cons, if_true, found]
        exact ⟨_, rfl, counts.id⟩
    | cons latest between =>
        have distinct := sound.fresh.distinct
        rw [split, List.cons_append, List.map_cons] at distinct
        have newer := (List.nodup_cons.mp distinct).1
        have other : latest.id ≠ run.id := by
          intro same
          apply newer
          rw [same]
          exact List.mem_map_of_mem (List.mem_append_right _ List.mem_cons_self)
        have notLatest : system.runs.head? ≠ some run := by
          intro same
          rw [split] at same
          cases same
          exact other rfl
        rcases sound.shows.latest latest _ split with ⟨-, job, known, counts⟩
        have missing : system.manager.job.filter (fun job => decide (job.id = run.id)) =
            none := by
          simp [known, counts.id, other]
        rw [if_neg notLatest]
        simp only [missing]
        split
        · exact ⟨_, rfl⟩
        · split
          · exact ⟨_, rfl⟩
          · rename_i confirmation kept
            have unused := (sound.fresh.prepared confirmation kept).1
            have different : confirmation.token ≠ run.id := by
              intro same
              apply unused
              rw [same]
              exact List.mem_map_of_mem member
            rw [if_pos (.inr (.inl different))]
            exact ⟨_, rfl⟩

/-- After every run of the manager: one call at most is in the slot, no token has started two
runs and none of them can start another, every run has sent what it may, and every status
is honest. -/
theorem bulk_reset (rand : ℕ → String) (injective : Function.Injective rand)
    (actions : List Action) (allowed : ∀ action ∈ actions, action.Allowed) :
    let system := after (step rand) initialSystem actions
    (∀ first second call other, system.calls first = some call →
      system.calls second = some other → first = second) ∧
    (system.runs.map Run.id).Nodup ∧
    (∀ run ∈ system.runs, run.Sound ∧ (∀ now, system.Settled run now) ∧
      ∀ id now, step rand system (.start id run.id now) = system) ∧
    ∀ id offset status, system.manager.status id offset = .ok (some status) →
      ∃ run earlier, system.runs = run :: earlier ∧
        status.Honest run system.manager.issues := by
  intro system
  have sound : ∃ holder, Sound rand system holder :=
    @invariant_after _ _ _ _ (fun system => ∃ holder, Sound rand system holder)
      (fun state action before permitted => by
        rcases before with ⟨holder, sound⟩
        exact sound.step injective action permitted)
      _ ⟨none, sound_initialSystem rand⟩ _ (permitted_of_forall allowed)
  rcases sound with ⟨holder, sound⟩
  refine ⟨?_, sound.fresh.distinct, ?_, ?_⟩
  · intro first second call other firstFound secondFound
    have one := sound.holds.of_call firstFound
    have two := sound.holds.of_call secondFound
    cases one.symm.trans two
    rfl
  · intro run member
    refine ⟨sound.runs run member, sound.settled member, ?_⟩
    intro id now
    have settled := sound.settled member now
    unfold System.Settled at settled
    simp only [step]
    split
    · rfl
    · split
      · rename_i confirmation admitted
        rw [admitted] at settled
        repeat' split at settled
        · cases settled
        · rcases settled with ⟨status, impossible, -⟩
          cases impossible
        · rcases settled with ⟨failure, impossible⟩
          cases impossible
      · rfl
  · intro id offset status shown
    exact sound.honest shown

section Failed

def sampleRand (draw : ℕ) : String := String.ofList (List.replicate (draw + 1) 'a')

theorem sampleRand_injective : Function.Injective sampleRand := by
  intro first second same
  have lengths := congrArg (fun token : String => token.toList.length) same
  simpa [sampleRand] using lengths

def sampleAnswers : Answers where
  health := .ok false
  quotaList := .ok true
  usersWithRevision := .ok (["ann"], "r1")

/-- A confirmed run, and a second one after it. -/
def sampleActions : List Action :=
  [.prepare 0, .prepared 0 sampleAnswers 0, .release 0, .start 0 "a" 1,
    .confirm 0 sampleAnswers 2, .dispatch 0, .answer 0 none, .dispatch 0, .finish 0 3,
    .prepare 0, .prepared 0 sampleAnswers 4, .release 0, .start 0 "aa" 5,
    .confirm 0 sampleAnswers 6]

/-- The first token has started a run, and no longer leads to its result. -/
theorem sampleToken_not_current :
    let system := after (step sampleRand) initialSystem sampleActions
    ∃ run ∈ system.runs, run.id = "a" ∧
      ¬∃ status, system.manager.admission run.id 7 = .current status ∧ status.job.id = run.id := by
  refine ⟨{ id := "a", confirmed := some
              { token := "a", total := 1, expiresAt := 120000000000, names := ["ann"]
                revision := "r1" }
            fresh := (["ann"], "r1"), selected := ["ann"], sent := [("ann", "r1")]
            results := [("ann", none)] }, ?_, rfl, ?_⟩
  · decide +kernel
  · rintro ⟨status, current, -⟩
    have refused : (after (step sampleRand) initialSystem sampleActions).manager.admission "a" 7 =
        .refused .busy := by decide +kernel
    cases refused.symm.trans current

theorem sampleActions_bulk_reset :
    ((after (step sampleRand) initialSystem sampleActions).runs.map Run.id).Nodup :=
  (bulk_reset sampleRand sampleRand_injective sampleActions (by
    intro action member
    simp only [sampleActions, List.mem_cons, List.not_mem_nil, or_false] at member
    rcases member with rfl | rfl | rfl | rfl | rfl | rfl | rfl | rfl | rfl | rfl | rfl | rfl |
      rfl | rfl
    all_goals trivial)).2.1

end Failed

end Results

end TelemtPanel.QuotaReset
