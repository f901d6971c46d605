import TelemtPanel.Telemt.Capabilities

/-!
# Generations of the capability flags

The token of the gate is held by one call at most, so that one round of probes runs at a time.
A section that records an observation compares its generation with the current one under the
mutex, and a valid cache and an observation that is set always belong to the current generation.

A call of `Capabilities` takes the probed flags in one section and reads the observations in
another.  Its value belongs to one generation when no version is recorded in between, and is
not too old when no time passes in between that ends the lifetime of what was taken.
-/

namespace TelemtPanel.Telemt

open TelemtPanel.Library

section Phases

/-- Phases in which a call has the token. -/
def Phase.holds : Phase → Bool
  | .owning | .reading | .probing _ | .probed _ _ | .storing _ _ | .releasing _ => true
  | _ => false

/-- A goroutine that has the token. -/
def Work.holds : Work → Bool
  | .capabilities phase => phase.holds
  | _ => false

/-- Flags that were taken and not yet returned. -/
def Work.drawn? : Work → Option Drawn
  | .capabilities (.releasing result) => result
  | .capabilities (.taking drawn) => some drawn
  | _ => none

/-- A round that is about to be stored. -/
def Work.storing? : Work → Option (ℕ × Caps)
  | .capabilities (.storing generation caps) => some (generation, caps)
  | _ => none

/-- The generation that a round, a request of the version or a mutation was begun in. -/
def Work.generation? : Work → Option ℕ
  | .capabilities (.probing generation) => some generation
  | .capabilities (.probed generation _) => some generation
  | .capabilities (.storing generation _) => some generation
  | .systemInfo generation => generation
  | .mutation _ generation => generation
  | _ => none

end Phases

variable {s : System} {tid : ℕ} {thread : Thread} {choice : Choice} {action : Action}

/-- The steps of a goroutine, by what they do to the client. -/
inductive Moves (s : System) (thread : Thread) (choice : Choice) : Effect → Prop where
  | idle {work : Work} (holds : work.holds = thread.work.holds) (empty : work.drawn? = none)
      (unstored : work.storing? = none) : Moves s thread choice (s.goesTo work)
  | draw {work : Work} (holds : work.holds = thread.work.holds)
      (drawn : work.drawn? = some (s.drawn s.client.caps)) (unstored : work.storing? = none)
      (valid : s.client.capsValid = true)
      (young : s.now < s.client.capsAt + capabilityCacheTTL) : Moves s thread choice (s.goesTo work)
  | acquire (unheld : thread.work.holds = false) (token : s.client.capabilityProbeGate = true) :
      Moves s thread choice { s.goesTo (.capabilities .owning) with
        client := { s.client with capabilityProbeGate := false } }
  | probed {generation : ℕ} {caps : Caps}
      (was : thread.work = .capabilities (.probed generation caps)) (active : thread.done = false) :
      Moves s thread choice (s.goesTo (.capabilities (.storing generation caps)))
  | store {generation : ℕ} {caps : Caps}
      (was : thread.work = .capabilities (.storing generation caps))
      (current : generation = s.client.capsGeneration) :
      Moves s thread choice ⟨.capabilities (.releasing (some ⟨caps, generation, s.now⟩)),
        { s.client with caps, capsAt := s.now, capsValid := true },
        { s.origin with caps := generation }, none⟩
  | release {phase : Phase} (held : thread.work.holds = true)
      (unheld : phase.holds = false) (kept : (Work.capabilities phase).drawn? = thread.work.drawn?)
      (unstored : (Work.capabilities phase).storing? = none) :
      Moves s thread choice { s.goesTo (.capabilities phase) with
        client := { s.client with capabilityProbeGate := true } }
  | version {generation : ℕ} {version : String} (was : thread.work = .systemInfo (some generation))
      (seen : choice = .version (.ok version)) :
      Moves s thread choice { s.goesTo .finished with
        client := s.client.observeTelemtVersion version generation }
  | mutation {route : Route} {generation : ℕ} {err : Option CallError}
      (was : thread.work = .mutation route (some generation)) :
      Moves s thread choice { s.goesTo .finished with
        client := s.client.observeMutation route generation err s.now
        origin := { s.origin with
          absent := if generation = s.client.capsGeneration then
              Function.update s.origin.absent route generation
            else s.origin.absent } }
  | take {drawn : Drawn} (was : thread.work = .capabilities (.taking drawn)) :
      Moves s thread choice (s.take thread.begun drawn)

theorem cachedCaps_cases (c : Client) (now : Time) :
    c.cachedCaps now = none ∨ c.cachedCaps now = some c.caps ∧ c.capsValid = true ∧
      now < c.capsAt + capabilityCacheTTL := by
  unfold Client.cachedCaps
  split
  · rename_i valid
    exact .inr ⟨rfl, valid⟩
  · exact .inl rfl

theorem effect_moves (s : System) (thread : Thread) (choice : Choice) :
    Moves s thread choice (s.effect thread choice) := by
  rcases thread with ⟨work, done, begun⟩
  cases work with
  | capabilities phase =>
      cases phase with
      | entered => cases done <;> exact .idle rfl rfl rfl
      | looking =>
          simp only [System.effect, System.advance]
          rcases cachedCaps_cases s.client s.now with none | ⟨found, valid, young⟩
          · rw [none]
            exact .idle rfl rfl rfl
          · rw [found]
            exact .draw rfl rfl rfl valid young
      | waiting =>
          cases choice with
          | context => cases done <;> exact .idle rfl rfl rfl
          | token =>
              simp only [System.effect, System.advance]
              split
              · rename_i token
                exact .acquire rfl token
              · exact .idle rfl rfl rfl
          | _ => exact .idle rfl rfl rfl
      | owning =>
          simp only [System.effect, System.advance]
          rcases cachedCaps_cases s.client s.now with none | ⟨found, valid, young⟩
          · rw [none]
            exact .idle rfl rfl rfl
          · rw [found]
            exact .draw rfl rfl rfl valid young
      | reading => exact .idle rfl rfl rfl
      | probing generation => cases choice <;> exact .idle rfl rfl rfl
      | probed generation caps =>
          cases done with
          | true => exact .idle rfl rfl rfl
          | false => exact .probed rfl rfl
      | storing generation caps =>
          simp only [System.effect, System.advance, Client.storeCaps]
          by_cases current : generation = s.client.capsGeneration
          · subst current
            simp only [ne_eq, not_true_eq_false, if_false, if_true]
            exact .store rfl rfl
          · simp only [ne_eq, current, not_false_eq_true, if_true]
            exact .idle rfl rfl rfl
      | releasing result => cases result <;> exact .release rfl rfl rfl rfl
      | taking drawn => exact .take rfl
      | returned => exact .idle rfl rfl rfl
  | systemInfo generation =>
      cases generation with
      | none => exact .idle rfl rfl rfl
      | some generation =>
          cases choice with
          | version info =>
              cases info with
              | ok version => exact .version rfl rfl
              | error err => exact .idle rfl rfl rfl
          | _ => exact .idle rfl rfl rfl
  | mutation route generation =>
      cases generation with
      | none => exact .idle rfl rfl rfl
      | some generation =>
          cases choice with
          | mutated err => exact .mutation rfl
          | _ => exact .idle rfl rfl rfl
  | finished => exact .idle rfl rfl rfl

section Client

variable {c : Client} {route other : Route} {now : Time} {generation : ℕ} {version : String}
  {err : Option CallError} {caps : Caps}

@[simp] theorem absent_setAbsent (c : Client) (observation : NegativeCapabilityObservation)
    (route other : Route) :
    (c.setAbsent observation route).absent other =
      if other = route then observation else c.absent other := by
  cases route <;> cases other <;> rfl

/-- Everything the mutex guards apart from the observations, and the gate. -/
structure Client.SameCache (c later : Client) : Prop where
  caps : later.caps = c.caps
  capsAt : later.capsAt = c.capsAt
  capsValid : later.capsValid = c.capsValid
  telemtVersion : later.telemtVersion = c.telemtVersion
  capsGeneration : later.capsGeneration = c.capsGeneration
  gate : later.capabilityProbeGate = c.capabilityProbeGate

theorem Client.SameCache.refl (c : Client) : c.SameCache c := ⟨rfl, rfl, rfl, rfl, rfl, rfl⟩

theorem Client.SameCache.trans {first second third : Client} (before : first.SameCache second)
    (after : second.SameCache third) : first.SameCache third :=
  ⟨after.caps.trans before.caps, after.capsAt.trans before.capsAt,
    after.capsValid.trans before.capsValid, after.telemtVersion.trans before.telemtVersion,
    after.capsGeneration.trans before.capsGeneration, after.gate.trans before.gate⟩

theorem sameCache_setAbsent (c : Client) (observation : NegativeCapabilityObservation)
    (route : Route) : c.SameCache (c.setAbsent observation route) := by
  cases route <;> exact ⟨rfl, rfl, rfl, rfl, rfl, rfl⟩

theorem sameCache_observeMutation (c : Client) (route : Route) (generation : ℕ)
    (err : Option CallError) (now : Time) :
    c.SameCache (c.observeMutation route generation err now) := by
  unfold Client.observeMutation
  split
  · exact .refl c
  · cases err with
    | none => exact sameCache_setAbsent ..
    | some err =>
        dsimp only
        split
        · exact sameCache_setAbsent ..
        · exact .refl c

/-- A section that reads an observation leaves it or clears it. -/
theorem afterObservation_cases (c : Client) (route : Route) (now : Time) :
    c.afterObservation route now = c ∨ c.afterObservation route now = c.setAbsent .zero route := by
  unfold Client.afterObservation
  split
  · exact .inl rfl
  · split
    · exact .inl rfl
    · exact .inr rfl

theorem readObservations_spec (c : Client) (caps : Caps) (now : Time) :
    c.SameCache (c.readObservations caps now).2 ∧
      ∀ route, ((c.readObservations caps now).2.absent route).observedAt ≠ none →
        (c.absent route).observedAt ≠ none := by
  simp only [Client.readObservations]
  rcases afterObservation_cases c .setEnabled now with first | first <;> rw [first]
  · rcases afterObservation_cases c .rotateSecret now with second | second <;> rw [second]
    · exact ⟨.refl c, fun _ set => set⟩
    · refine ⟨sameCache_setAbsent .., fun route set => ?_⟩
      cases route with
      | setEnabled => exact set
      | rotateSecret => exact absurd rfl set
  · rcases afterObservation_cases (c.setAbsent .zero .setEnabled) .rotateSecret now with
      second | second <;> rw [second]
    · refine ⟨sameCache_setAbsent .., fun route set => ?_⟩
      cases route with
      | setEnabled => exact absurd rfl set
      | rotateSecret => exact set
    · refine ⟨(sameCache_setAbsent ..).trans (sameCache_setAbsent ..), fun route set => ?_⟩
      cases route with
      | setEnabled => exact absurd rfl set
      | rotateSecret => exact absurd rfl set

theorem observeTelemtVersion_of_not (same : ¬c.NewVersion version generation) :
    c.observeTelemtVersion version generation = c := by
  rw [Client.observeTelemtVersion, if_neg same]

/-- A new version is a new generation in which nothing is known. -/
theorem observeTelemtVersion_of_new (isNew : c.NewVersion version generation) :
    (c.observeTelemtVersion version generation).capsGeneration = c.capsGeneration + 1 ∧
      (c.observeTelemtVersion version generation).capsValid = false ∧
      (c.observeTelemtVersion version generation).capabilityProbeGate = c.capabilityProbeGate ∧
      ∀ route, ((c.observeTelemtVersion version generation).absent route).observedAt = none := by
  rw [Client.observeTelemtVersion, if_pos isNew]
  refine ⟨rfl, rfl, rfl, fun route => ?_⟩
  cases route <;> rfl

theorem gate_observeTelemtVersion (c : Client) (version : String) (generation : ℕ) :
    (c.observeTelemtVersion version generation).capabilityProbeGate = c.capabilityProbeGate := by
  by_cases isNew : c.NewVersion version generation
  · exact (observeTelemtVersion_of_new isNew).2.2.1
  · rw [observeTelemtVersion_of_not isNew]

end Client

section Stale

/-- What was begun in an older generation is not recorded. -/
theorem stale_step {generation : ℕ} (found : s.threads tid = some thread)
    (begun : thread.work.generation? = some generation)
    (older : generation ≠ s.client.capsGeneration) (choice : Choice) :
    (s.step (.proceed tid choice)).client = s.client := by
  simp only [System.step, found, System.proceed]
  rcases thread with ⟨work, done, start⟩
  cases work with
  | capabilities phase =>
      cases phase with
      | probing own => cases choice <;> rfl
      | probed own caps => cases done <;> rfl
      | storing own caps =>
          cases begun
          simp [System.effect, System.advance, System.goesTo, Client.storeCaps, older]
      | _ => cases begun
  | systemInfo own =>
      change own = some generation at begun
      subst begun
      cases choice with
      | version info =>
          cases info with
          | ok version => exact observeTelemtVersion_of_not fun isNew => older isNew.2.1
          | error err => rfl
      | _ => rfl
  | mutation route own =>
      change own = some generation at begun
      subst begun
      cases choice with
      | mutated err =>
          change s.client.observeMutation route generation err s.now = s.client
          unfold Client.observeMutation
          exact if_pos older
      | _ => rfl
  | finished => cases begun

end Stale

section Invariants

/-- The token is in the gate, or one goroutine has it. -/
structure Exclusive (s : System) : Prop where
  free : s.client.capabilityProbeGate = true → ∀ tid thread, s.threads tid = some thread →
    thread.work.holds = false
  single : ∀ tid other thread own, s.threads tid = some thread → s.threads other = some own →
    thread.work.holds = true → own.work.holds = true → tid = other

/-- Cached flags and observations that are set belong to the current generation, and no call began
in a later one. -/
structure Sound (s : System) : Prop where
  cached : s.client.capsValid = true → s.origin.caps = s.client.capsGeneration
  absent : ∀ route, (s.client.absent route).observedAt ≠ none →
    s.origin.absent route = s.client.capsGeneration
  begun : ∀ tid thread, s.threads tid = some thread → thread.begun ≤ s.client.capsGeneration
  fresh : ∀ tid, s.next ≤ tid → s.threads tid = none

/-- Threads after a step. -/
theorem threads_proceed {effect : Effect} {other : ℕ} {own : Thread}
    (found : (s.proceed tid thread effect).threads other = some own) :
    other = tid ∧ own = { thread with work := effect.work } ∨
      other ≠ tid ∧ s.threads other = some own := by
  simp only [System.proceed, Function.update_apply] at found
  split at found
  · rename_i here
    exact .inl ⟨here, (Option.some.inj found).symm⟩
  · rename_i elsewhere
    exact .inr ⟨elsewhere, found⟩

/-- Who held the token before a step that leaves it where it is. -/
theorem Exclusive.keep (exclusive : Exclusive s) {later : System}
    (gate : later.client.capabilityProbeGate = s.client.capabilityProbeGate)
    (held : ∀ tid thread, later.threads tid = some thread → thread.work.holds = true →
      ∃ before, s.threads tid = some before ∧ before.work.holds = true) : Exclusive later where
  free token tid thread found := by
    by_contra holds
    rcases held tid thread found (Bool.not_eq_false _ ▸ holds) with ⟨before, known, held⟩
    rw [exclusive.free (gate ▸ token) tid before known] at held
    cases held
  single tid other thread own found also holds too := by
    rcases held tid thread found holds with ⟨before, known, first⟩
    rcases held other own also too with ⟨earlier, seen, second⟩
    exact exclusive.single tid other before earlier known seen first second

theorem Exclusive.proceed (exclusive : Exclusive s) (found : s.threads tid = some thread)
    {effect : Effect} (moves : Moves s thread choice effect) : Exclusive (s.proceed tid thread effect) := by
  have keep : effect.client.capabilityProbeGate = s.client.capabilityProbeGate →
      (effect.work.holds = true → thread.work.holds = true) →
      Exclusive (s.proceed tid thread effect) := by
    intro gate holds
    refine exclusive.keep gate fun other own isOwn held => ?_
    rcases threads_proceed isOwn with ⟨rfl, rfl⟩ | ⟨-, known⟩
    · exact ⟨thread, found, holds held⟩
    · exact ⟨own, known, held⟩
  cases moves with
  | idle holds => exact keep rfl fun held => holds ▸ held
  | draw holds => exact keep rfl fun held => holds ▸ held
  | acquire unheld token =>
      refine ⟨fun free => (by cases free),
        fun one two first second isFirst isSecond holds too => ?_⟩
      rcases threads_proceed isFirst with ⟨rfl, rfl⟩ | ⟨-, known⟩
      · rcases threads_proceed isSecond with ⟨rfl, rfl⟩ | ⟨-, seen⟩
        · rfl
        · rw [exclusive.free token two second seen] at too
          cases too
      · rw [exclusive.free token one first known] at holds
        cases holds
  | probed was => exact keep rfl fun _ => by rw [was]; rfl
  | store was => exact keep rfl fun _ => by rw [was]; rfl
  | @release phase held unheld =>
      have others : ∀ other own,
          (s.proceed tid thread { s.goesTo (.capabilities phase) with
            client := { s.client with capabilityProbeGate := true } }).threads other = some own →
          own.work.holds = false := by
        intro other own isOwn
        rcases threads_proceed isOwn with ⟨rfl, rfl⟩ | ⟨elsewhere, known⟩
        · exact unheld
        · by_contra holds
          exact elsewhere (exclusive.single other tid own thread known found
            (Bool.not_eq_false _ ▸ holds) held)
      refine ⟨fun _ => others, fun one two first second isFirst isSecond holds too => ?_⟩
      rw [others one first isFirst] at holds
      cases holds
  | version => exact keep (gate_observeTelemtVersion ..) fun held => by cases held
  | mutation was =>
      exact keep (sameCache_observeMutation ..).gate fun held => by cases held
  | @take drawn was =>
      exact keep (readObservations_spec s.client drawn.caps s.now).1.gate fun held => by cases held

/-- Threads after an action that is not a step of a goroutine. -/
theorem threads_step (fresh : ∀ tid, s.next ≤ tid → s.threads tid = none)
    (outside : ∀ tid choice, action ≠ .proceed tid choice) {own : Thread}
    (found : (s.step action).threads tid = some own) :
    (∃ before, s.threads tid = some before ∧ before.work = own.work ∧
        before.begun = own.begun) ∨
      own.work.holds = false ∧ own.work.drawn? = none ∧ own.work.storing? = none ∧
        own.begun = s.client.capsGeneration ∧ s.threads tid = none := by
  have spawned : ∀ work : Work, work.holds = false → work.drawn? = none → work.storing? = none →
      (s.spawn work).threads tid = some own →
      (∃ before, s.threads tid = some before ∧ before.work = own.work ∧
        before.begun = own.begun) ∨
      own.work.holds = false ∧ own.work.drawn? = none ∧ own.work.storing? = none ∧
        own.begun = s.client.capsGeneration ∧ s.threads tid = none := by
    intro work unheld empty unstored isOwn
    simp only [System.spawn, Function.update_apply] at isOwn
    split at isOwn
    · rename_i here
      cases isOwn
      exact .inr ⟨unheld, empty, unstored, rfl, fresh tid here.ge⟩
    · exact .inl ⟨own, isOwn, rfl, rfl⟩
  cases action with
  | call => exact spawned _ rfl rfl rfl found
  | systemInfo => exact spawned _ rfl rfl rfl found
  | mutate route => exact spawned _ rfl rfl rfl found
  | cancel other =>
      simp only [System.step] at found
      split at found
      · rename_i here
        rcases Option.map_eq_some_iff.mp found with ⟨before, known, rfl⟩
        exact .inl ⟨before, here ▸ known, rfl, rfl⟩
      · exact .inl ⟨own, found, rfl, rfl⟩
  | wait elapsed => exact .inl ⟨own, found, rfl, rfl⟩
  | proceed other choice => exact absurd rfl (outside other choice)

theorem client_step (outside : ∀ tid choice, action ≠ .proceed tid choice) :
    (s.step action).client = s.client ∧ (s.step action).origin = s.origin ∧
      (s.step action).answers = s.answers := by
  cases action with
  | proceed tid choice => exact absurd rfl (outside tid choice)
  | _ => exact ⟨rfl, rfl, rfl⟩

theorem step_cases (s : System) (action : Action) :
    (∃ tid choice thread effect, action = .proceed tid choice ∧ s.threads tid = some thread ∧
      Moves s thread choice effect ∧ s.step action = s.proceed tid thread effect) ∨
    (∃ tid choice, action = .proceed tid choice) ∧ s.step action = s ∨
    ∀ tid choice, action ≠ .proceed tid choice := by
  cases action with
  | proceed tid choice =>
      cases found : s.threads tid with
      | none =>
          refine .inr (.inl ⟨⟨tid, choice, rfl⟩, ?_⟩)
          simp only [System.step, found]
      | some thread =>
          refine .inl ⟨tid, choice, thread, s.effect thread choice, rfl, found,
            effect_moves s thread choice, ?_⟩
          simp only [System.step, found]
  | _ =>
      right
      right
      intro tid choice same
      cases same

theorem Exclusive.step (exclusive : Exclusive s) (sound : Sound s) (action : Action) :
    Exclusive (s.step action) := by
  rcases step_cases s action with
    ⟨tid, choice, thread, effect, -, found, moves, same⟩ | ⟨-, same⟩ | outside
  · rw [same]
    exact exclusive.proceed found moves
  · rwa [same]
  · refine exclusive.keep (by rw [(client_step outside).1]) fun other own isOwn holds => ?_
    rcases threads_step sound.fresh outside isOwn with ⟨before, known, work, -⟩ | ⟨unheld, -⟩
    · exact ⟨before, known, work ▸ holds⟩
    · rw [unheld] at holds
      cases holds

/-- The generation never goes back, and a step that keeps it keeps what it says. -/
theorem Sound.proceed (sound : Sound s) (found : s.threads tid = some thread) {effect : Effect}
    (moves : Moves s thread choice effect) :
    Sound (s.proceed tid thread effect) ∧
      s.client.capsGeneration ≤ effect.client.capsGeneration := by
  have keep : s.client.capsGeneration ≤ effect.client.capsGeneration →
      (effect.client.capsValid = true → effect.origin.caps = effect.client.capsGeneration) →
      (∀ route, (effect.client.absent route).observedAt ≠ none →
        effect.origin.absent route = effect.client.capsGeneration) →
      Sound (s.proceed tid thread effect) ∧
        s.client.capsGeneration ≤ effect.client.capsGeneration := by
    intro grows cached absent
    refine ⟨⟨cached, absent, fun other own isOwn => ?_, fun other unused => ?_⟩, grows⟩
    · rcases threads_proceed isOwn with ⟨rfl, rfl⟩ | ⟨-, known⟩
      · exact (sound.begun other thread found).trans grows
      · exact (sound.begun other own known).trans grows
    · have differ : other ≠ tid := by
        rintro rfl
        rw [sound.fresh other unused] at found
        cases found
      simp only [System.proceed, Function.update_of_ne differ]
      exact sound.fresh other unused
  cases moves with
  | idle => exact keep le_rfl sound.cached sound.absent
  | draw => exact keep le_rfl sound.cached sound.absent
  | acquire => exact keep le_rfl sound.cached fun route => sound.absent route
  | probed => exact keep le_rfl sound.cached sound.absent
  | store was current => exact keep le_rfl (fun _ => current) fun route => sound.absent route
  | release => exact keep le_rfl sound.cached fun route => sound.absent route
  | @version generation version was seen =>
      by_cases isNew : s.client.NewVersion version generation
      · have spec := observeTelemtVersion_of_new isNew
        refine keep (by rw [spec.1]; exact Nat.le_succ _) (fun valid => ?_) fun route set => ?_
        · rw [spec.2.1] at valid
          cases valid
        · exact absurd (spec.2.2.2 route) set
      · have same := observeTelemtVersion_of_not isNew
        refine keep (by rw [same]) ?_ ?_
        · rw [same]
          exact sound.cached
        · rw [same]
          exact sound.absent
  | @mutation route generation err was =>
      have spec := sameCache_observeMutation s.client route generation err s.now
      refine keep spec.capsGeneration.ge (fun valid => ?_) fun other set => ?_
      · rw [spec.capsGeneration]
        exact sound.cached (spec.capsValid ▸ valid)
      · rw [spec.capsGeneration]
        dsimp only at set ⊢
        split
        · rename_i current
          rw [Function.update_apply]
          split
          · exact current
          · rename_i differ
            refine sound.absent other ?_
            unfold Client.observeMutation at set
            rw [if_neg (not_not.mpr current)] at set
            cases err with
            | none => simpa [differ] using set
            | some err =>
                dsimp only at set
                split at set
                · simpa [differ] using set
                · exact set
        · rename_i older
          refine sound.absent other ?_
          unfold Client.observeMutation at set
          rwa [if_pos older] at set
  | @take drawn was =>
      have spec := readObservations_spec s.client drawn.caps s.now
      refine keep spec.1.capsGeneration.ge (fun valid => ?_) fun route set => ?_
      · exact (sound.cached (spec.1.capsValid ▸ valid)).trans spec.1.capsGeneration.symm
      · exact (sound.absent route (spec.2 route set)).trans spec.1.capsGeneration.symm

theorem Sound.step (sound : Sound s) (action : Action) :
    Sound (s.step action) ∧ s.client.capsGeneration ≤ (s.step action).client.capsGeneration := by
  rcases step_cases s action with
    ⟨tid, choice, thread, effect, -, found, moves, same⟩ | ⟨-, same⟩ | outside
  · rw [same]
    exact sound.proceed found moves
  · rw [same]
    exact ⟨sound, le_rfl⟩
  · have kept := client_step (s := s) outside
    refine ⟨⟨?_, ?_, fun other own isOwn => ?_, ?_⟩, by rw [kept.1]⟩
    · rw [kept.1, kept.2.1]
      exact sound.cached
    · rw [kept.1, kept.2.1]
      exact sound.absent
    · rw [kept.1]
      rcases threads_step sound.fresh outside isOwn with ⟨before, known, -, begun⟩ |
        ⟨-, -, -, begun, -⟩
      · rw [← begun]
        exact sound.begun other before known
      · exact begun.le
    · intro other unused
      have spawned : ∀ work, (s.spawn work).next ≤ other → (s.spawn work).threads other = none := by
        intro work unused
        have differ : other ≠ s.next := (Nat.lt_of_succ_le unused).ne'
        simp only [System.spawn, Function.update_of_ne differ]
        exact sound.fresh other (Nat.le_of_succ_le unused)
      cases action with
      | call => exact spawned _ unused
      | systemInfo => exact spawned _ unused
      | mutate route => exact spawned _ unused
      | cancel tid =>
          simp only [System.step]
          have none := sound.fresh other unused
          split
          · rename_i here
            rw [← here, none]
            rfl
          · exact none
      | wait elapsed => exact sound.fresh other unused
      | proceed tid choice => exact absurd rfl (outside tid choice)

end Invariants

section Values

/-- A value is of one generation, which was current during the call, and is not too old. -/
structure Answer.OfOneBuild (answer : Answer) : Prop where
  enable : answer.enableIn = answer.probedIn
  rotate : answer.rotateIn = answer.probedIn
  begun : answer.begun ≤ answer.probedIn
  ended : answer.probedIn ≤ answer.ended
  young : answer.age < capabilityCacheTTL

/-- No version is recorded, and no lifetime ends, while a call has taken flags and has not yet
read the observations. -/
def Undisturbed (s : System) : Action → Prop
  | .proceed tid (.version (.ok version)) => ∀ thread generation, s.threads tid = some thread →
      thread.work = .systemInfo (some generation) → s.client.NewVersion version generation →
      ∀ other own, s.threads other = some own → own.work.drawn? = none
  | .wait elapsed => ∀ other own drawn, s.threads other = some own →
      own.work.drawn? = some drawn → s.now + elapsed < drawn.storedAt + capabilityCacheTTL
  | _ => True

/-- Flags that were taken are of the current generation and not too old, and so was every value
returned. -/
structure Timely (s : System) : Prop where
  drawn : ∀ tid thread drawn, s.threads tid = some thread → thread.work.drawn? = some drawn →
    drawn.probedIn = s.client.capsGeneration ∧ s.now < drawn.storedAt + capabilityCacheTTL
  answers : ∀ answer ∈ s.answers, answer.OfOneBuild

theorem Timely.proceed (timely : Timely s) (sound : Sound s) (found : s.threads tid = some thread)
    (undisturbed : Undisturbed s (.proceed tid choice)) {effect : Effect}
    (moves : Moves s thread choice effect) : Timely (s.proceed tid thread effect) := by
  have keep : ∀ effect : Effect, effect.client.capsGeneration = s.client.capsGeneration →
      (∀ drawn, effect.work.drawn? = some drawn → drawn.probedIn = s.client.capsGeneration ∧
        s.now < drawn.storedAt + capabilityCacheTTL) →
      (∀ answer ∈ effect.answer, answer.OfOneBuild) → Timely (s.proceed tid thread effect) := by
    intro effect same drawn answers
    refine ⟨fun other own flags isOwn isDrawn => ?_, fun answer mem => ?_⟩
    · change flags.probedIn = effect.client.capsGeneration ∧ _
      rw [same]
      rcases threads_proceed isOwn with ⟨rfl, rfl⟩ | ⟨-, known⟩
      · exact drawn flags isDrawn
      · exact timely.drawn other own flags known isDrawn
    · rcases List.mem_append.mp mem with old | new
      · exact timely.answers answer old
      · exact answers answer (Option.mem_toList.mp new)
  have quiet : ∀ {answer : Answer}, answer ∈ (none : Option Answer) → answer.OfOneBuild :=
    fun none => (by cases none)
  cases moves with
  | idle holds empty =>
      refine keep _ rfl (fun drawn isDrawn => ?_) fun _ => quiet
      cases empty.symm.trans isDrawn
  | draw holds isDrawn unstored valid young =>
      refine keep _ rfl (fun drawn known => ?_) fun _ => quiet
      cases isDrawn.symm.trans known
      exact ⟨sound.cached valid, young⟩
  | acquire => exact keep _ rfl (fun drawn known => by cases known) fun _ => quiet
  | probed => exact keep _ rfl (fun drawn known => by cases known) fun _ => quiet
  | store was current =>
      refine keep _ rfl (fun drawn known => ?_) fun _ => quiet
      cases known
      exact ⟨current, lt_add_of_pos_right _ (by decide)⟩
  | release held unheld kept =>
      refine keep _ rfl (fun drawn known => ?_) fun _ => quiet
      exact timely.drawn tid thread drawn found (kept.symm.trans known)
  | @version generation version was seen =>
      by_cases isNew : s.client.NewVersion version generation
      · subst seen
        have none := undisturbed thread generation found was isNew
        refine ⟨fun other own drawn isOwn isDrawn => ?_, fun answer mem => ?_⟩
        · rcases threads_proceed isOwn with ⟨rfl, rfl⟩ | ⟨-, known⟩
          · cases isDrawn
          · rw [none other own known] at isDrawn
            cases isDrawn
        · refine timely.answers answer ?_
          simpa [System.proceed, System.goesTo] using mem
      · refine keep _ ?_ (fun drawn known => by cases known) fun _ => quiet
        exact congrArg Client.capsGeneration (observeTelemtVersion_of_not isNew)
  | mutation was =>
      refine keep _ ?_ (fun drawn known => by cases known) fun _ => quiet
      exact (sameCache_observeMutation ..).capsGeneration
  | @take drawn was =>
      have taken := timely.drawn tid thread drawn found (by rw [was]; rfl)
      refine keep _ (readObservations_spec s.client drawn.caps s.now).1.capsGeneration (fun other known => by cases known) ?_
      intro answer isAnswer
      have flags : ∀ route, s.flagIn route = s.client.capsGeneration := by
        intro route
        unfold System.flagIn
        split
        · rename_i active
          refine sound.absent route fun none => ?_
          simp only [Client.negativeObservationActive, none] at active
          cases active
        · rfl
      cases isAnswer
      exact
        { enable := (flags _).trans taken.1.symm
          rotate := (flags _).trans taken.1.symm
          begun := (sound.begun tid thread found).trans taken.1.ge
          ended := taken.1.le
          young := sub_lt_iff_lt_add'.mpr taken.2 }

theorem Timely.step (timely : Timely s) (sound : Sound s) (undisturbed : Undisturbed s action) :
    Timely (s.step action) := by
  rcases step_cases s action with
    ⟨tid, choice, thread, effect, rfl, found, moves, same⟩ | ⟨-, same⟩ | outside
  · rw [same]
    exact timely.proceed sound found undisturbed moves
  · rwa [same]
  · have kept := client_step (s := s) outside
    refine ⟨fun tid own drawn isOwn isDrawn => ?_, ?_⟩
    · rw [kept.1]
      rcases threads_step sound.fresh outside isOwn with ⟨before, known, work, -⟩ | ⟨-, empty, -⟩
      · rw [← work] at isDrawn
        refine ⟨(timely.drawn tid before drawn known isDrawn).1, ?_⟩
        cases action with
        | wait elapsed => exact undisturbed tid before drawn known isDrawn
        | proceed other choice => exact absurd rfl (outside other choice)
        | _ => exact (timely.drawn tid before drawn known isDrawn).2
      · rw [empty] at isDrawn
        cases isDrawn
    · rw [kept.2.2]
      exact timely.answers

end Values

section Rounds

/-- Cached flags change or become valid only when a round of the current generation is stored. -/
theorem cache_step (changed : (s.step action).client.caps ≠ s.client.caps ∨
      (s.step action).client.capsAt ≠ s.client.capsAt ∨
      ((s.step action).client.capsValid = true ∧ s.client.capsValid = false)) :
    ∃ tid choice thread, action = .proceed tid choice ∧ s.threads tid = some thread ∧
      thread.work =
        .capabilities (.storing s.client.capsGeneration (s.step action).client.caps) := by
  rcases step_cases s action with
    ⟨tid, choice, thread, effect, rfl, found, moves, same⟩ | ⟨-, same⟩ | outside
  · refine ⟨tid, choice, thread, rfl, found, ?_⟩
    have keep : effect.client.caps = s.client.caps → effect.client.capsAt = s.client.capsAt →
        (effect.client.capsValid = true → s.client.capsValid = true) →
        thread.work = .capabilities (.storing s.client.capsGeneration effect.client.caps) := by
      intro caps capsAt valid
      rw [same] at changed
      rcases changed with others | later | ⟨becomes, was⟩
      · exact absurd caps others
      · exact absurd capsAt later
      · rw [valid becomes] at was
        cases was
    rw [same]
    change thread.work = .capabilities (.storing s.client.capsGeneration effect.client.caps)
    cases moves with
    | store was current => rw [was, current]
    | @version generation version was seen =>
        by_cases isNew : s.client.NewVersion version generation
        · apply keep
          all_goals simp [Client.observeTelemtVersion, if_pos isNew]
        · apply keep
          all_goals simp [observeTelemtVersion_of_not isNew]
    | mutation was =>
        have spec := sameCache_observeMutation
        exact keep (spec ..).caps (spec ..).capsAt fun valid => (spec ..).capsValid ▸ valid
    | @take drawn was =>
        have spec := (readObservations_spec s.client drawn.caps s.now).1
        exact keep spec.caps spec.capsAt fun valid => spec.capsValid ▸ valid
    | _ => exact keep rfl rfl id
  · rw [same] at changed
    simp at changed
  · rw [(client_step outside).1] at changed
    simp at changed

/-- A round is stored only if the context of its call was not done when the probes had returned. -/
theorem storing_run (now : Time) (actions : List Action) {moment : ℕ}
    (within : moment ≤ actions.length) :
    ∀ tid thread generation caps,
      (stateAt System.step (.start now) actions moment).threads tid = some thread →
      thread.work = .capabilities (.storing generation caps) →
      ∃ earlier before, earlier < moment ∧
        (stateAt System.step (.start now) actions earlier).threads tid = some before ∧
        before.work = .capabilities (.probed generation caps) ∧ before.done = false := by
  have both := @stateAt_induction _ _ System.step (.start now) actions moment
    (fun moment s => (∀ tid, s.next ≤ tid → s.threads tid = none) ∧
      ∀ tid thread generation caps, s.threads tid = some thread →
      thread.work = .capabilities (.storing generation caps) →
      ∃ earlier before, earlier < moment ∧
        (stateAt System.step (.start now) actions earlier).threads tid = some before ∧
        before.work = .capabilities (.probed generation caps) ∧ before.done = false) ?_ ?_ within
  · exact both.2
  · exact ⟨fun _ _ => rfl, fun tid thread generation caps found => by cases found⟩
  · rintro moment action made ⟨fresh, rounds⟩
    have sound : Sound (stateAt System.step (.start now) actions moment) :=
      @stateAt_always _ _ _ _ _ Sound (fun s action sound => (sound.step action).1)
        ⟨fun valid => (by cases valid), fun route set => (by cases route <;> exact absurd rfl set),
          fun tid thread found => (by cases found), fun _ _ => rfl⟩ moment
    refine ⟨(sound.step action).1.fresh, fun tid thread generation caps found storing => ?_⟩
    have older : ∀ before, (stateAt System.step (.start now) actions moment).threads tid =
        some before → before.work = .capabilities (.storing generation caps) →
        ∃ earlier before, earlier < moment + 1 ∧
          (stateAt System.step (.start now) actions earlier).threads tid = some before ∧
          before.work = .capabilities (.probed generation caps) ∧ before.done = false := by
      intro before known was
      rcases rounds tid before generation caps known was with ⟨earlier, start, lt, rest⟩
      exact ⟨earlier, start, Nat.lt_succ_of_lt lt, rest⟩
    rcases step_cases (stateAt System.step (.start now) actions moment) action with
      ⟨other, choice, own, effect, rfl, isOwn, moves, same⟩ | ⟨-, same⟩ | outside
    · rw [same] at found
      rcases threads_proceed found with ⟨rfl, rfl⟩ | ⟨-, known⟩
      · change effect.work = _ at storing
        have unstored : effect.work.storing? ≠ none := by rw [storing]; simp [Work.storing?]
        cases moves with
        | probed was active =>
            cases storing
            exact ⟨moment, own, Nat.lt_succ_self _, isOwn, was, active⟩
        | idle holds empty none => exact absurd none unstored
        | draw holds drawn none => exact absurd none unstored
        | release held unheld kept none => exact absurd none unstored
        | _ => cases storing
      · exact older thread known storing
    · rw [same] at found
      exact older thread found storing
    · rcases threads_step fresh outside found with ⟨before, known, work, -⟩ | ⟨-, -, unstored, -⟩
      · exact older before known (work.trans storing)
      · rw [storing] at unstored
        cases unstored

end Rounds

/-- Capability flags.  In every run at most one call probes at a time, what was begun in an older
generation leaves the client as it is, and flags are cached, or valid again, only by a round of the
current generation whose context was not done.  When no version is recorded and no lifetime ends
between the two sections of a call, every value returned is of one generation that was current
during the call, and not too old. -/
theorem capabilities_of_one_build (now : Time) (actions : List Action) :
    let s := stateAt System.step (.start now) actions
    (∀ moment tid other thread own generation later,
      (s moment).threads tid = some thread → (s moment).threads other = some own →
      thread.work = .capabilities (.probing generation) →
      own.work = .capabilities (.probing later) → tid = other) ∧
    (∀ moment tid choice thread generation, actions[moment]? = some (.proceed tid choice) →
      (s moment).threads tid = some thread → thread.work.generation? = some generation →
      generation ≠ (s moment).client.capsGeneration →
      (s (moment + 1)).client = (s moment).client) ∧
    (∀ moment action, actions[moment]? = some action →
      ((s (moment + 1)).client.caps ≠ (s moment).client.caps ∨
        (s (moment + 1)).client.capsAt ≠ (s moment).client.capsAt ∨
        ((s (moment + 1)).client.capsValid = true ∧ (s moment).client.capsValid = false)) →
      ∃ tid choice earlier before, action = .proceed tid choice ∧ earlier < moment ∧
        (s earlier).threads tid = some before ∧ before.done = false ∧
        before.work = .capabilities
          (.probed (s moment).client.capsGeneration (s (moment + 1)).client.caps)) ∧
    (Permitted System.step Undisturbed (.start now) actions →
      ∀ answer ∈ (after System.step (.start now) actions).answers, answer.OfOneBuild) := by
  intro s
  have initially : Sound (.start now) ∧ Exclusive (.start now) :=
    ⟨⟨fun valid => (by cases valid), fun route set => (by cases route <;> exact absurd rfl set),
      fun tid thread found => (by cases found), fun _ _ => rfl⟩,
      ⟨fun _ tid thread found => (by cases found),
        fun tid other thread own found => (by cases found)⟩⟩
  have known : ∀ moment, Sound (s moment) ∧ Exclusive (s moment) :=
    @stateAt_always _ _ _ _ _ (fun s => Sound s ∧ Exclusive s)
      (fun s action both => ⟨(both.1.step action).1, both.2.step both.1 action⟩) initially
  refine ⟨?_, ?_, ?_, ?_⟩
  · intro moment tid other thread own generation later found also probing too
    exact (known moment).2.single tid other thread own found also (by rw [probing]; rfl)
      (by rw [too]; rfl)
  · intro moment tid choice thread generation made found begun older
    simp only [s, stateAt_step made]
    exact stale_step found begun older choice
  · intro moment action made changed
    simp only [s, stateAt_step made] at changed ⊢
    rcases cache_step changed with ⟨tid, choice, thread, isProceed, found, storing⟩
    rcases storing_run now actions (List.getElem?_eq_some_iff.mp made).1.le tid thread _ _ found
      storing with ⟨earlier, before, lt, was, probed, active⟩
    exact ⟨tid, choice, earlier, before, isProceed, lt, was, active, probed⟩
  · intro permitted
    have timely := @invariant_after _ _ System.step Undisturbed (fun s => Sound s ∧ Timely s)
      (fun s action both undisturbed =>
        ⟨(both.1.step action).1, both.2.step both.1 undisturbed⟩) _
      ⟨initially.1, ⟨fun tid thread drawn found => (by cases found), fun answer mem => (by cases mem)⟩⟩
      _ permitted
    exact timely.2.answers

/-- A round of probes of a build without any of the routes. -/
def sampleProbes : Probes :=
  ⟨.error (.api 404 "http_error"), .ok (some false), .error (.api 404 "http_error"),
    .error (.api 404 "http_error")⟩

/-- A call probes an old build; the version of the new one is recorded before it has read the
observations. -/
def sampleUpgrade : List Action :=
  [.call, .proceed 0 .token, .proceed 0 .token, .proceed 0 .token, .proceed 0 .token,
    .proceed 0 .token, .proceed 0 (.probes sampleProbes), .proceed 0 .token, .proceed 0 .token,
    .proceed 0 .token, .systemInfo, .proceed 1 .token, .proceed 1 (.version (.ok "3.5.5")),
    .proceed 0 .token]

/-- The value returned has four flags of one generation and two of the next. -/
theorem sampleUpgrade_mixes :
    ¬∀ (now : Time) (actions : List Action),
      ∀ answer ∈ (after System.step (.start now) actions).answers, answer.OfOneBuild := by
  intro all
  have returned : (after System.step (.start 0) sampleUpgrade).answers =
      [⟨⟨false, false, false, false, true, true⟩, 0, 1, 1, 0, 1, 0⟩] := by decide
  have mixed := (all 0 sampleUpgrade _ (returned ▸ List.mem_singleton_self _)).enable
  cases mixed

/-- The same call when the version is recorded before it begins. -/
theorem sampleUpgrade_before : ∀ answer ∈ (after System.step (.start 0)
      ([.systemInfo, .proceed 0 .token, .proceed 0 (.version (.ok "3.5.5")), .call] ++
        List.replicate 5 (.proceed 1 .token) ++ [.proceed 1 (.probes sampleProbes)] ++
        List.replicate 4 (.proceed 1 .token))).answers, answer.OfOneBuild := by
  refine (capabilities_of_one_build 0 _).2.2.2 ?_
  refine ⟨trivial, trivial, ?_, trivial, trivial, trivial, trivial, trivial, trivial, trivial,
    trivial, trivial, trivial, trivial, trivial⟩
  intro thread generation found was isNew other own isOwn
  cases other with
  | zero =>
      cases isOwn
      rfl
  | succ other => cases isOwn

end TelemtPanel.Telemt
