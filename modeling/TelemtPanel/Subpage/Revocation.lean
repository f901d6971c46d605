import TelemtPanel.Subpage.Handler

/-!
# Rotated links are revoked

The index holds what the latest started of the completed refreshes has read, triggered
refreshes are an interval apart, and a page is only shown for a token that belongs to the
secret and the nonce the request has read after it found the user in the index.
-/

namespace TelemtPanel.Subpage

open TelemtPanel.Library

variable {query : String → Option String} {deriveToken : String → String → String → String}

/-- Number of the refresh a task is in the middle of. -/
def Task.gen? (task : Task) : Option ℕ := task.call?.bind RefreshCall.gen?

section Effects

/-- What the next step of a task does to the panel and to the number the task holds. -/
inductive Effect (system : System) (task : Task) : System × Task → Prop
  | quiet {next : Task} (kept : next.gen? = task.gen? ∨ next.gen? = none) :
      Effect system task (system, next)
  | number {next : Task} (held : next.gen? = some (system.index.nextGen + 1)) :
      Effect system task
        ({ system with index := { system.index with nextGen := system.index.nextGen + 1 } }, next)
  | install {gen : ℕ} {tokens : Table String String} {next : Task} (held : task.gen? = some gen)
      (released : next.gen? = none) :
      Effect system task
        ({ system with
          index := system.index.install gen tokens system.now
          completed := ⟨gen, tokens⟩ :: system.completed }, next)
  | claim {stamp : ℤ} {next : Task} (later : system.now ≤ stamp)
      (due : system.index.lastRefresh + defaultRefreshInterval ≤ system.now)
      (released : next.gen? = none) :
      Effect system task
        ({ system with
          index := { system.index with lastRefresh := stamp }
          now := stamp
          claims := stamp :: system.claims }, next)

variable {system : System}

/-- A step of `Refresh`, within the task that makes the call. -/
theorem refresh_effect (wrap : RefreshCall → Task)
    (holds : ∀ call, (wrap call).gen? = call.gen?) (call : RefreshCall) (ok : Bool) :
    Effect system (wrap call) ((system.refresh query deriveToken call ok).1,
      wrap (system.refresh query deriveToken call ok).2) := by
  cases call with
  | begin => exact .number (holds _)
  | users gen =>
      cases ok with
      | true => exact .quiet (Or.inl (by rw [holds, holds]; rfl))
      | false => exact .quiet (Or.inr (holds _))
  | nonces gen todo tokens =>
      cases todo with
      | nil => exact .install (holds _) (holds _)
      | cons user todo => exact .quiet (Or.inl (by rw [holds, holds]; rfl))
  | done => exact .quiet (Or.inr (holds _))

theorem trigger_effect (token : String) (phase : Phase) (next : Continuation) (delay : ℕ) :
    Effect system (.request token phase) ((system.trigger next delay).1,
      .request token (system.trigger next delay).2) := by
  unfold System.trigger
  rcases @Index.claimRefreshWindow_cases system.index system.now (system.now + delay)
    with ⟨due, claimed⟩ | ⟨-, lost⟩
  · rw [claimed]
    exact .claim (by omega) due rfl
  · rw [lost]
    cases next with
    | relookup => exact .quiet (Or.inr rfl)
    | notFound => exact .quiet (Or.inr rfl)

theorem advance_effect (task : Task) (ok : Bool) (delay : ℕ) :
    Effect system task (system.advance query deriveToken task ok delay) := by
  cases task with
  | refresh call => exact refresh_effect .refresh (fun _ => rfl) call ok
  | request token phase =>
      cases phase with
      | lookup =>
          simp only [System.advance, System.serve]
          split <;> exact .quiet (Or.inr rfl)
      | trigger next => exact trigger_effect token _ next delay
      | refresh call next =>
          cases call with
          | done =>
              cases next with
              | relookup => exact .quiet (Or.inr rfl)
              | notFound => exact .quiet (Or.inr rfl)
          | begin =>
              exact @refresh_effect query deriveToken system
                (fun call => .request token (.refresh call next)) (fun _ => rfl) .begin ok
          | users gen =>
              exact @refresh_effect query deriveToken system
                (fun call => .request token (.refresh call next)) (fun _ => rfl) (.users gen) ok
          | nonces gen todo tokens =>
              exact @refresh_effect query deriveToken system
                (fun call => .request token (.refresh call next)) (fun _ => rfl) (.nonces gen todo tokens) ok
      | relookup =>
          simp only [System.advance, System.serve]
          split <;> exact .quiet (Or.inr rfl)
      | users username =>
          simp only [System.advance, System.serve]
          split
          · split
            · exact .quiet (Or.inr rfl)
            · split <;> exact .quiet (Or.inr rfl)
          · exact .quiet (Or.inr rfl)
      | verify user secret =>
          simp only [System.advance, System.serve]
          split
          · split <;> exact .quiet (Or.inr rfl)
          · exact .quiet (Or.inr rfl)
      | page user => exact .quiet (Or.inr rfl)
      | notFound => exact .quiet (Or.inr rfl)

/-- A step of a task leaves the other tasks alone. -/
theorem Effect.tasks_eq {task : Task} {next : System × Task} (effect_ : Effect system task next) :
    next.1.tasks = system.tasks := by
  cases effect_ <;> rfl

end Effects

section Numbers

variable {system : System}

/-- The numbers of the calls in flight and of the completed ones are distinct and given out in
turn, and the index holds the result of the completed call with the greatest number. -/
structure Numbered (system : System) : Prop where
  pending : ∀ id task gen, system.tasks id = some task → task.gen? = some gen →
    0 < gen ∧ gen ≤ system.index.nextGen ∧ ∀ entry ∈ system.completed, entry.gen ≠ gen
  apart : ∀ id other task otherTask gen, system.tasks id = some task →
    system.tasks other = some otherTask → task.gen? = some gen → otherTask.gen? = some gen →
    id = other
  bounded : ∀ entry ∈ system.completed, 0 < entry.gen ∧ entry.gen ≤ system.index.nextGen
  distinct : (system.completed.map (·.gen)).Nodup
  latest : (system.completed = [] ∧ system.index.tokens = ∅ ∧ system.index.installedGen = 0) ∨
    ∃ entry ∈ system.completed, system.index.tokens = entry.tokens ∧
      system.index.installedGen = entry.gen ∧ ∀ other ∈ system.completed, other.gen ≤ entry.gen

/-- A task without a number can be put anywhere. -/
theorem Numbered.setIdle (numbered : Numbered system) (id : ℕ) {next : Task}
    (idle : next.gen? = none) : Numbered (system.setTask id next) := by
  have known : ∀ other task gen, (system.setTask id next).tasks other = some task →
      task.gen? = some gen → system.tasks other = some task := by
    intro other task gen isTask held
    by_cases same : other = id
    · subst same
      simp only [System.setTask, Function.update_self, Option.some.injEq] at isTask
      subst isTask
      rw [idle] at held
      cases held
    · simpa [System.setTask, same] using isTask
  refine ⟨?_, ?_, numbered.bounded, numbered.distinct, numbered.latest⟩
  · intro other task gen isTask held
    exact numbered.pending other task gen (known other task gen isTask held) held
  · intro one other task otherTask gen isTask isOther held otherHeld
    exact numbered.apart one other task otherTask gen (known one task gen isTask held)
      (known other otherTask gen isOther otherHeld) held otherHeld

/-- A task may go on with the number it has. -/
theorem Numbered.setSame (numbered : Numbered system) {id : ℕ} {task next : Task}
    (isTask : system.tasks id = some task) (kept : next.gen? = task.gen?) :
    Numbered (system.setTask id next) := by
  have known : ∀ other found gen, (system.setTask id next).tasks other = some found →
      found.gen? = some gen → ∃ before, system.tasks other = some before ∧
        before.gen? = some gen := by
    intro other found gen isFound held
    by_cases same : other = id
    · subst same
      simp only [System.setTask, Function.update_self, Option.some.injEq] at isFound
      subst isFound
      exact ⟨task, isTask, by rw [← kept, held]⟩
    · exact ⟨found, by simpa [System.setTask, same] using isFound, held⟩
  refine ⟨?_, ?_, numbered.bounded, numbered.distinct, numbered.latest⟩
  · intro other found gen isFound held
    rcases known other found gen isFound held with ⟨before, isBefore, beforeHeld⟩
    exact numbered.pending other before gen isBefore beforeHeld
  · intro one other found otherFound gen isFound isOther held otherHeld
    rcases known one found gen isFound held with ⟨before, isBefore, beforeHeld⟩
    rcases known other otherFound gen isOther otherHeld with ⟨after_, isAfter, afterHeld⟩
    exact numbered.apart one other before after_ gen isBefore isAfter beforeHeld afterHeld

/-- A task takes the next number. -/
theorem Numbered.setNumbered (numbered : Numbered system) (id : ℕ) {next : Task}
    (held : next.gen? = some (system.index.nextGen + 1)) :
    Numbered ({ system with
      index := { system.index with nextGen := system.index.nextGen + 1 } }.setTask id next) := by
  have fresh : ∀ other task gen, system.tasks other = some task → task.gen? = some gen →
      gen ≠ system.index.nextGen + 1 := by
    intro other task gen isTask otherHeld
    have := (numbered.pending other task gen isTask otherHeld).2.1
    omega
  refine ⟨?_, ?_, ?_, numbered.distinct, numbered.latest⟩
  · intro other task gen isTask otherHeld
    by_cases same : other = id
    · subst same
      simp only [System.setTask, Function.update_self, Option.some.injEq] at isTask
      subst isTask
      rw [held] at otherHeld
      cases otherHeld
      refine ⟨Nat.succ_pos _, le_rfl, ?_⟩
      intro entry mem
      have := (numbered.bounded entry mem).2
      omega
    · have isOld : system.tasks other = some task := by simpa [System.setTask, same] using isTask
      rcases numbered.pending other task gen isOld otherHeld with ⟨positive, upper, apart⟩
      exact ⟨positive, upper.trans (Nat.le_succ _), apart⟩
  · intro one other task otherTask gen isTask isOther oneHeld otherHeld
    simp only [System.setTask, Function.update_apply] at isTask isOther
    split at isTask
    · rename_i oneIs
      cases isTask
      rw [held] at oneHeld
      cases oneHeld
      split at isOther
      · rename_i otherIs
        rw [oneIs, otherIs]
      · exact absurd rfl (fresh other otherTask _ isOther otherHeld)
    · split at isOther
      · cases isOther
        rw [held] at otherHeld
        cases otherHeld
        exact absurd rfl (fresh one task _ isTask oneHeld)
      · exact numbered.apart one other task otherTask gen isTask isOther oneHeld otherHeld
  · intro entry mem
    rcases numbered.bounded entry mem with ⟨positive, upper⟩
    exact ⟨positive, upper.trans (Nat.le_succ _)⟩

/-- The result of a call replaces that of the calls that started before, and no other. -/
theorem Numbered.latest_install (numbered : Numbered system) {gen : ℕ}
    (positive : 0 < gen) (tokens : Table String String) (now : ℤ) :
    ∃ entry ∈ (⟨gen, tokens⟩ : Completed) :: system.completed,
      (system.index.install gen tokens now).tokens = entry.tokens ∧
        (system.index.install gen tokens now).installedGen = entry.gen ∧
        ∀ other ∈ (⟨gen, tokens⟩ : Completed) :: system.completed, other.gen ≤ entry.gen := by
  unfold Index.install
  split
  · rename_i stale
    rcases numbered.latest with ⟨-, -, none⟩ | ⟨entry, mem, sameTokens, sameGen, greatest⟩
    · omega
    · refine ⟨entry, List.mem_cons_of_mem _ mem, sameTokens, sameGen, ?_⟩
      simp only [List.mem_cons, forall_eq_or_imp]
      exact ⟨sameGen ▸ stale, greatest⟩
  · rename_i newer
    refine ⟨⟨gen, tokens⟩, List.mem_cons_self, rfl, rfl, ?_⟩
    simp only [List.mem_cons, forall_eq_or_imp]
    refine ⟨le_rfl, ?_⟩
    intro other mem
    rcases numbered.latest with ⟨empty, -⟩ | ⟨entry, -, -, sameGen, greatest⟩
    · simp [empty] at mem
    · have := greatest other mem
      omega

/-- A call completes and gives its number up. -/
theorem Numbered.install (numbered : Numbered system) {id gen : ℕ} {task next : Task}
    (isTask : system.tasks id = some task) (held : task.gen? = some gen)
    (released : next.gen? = none) (tokens : Table String String) :
    Numbered ({ system with
      index := system.index.install gen tokens system.now
      completed := ⟨gen, tokens⟩ :: system.completed }.setTask id next) := by
  rcases numbered.pending id task gen isTask held with ⟨positive, upper, apart⟩
  have sameNext : (system.index.install gen tokens system.now).nextGen = system.index.nextGen := by
    unfold Index.install
    split <;> rfl
  have others : ∀ other found number, other ≠ id → system.tasks other = some found →
      found.gen? = some number → number ≠ gen := by
    rintro other found number differ isFound otherHeld rfl
    exact differ (numbered.apart other id found task number isFound isTask otherHeld held)
  have known : ∀ other found number, ({ system with
      index := system.index.install gen tokens system.now
      completed := ⟨gen, tokens⟩ :: system.completed }.setTask id next : System).tasks other =
        some found → found.gen? = some number → other ≠ id ∧ system.tasks other = some found := by
    intro other found number isFound otherHeld
    by_cases same : other = id
    · subst same
      simp only [System.setTask, Function.update_self, Option.some.injEq] at isFound
      subst isFound
      rw [released] at otherHeld
      cases otherHeld
    · exact ⟨same, by simpa [System.setTask, same] using isFound⟩
  refine ⟨?_, ?_, ?_, ?_, Or.inr (numbered.latest_install positive tokens system.now)⟩
  · intro other found number isFound otherHeld
    rcases known other found number isFound otherHeld with ⟨differ, isOld⟩
    rcases numbered.pending other found number isOld otherHeld with ⟨otherPositive, le, free⟩
    refine ⟨otherPositive, sameNext ▸ le, ?_⟩
    intro entry mem
    rcases List.mem_cons.mp mem with rfl | old
    · exact (others other found number differ isOld otherHeld).symm
    · exact free entry old
  · intro one other found otherFound number isFound isOther oneHeld otherHeld
    exact numbered.apart one other found otherFound number (known _ _ _ isFound oneHeld).2
      (known _ _ _ isOther otherHeld).2 oneHeld otherHeld
  · intro entry mem
    rcases List.mem_cons.mp mem with rfl | old
    · exact ⟨positive, sameNext ▸ upper⟩
    · exact ⟨(numbered.bounded entry old).1, sameNext ▸ (numbered.bounded entry old).2⟩
  · refine List.nodup_cons.mpr ⟨?_, numbered.distinct⟩
    rintro mem
    rcases List.mem_map.mp mem with ⟨entry, isEntry, same⟩
    exact apart entry isEntry same

theorem Numbered.step (numbered : Numbered system) (event : Event) :
    Numbered (system.step query deriveToken event) := by
  cases event with
  | callRefresh id =>
      simp only [System.step]
      split
      · exact numbered.setIdle id rfl
      · exact numbered
  | request id token =>
      simp only [System.step]
      split
      · exact numbered.setIdle id rfl
      · exact numbered
  | advance id ok delay =>
      simp only [System.step]
      split
      · exact numbered
      · rename_i task isTask
        generalize advanced : system.advance query deriveToken task ok delay = next
        have effect_ : Effect system task next := advanced ▸ advance_effect task ok delay
        cases effect_ with
        | quiet kept =>
            rcases kept with same | idle
            · exact numbered.setSame isTask same
            · exact numbered.setIdle id idle
        | number held => exact numbered.setNumbered id held
        | install held released => exact numbered.install isTask held released _
        | @claim stamp next later due released =>
            have marked : Numbered { system with
                index := { system.index with lastRefresh := stamp }
                now := stamp
                claims := stamp :: system.claims } :=
              ⟨numbered.pending, numbered.apart, numbered.bounded, numbered.distinct,
                numbered.latest⟩
            exact marked.setIdle id released
  | setUsers users => exact ⟨numbered.pending, numbered.apart, numbered.bounded, numbered.distinct,
      numbered.latest⟩
  | setNonce username nonce => exact ⟨numbered.pending, numbered.apart, numbered.bounded,
      numbered.distinct, numbered.latest⟩
  | wait elapsed => exact ⟨numbered.pending, numbered.apart, numbered.bounded, numbered.distinct,
      numbered.latest⟩

end Numbers

section Windows

variable {system : System}

/-- Claimed windows are an interval apart, the latest first, and all in the past. -/
structure Spaced (system : System) : Prop where
  apart : system.claims.Pairwise fun later earlier => earlier + defaultRefreshInterval ≤ later
  marked : ∀ claim ∈ system.claims, claim ≤ system.index.lastRefresh
  past : ∀ claim ∈ system.claims, claim ≤ system.now

theorem Spaced.step (spaced : Spaced system) (event : Event) :
    Spaced (system.step query deriveToken event) := by
  cases event with
  | callRefresh id =>
      simp only [System.step]
      split
      · exact ⟨spaced.apart, spaced.marked, spaced.past⟩
      · exact spaced
  | request id token =>
      simp only [System.step]
      split
      · exact ⟨spaced.apart, spaced.marked, spaced.past⟩
      · exact spaced
  | advance id ok delay =>
      simp only [System.step]
      split
      · exact spaced
      · rename_i task isTask
        generalize advanced : system.advance query deriveToken task ok delay = next
        have effect_ : Effect system task next := advanced ▸ advance_effect task ok delay
        cases effect_ with
        | quiet kept => exact ⟨spaced.apart, spaced.marked, spaced.past⟩
        | number held => exact ⟨spaced.apart, spaced.marked, spaced.past⟩
        | install held released =>
            refine ⟨spaced.apart, ?_, spaced.past⟩
            have stamped : ∀ gen tokens,
                (system.index.install gen tokens system.now).lastRefresh = system.now := by
              intro gen tokens
              unfold Index.install
              split <;> rfl
            intro claim mem
            exact (spaced.past claim mem).trans_eq (stamped _ _).symm
        | claim later due released =>
            refine ⟨List.pairwise_cons.mpr ⟨?_, spaced.apart⟩, ?_, ?_⟩
            · intro earlier mem
              have := spaced.marked earlier mem
              omega
            · simp only [System.setTask, List.mem_cons, forall_eq_or_imp]
              refine ⟨le_rfl, ?_⟩
              intro earlier mem
              exact (spaced.past earlier mem).trans later
            · simp only [System.setTask, List.mem_cons, forall_eq_or_imp]
              refine ⟨le_rfl, ?_⟩
              intro earlier mem
              exact (spaced.past earlier mem).trans later
  | setUsers users => exact ⟨spaced.apart, spaced.marked, spaced.past⟩
  | setNonce username nonce => exact ⟨spaced.apart, spaced.marked, spaced.past⟩
  | wait elapsed =>
      refine ⟨spaced.apart, spaced.marked, ?_⟩
      intro claim mem
      have := spaced.past claim mem
      simp only [System.step]
      omega

end Windows

section Pages

variable {start : System} {events : List Event} {id : ℕ} {token : String}

/-- State of the panel at a moment of a run. -/
abbrev System.at_ (query : String → Option String)
    (deriveToken : String → String → String → String) (start : System) (events : List Event)
    (moment : ℕ) : System :=
  stateAt (System.step query deriveToken) start events moment

/-- At a moment, a request finds its token in the index. -/
structure HitAt (query : String → Option String)
    (deriveToken : String → String → String → String) (start : System) (events : List Event)
    (id : ℕ) (token username : String) (hit : ℕ) : Prop where
  past : hit < events.length
  looking : (start.at_ query deriveToken events hit).tasks id = some (.request token .lookup) ∨
    (start.at_ query deriveToken events hit).tasks id = some (.request token .relookup)
  found : (start.at_ query deriveToken events hit).index.get token = some username

/-- At a later moment, the request reads the users. -/
structure FetchedAt (query : String → Option String)
    (deriveToken : String → String → String → String) (start : System) (events : List Event)
    (id : ℕ) (token : String) (user : UserInfo) (secret : String) (hit fetched : ℕ) : Prop where
  past : fetched < events.length
  afterHit : hit < fetched
  reading : (start.at_ query deriveToken events fetched).tasks id =
    some (.request token (.users user.username))
  found : findUser (start.at_ query deriveToken events fetched).users user.username = some user
  secret : extractSecret query user.links = some secret

/-- At a still later moment, the request reads the nonce. -/
structure VerifiedAt (query : String → Option String)
    (deriveToken : String → String → String → String) (start : System) (events : List Event)
    (id : ℕ) (token : String) (user : UserInfo) (secret : String) (fetched verified : ℕ) :
    Prop where
  past : verified < events.length
  afterFetch : fetched < verified
  reading : (start.at_ query deriveToken events verified).tasks id =
    some (.request token (.verify user secret))
  derived : deriveToken user.username secret
    ((start.at_ query deriveToken events verified).nonces user.username) = token

theorem HitAt.append {username : String} {hit : ℕ}
    (isHit : HitAt query deriveToken start events id token username hit) (last : Event) :
    HitAt query deriveToken start (events ++ [last]) id token username hit := by
  have same := @stateAt_append _ _ (System.step query deriveToken) start events hit isHit.past.le
    [last]
  refine ⟨by simpa using isHit.past.trans (Nat.lt_succ_self _), ?_, ?_⟩
  · rw [System.at_, same]
    exact isHit.looking
  · rw [System.at_, same]
    exact isHit.found

theorem FetchedAt.append {user : UserInfo} {secret : String} {hit fetched : ℕ}
    (isFetched : FetchedAt query deriveToken start events id token user secret hit fetched)
    (last : Event) :
    FetchedAt query deriveToken start (events ++ [last]) id token user secret hit fetched := by
  have same := @stateAt_append _ _ (System.step query deriveToken) start events fetched
    isFetched.past.le [last]
  refine ⟨by simpa using isFetched.past.trans (Nat.lt_succ_self _), isFetched.afterHit, ?_, ?_,
    isFetched.secret⟩
  · rw [System.at_, same]
    exact isFetched.reading
  · rw [System.at_, same]
    exact isFetched.found

theorem VerifiedAt.append {user : UserInfo} {secret : String} {fetched verified : ℕ}
    (isVerified : VerifiedAt query deriveToken start events id token user secret fetched verified)
    (last : Event) :
    VerifiedAt query deriveToken start (events ++ [last]) id token user secret fetched
      verified := by
  have same := @stateAt_append _ _ (System.step query deriveToken) start events verified
    isVerified.past.le [last]
  refine ⟨by simpa using isVerified.past.trans (Nat.lt_succ_self _), isVerified.afterFetch, ?_, ?_⟩
  · rw [System.at_, same]
    exact isVerified.reading
  · rw [System.at_, same]
    exact isVerified.derived

/-- What a phase of a request says about the past. -/
def Justified (query : String → Option String)
    (deriveToken : String → String → String → String) (start : System) (events : List Event)
    (id : ℕ) (token : String) : Phase → Prop
  | .users username => ∃ hit, HitAt query deriveToken start events id token username hit
  | .verify user secret => ∃ hit fetched,
      HitAt query deriveToken start events id token user.username hit ∧
      FetchedAt query deriveToken start events id token user secret hit fetched
  | .page user => ∃ secret hit fetched verified,
      HitAt query deriveToken start events id token user.username hit ∧
      FetchedAt query deriveToken start events id token user secret hit fetched ∧
      VerifiedAt query deriveToken start events id token user secret fetched verified
  | _ => True

theorem Justified.append {phase : Phase}
    (justified : Justified query deriveToken start events id token phase) (last : Event) :
    Justified query deriveToken start (events ++ [last]) id token phase := by
  cases phase with
  | users username =>
      rcases justified with ⟨hit, isHit⟩
      exact ⟨hit, isHit.append last⟩
  | verify user secret =>
      rcases justified with ⟨hit, fetched, isHit, isFetched⟩
      exact ⟨hit, fetched, isHit.append last, isFetched.append last⟩
  | page user =>
      rcases justified with ⟨secret, hit, fetched, verified, isHit, isFetched, isVerified⟩
      exact ⟨secret, hit, fetched, verified, isHit.append last, isFetched.append last,
        isVerified.append last⟩
  | _ => trivial

/-- The present is a moment of the run with one more event. -/
theorem at_length (last : Event) :
    start.at_ query deriveToken (events ++ [last]) events.length =
      after (System.step query deriveToken) start events := by
  rw [System.at_, stateAt_append le_rfl, stateAt_length]

theorem trigger_justified (system : System) (next : Continuation) (delay : ℕ) :
    Justified query deriveToken start events id token (system.trigger next delay).2 := by
  unfold System.trigger
  rcases @Index.claimRefreshWindow_cases system.index system.now (system.now + delay)
    with ⟨-, claimed⟩ | ⟨-, lost⟩
  · rw [claimed]
    trivial
  · rw [lost]
    cases next with
    | relookup => trivial
    | notFound => trivial

/-- The next step of a request keeps what its phase says about the past. -/
theorem Justified.serve {phase : Phase}
    (justified : Justified query deriveToken start events id token phase)
    (isTask : (after (System.step query deriveToken) start events).tasks id =
      some (.request token phase)) (ok : Bool) (delay : ℕ) (last : Event) :
    Justified query deriveToken start (events ++ [last]) id token
      ((after (System.step query deriveToken) start events).serve query deriveToken token phase ok
        delay).2 := by
  have present : events.length < (events ++ [last]).length := by simp
  cases phase with
  | lookup =>
      simp only [System.serve]
      split
      · rename_i username found
        refine ⟨events.length, present, ?_, ?_⟩
        · rw [at_length]
          exact Or.inl isTask
        · rw [at_length]
          exact found
      · trivial
  | trigger next => exact trigger_justified _ next delay
  | refresh call next =>
      cases call with
      | done =>
          cases next with
          | relookup => trivial
          | notFound => trivial
      | _ => trivial
  | relookup =>
      simp only [System.serve]
      split
      · rename_i username found
        refine ⟨events.length, present, ?_, ?_⟩
        · rw [at_length]
          exact Or.inr isTask
        · rw [at_length]
          exact found
      · trivial
  | users username =>
      simp only [System.serve]
      split
      · split
        · trivial
        · rename_i user found
          split
          · trivial
          · rename_i secret extracted
            cases username_of_findUser found
            rcases justified with ⟨hit, isHit⟩
            refine ⟨hit, events.length, isHit.append last, present, isHit.past, ?_, ?_, extracted⟩
            · rw [at_length]
              exact isTask
            · rw [at_length]
              exact found
      · trivial
  | verify user secret =>
      simp only [System.serve]
      split
      · split
        · rename_i derived
          rcases justified with ⟨hit, fetched, isHit, isFetched⟩
          refine ⟨secret, hit, fetched, events.length, isHit.append last, isFetched.append last,
            present, isFetched.past, ?_, ?_⟩
          · rw [at_length]
            exact isTask
          · rw [at_length]
            exact derived
        · trivial
      · trivial
  | page user => exact justified.append last
  | notFound => trivial

/-- After every run, the phase of every request is justified. -/
theorem justified_after (idle : ∀ id, start.tasks id = none) (events : List Event) :
    ∀ id token phase, (after (System.step query deriveToken) start events).tasks id =
      some (.request token phase) →
      Justified query deriveToken start events id token phase := by
  refine @history_after _ _ (System.step query deriveToken) start
    (fun events system => ∀ id token phase, system.tasks id = some (.request token phase) →
      Justified query deriveToken start events id token phase) ?_ ?_ events
  · intro id token phase isTask
    rw [idle] at isTask
    cases isTask
  · intro events last all id token phase isTask
    have unchanged : (after (System.step query deriveToken) start events).tasks id =
        some (.request token phase) →
        Justified query deriveToken start (events ++ [last]) id token phase :=
      fun old => (all id token phase old).append last
    cases last with
    | callRefresh other =>
        simp only [System.step] at isTask
        split at isTask
        · simp only [System.setTask, Function.update_apply] at isTask
          split at isTask
          · cases isTask
          · exact unchanged isTask
        · exact unchanged isTask
    | request other presented =>
        simp only [System.step] at isTask
        split at isTask
        · simp only [System.setTask, Function.update_apply] at isTask
          split at isTask
          · cases isTask
            trivial
          · exact unchanged isTask
        · exact unchanged isTask
    | advance other ok delay =>
        simp only [System.step] at isTask
        split at isTask
        · exact unchanged isTask
        · rename_i task known
          have frame := (@advance_effect query deriveToken
            (after (System.step query deriveToken) start events) task ok delay).tasks_eq
          simp only [System.setTask, Function.update_apply, frame] at isTask
          split at isTask
          · rename_i same
            subst same
            cases task with
            | refresh call => simp [System.advance] at isTask
            | request presented before =>
                simp only [System.advance, Option.some.injEq, Task.request.injEq] at isTask
                rcases isTask with ⟨rfl, rfl⟩
                exact (all id presented before known).serve known ok delay _
          · exact unchanged isTask
    | setUsers users => exact unchanged isTask
    | setNonce username nonce => exact unchanged isTask
    | wait elapsed => exact unchanged isTask

theorem tasks_kept {system : System} (known : (system.tasks id).isSome) (event : Event) :
    ((system.step query deriveToken event).tasks id).isSome := by
  cases event with
  | callRefresh other =>
      simp only [System.step]
      split
      · simp only [System.setTask, Function.update_apply]
        split <;> simp [known]
      · exact known
  | request other presented =>
      simp only [System.step]
      split
      · simp only [System.setTask, Function.update_apply]
        split <;> simp [known]
      · exact known
  | advance other ok delay =>
      simp only [System.step]
      split
      · exact known
      · rename_i task isTask
        have frame := (@advance_effect query deriveToken system task ok delay).tasks_eq
        simp only [System.setTask, Function.update_apply, frame]
        split <;> simp [known]
  | setUsers users => exact known
  | setNonce username nonce => exact known
  | wait elapsed => exact known

end Pages

section Results

/-- A nonce that has been replaced and does not come back gives no page to a request that
starts after the rotation, whatever the index holds. -/
theorem no_page_after_rotation {query : String → Option String}
    {deriveToken : String → String → String → String}
    (collisionFree : ∀ username secret nonce other otherSecret otherNonce,
      deriveToken username secret nonce = deriveToken other otherSecret otherNonce →
      username = other ∧ secret = otherSecret ∧ nonce = otherNonce)
    {users : List UserInfo} {nonces : String → String} {now : ℤ} {events : List Event}
    {id rotated : ℕ} {username secret nonce : String}
    (replaced : ∀ moment, rotated ≤ moment →
      ((System.initial users nonces now).at_ query deriveToken events moment).nonces username ≠
        nonce)
    (later : ((System.initial users nonces now).at_ query deriveToken events rotated).tasks id =
      none) (user : UserInfo) :
    (after (System.step query deriveToken) (System.initial users nonces now) events).tasks id ≠
      some (.request (deriveToken username secret nonce) (.page user)) := by
  intro isPage
  rcases @justified_after query deriveToken (System.initial users nonces now) (fun _ => rfl) events
    id _ _ isPage with ⟨read, hit, fetched, verified, isHit, isFetched, isVerified⟩
  rcases collisionFree _ _ _ _ _ _ isVerified.derived with ⟨sameUser, -, sameNonce⟩
  apply replaced verified _ (sameUser ▸ sameNonce)
  by_contra before
  have running := @stateAt_mono _ _ (System.step query deriveToken)
    (System.initial users nonces now) events verified
    (fun system => (system.tasks id).isSome) (fun _ call known => tasks_kept known call) rotated
    (not_le.mp before).le (by rw [isVerified.reading]; rfl)
  rw [System.at_] at later
  rw [later] at running
  cases running

end Results

end TelemtPanel.Subpage
