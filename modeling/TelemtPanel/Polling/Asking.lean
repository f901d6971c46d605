import TelemtPanel.Polling.Payloads

/-!
# What a call of `Snapshot` asks for

A call of `Snapshot` looks at its topics one after the other.  For a topic that is not fresh it
asks for a full poll, and skips the fetch if the version has grown while it waited for the gate.
What it knows of the topic is kept by its own steps and by those of everybody else.
-/

namespace TelemtPanel.Polling

open Library Events

/-- A topic that is polled and has no poller. -/
def Topics.Idle (topics : Topics) (name : String) : Prop :=
  (topics.polls name).fetch = true ∧ (topics.polls name).running = false

/-- A payload has been recorded since the version was read. -/
def Result.Renews (version now : ℕ) (result : Result) : Prop :=
  result = .fetched ∨ result = .skipped false → version < now

/-- A poll for a call of `Snapshot`, which has read the version of the topic. -/
def PollPhase.Asks (version now : ℕ) : PollPhase → Prop
  | .gate profile recheck previousVersion =>
      profile = .full ∧ recheck = .snapshot ∧ previousVersion = version
  | .owned profile recheck previousVersion =>
      profile = .full ∧ recheck = .snapshot ∧ previousVersion = version
  | .fetching profile _ => profile = .full
  | .record _ _ => True
  | .release result => result.Renews version now

namespace Machine

section Asking

variable {machine : Machine} {config : Config} {actions : List Action} {name : String}

/-- A call of `Snapshot` looks at a topic at some moment. -/
structure LooksAt (machine : Machine) (config : Config) (actions : List Action) (tid : ThreadID)
    (name : String) (version : ℕ) (todo : List String) (out : Payloads) (moment : ℕ) : Prop where
  thread : (machine.moment config actions moment).threads tid = some (.look (name :: todo) out)
  version : ((machine.moment config actions moment).topics.polls name).fullVersion = version

/-- What a goroutine that polls for a call of `Snapshot` knows of a topic. -/
def Asks (machine : Machine) (config : Config) (actions : List Action) (name : String)
    (tid : ThreadID) (m : ℕ) : Thread → Prop
  | .poll (.snapshot version todo out) other phase => other = name →
      (∃ look < m, LooksAt machine config actions tid name version todo out look) ∧
        phase.Asks version ((machine.moment config actions m).topics.polls name).fullVersion
  | .read other version (some result) todo out => other = name →
      (∃ look < m, LooksAt machine config actions tid name version todo out look) ∧
        result.Renews version ((machine.moment config actions m).topics.polls name).fullVersion
  | .read other version none todo out => other = name →
      ∃ look < m, LooksAt machine config actions tid name version todo out look ∧
        ¬(machine.moment config actions look).topics.Idle name
  | _ => True

theorem renews_mono {version now later : ℕ} {result : Result} (renews : result.Renews version now)
    (le : now ≤ later) : result.Renews version later :=
  fun kind => (renews kind).trans_le le

theorem asks_mono {version now later : ℕ} {phase : PollPhase} (asks : phase.Asks version now)
    (le : now ≤ later) : phase.Asks version later := by
  cases phase with
  | release result => exact renews_mono asks le
  | _ => exact asks

/-- A goroutine that does nothing meanwhile. -/
theorem Asks.succ {tid : ThreadID} {m : ℕ} {thread : Thread}
    (asks : Asks machine config actions name tid m thread)
    (grows : ((machine.moment config actions m).topics.polls name).fullVersion ≤
      ((machine.moment config actions (m + 1)).topics.polls name).fullVersion) :
    Asks machine config actions name tid (m + 1) thread := by
  cases thread with
  | poll caller other phase =>
      cases caller with
      | snapshot version todo out =>
          intro here
          rcases asks here with ⟨⟨look, before, looks⟩, phase⟩
          exact ⟨⟨look, before.trans (Nat.lt_succ_self _), looks⟩, asks_mono phase grows⟩
      | _ => trivial
  | read other version result todo out =>
      cases result with
      | none =>
          intro here
          rcases asks here with ⟨look, before, looks, active⟩
          exact ⟨look, before.trans (Nat.lt_succ_self _), looks, active⟩
      | some result =>
          intro here
          rcases asks here with ⟨⟨look, before, looks⟩, renews⟩
          exact ⟨⟨look, before.trans (Nat.lt_succ_self _), looks⟩, renews_mono renews grows⟩
  | _ => trivial

/-- A poll that skips its fetch for a topic without a poller has seen a newer version. -/
theorem ownedSection_asks {topics : Topics} {version : ℕ} {todo : List String} {out : Payloads}
    (le : version ≤ (topics.polls name).fullVersion) :
    ∃ phase, (ownedSection topics (.snapshot version todo out) name .full .snapshot version).2 =
        .poll (.snapshot version todo out) name phase ∧
      phase.Asks version (topics.polls name).fullVersion := by
  have chosen : chosenProfile topics name .full = .full := by simp [chosenProfile]
  have same : staled topics name .full = topics := by simp [staled]
  simp only [ownedSection, chosen, same]
  split
  · rename_i impossible
    cases impossible.1
  split
  · rename_i fresh
    refine ⟨_, rfl, ?_⟩
    rintro (impossible | skipped)
    · cases impossible
    · have idle : (topics.polls name).running = false := by simpa using skipped
      rcases fresh.2.2.2.2 with active | grown
      · rw [idle] at active
        cases active
      · exact lt_of_le_of_ne le (Ne.symm grown)
  · exact ⟨_, rfl, rfl⟩

/-- The next step of a poll for a call of `Snapshot`. -/
theorem Asks.poll {tid : ThreadID} {m : ℕ} {version : ℕ} {todo : List String} {out : Payloads}
    {phase : PollPhase} {choice : Choice}
    (asks : Asks machine config actions name tid m (.poll (.snapshot version todo out) name phase))
    (mono : ∀ {first last : ℕ}, first ≤ last →
      ((machine.moment config actions first).topics.polls name).fullVersion ≤
        ((machine.moment config actions last).topics.polls name).fullVersion)
    (stepped : (machine.moment config actions (m + 1)).topics =
      (advance config (machine.moment config actions m).topics
        (machine.moment config actions m).now
          ((machine.moment config actions m).contextDone tid
            (.poll (.snapshot version todo out) name phase)) choice
              (.poll (.snapshot version todo out) name phase)).1) :
    Asks machine config actions name tid (m + 1)
      (advance config (machine.moment config actions m).topics
        (machine.moment config actions m).now
          ((machine.moment config actions m).contextDone tid
            (.poll (.snapshot version todo out) name phase)) choice
              (.poll (.snapshot version todo out) name phase)).2 := by
  have grows := mono (Nat.le_succ m)
  rcases asks rfl with ⟨⟨look, before, looks⟩, asked⟩
  have since : ∃ look < m + 1, LooksAt machine config actions tid name version todo out look :=
    ⟨look, before.trans (Nat.lt_succ_self _), looks⟩
  have le : version ≤ ((machine.moment config actions m).topics.polls name).fullVersion := by
    rw [← looks.version]
    exact mono before.le
  have stays : Asks machine config actions name tid (m + 1)
      (.poll (.snapshot version todo out) name phase) := fun _ => ⟨since, asks_mono asked grows⟩
  cases phase with
  | gate profile recheck previousVersion =>
      simp only [advance]
      split
      · split
        · exact fun _ => ⟨since, asked⟩
        · exact stays
      · split
        · refine fun _ => ⟨since, ?_⟩
          rintro (impossible | impossible)
          · cases impossible
          · cases impossible
        · exact stays
      · exact stays
  | owned profile recheck previousVersion =>
      rcases asked with ⟨rfl, rfl, rfl⟩
      rcases @ownedSection_asks name (machine.moment config actions m).topics _ todo out le with
        ⟨next, same, asked⟩
      simp only [advance, same]
      exact fun _ => ⟨since, asks_mono asked grows⟩
  | fetching profile number =>
      cases asked
      cases choice with
      | go fetched ts =>
          simp only [advance, fetchReturned]
          split
          · refine fun _ => ⟨since, ?_⟩
            rintro (impossible | impossible)
            · cases impossible
            · cases impossible
          · cases fetched with
            | payload data => exact fun _ => ⟨since, trivial⟩
            | unencodable => exact fun _ => ⟨since, trivial⟩
            | error => exact fun _ => ⟨since, trivial⟩
      | _ => exact stays
  | record number data =>
      cases choice with
      | go fetched ts =>
          cases data with
          | none =>
              refine fun _ => ⟨since, ?_⟩
              rintro (impossible | impossible)
              · cases impossible
              · cases impossible
          | some data =>
              refine fun _ => ⟨since, fun _ => ?_⟩
              have renewed : ((machine.moment config actions (m + 1)).topics.polls
                  name).fullVersion =
                    ((machine.moment config actions m).topics.polls name).fullVersion + 1 := by
                rw [stepped]
                exact Topics.shown_recordFetchSuccess.1
              rw [renewed]
              exact Nat.lt_succ_of_le le
      | _ => exact stays
  | release result =>
      refine fun _ => ⟨since, ?_⟩
      exact renews_mono asked grows

/-- A goroutine that makes the next step. -/
theorem Asks.proceed {tid : ThreadID} {m : ℕ} {thread : Thread} {choice : Choice}
    (found : (machine.moment config actions m).threads tid = some thread)
    (asks : Asks machine config actions name tid m thread)
    (mono : ∀ {first last : ℕ}, first ≤ last →
      ((machine.moment config actions first).topics.polls name).fullVersion ≤
        ((machine.moment config actions last).topics.polls name).fullVersion)
    (stepped : (machine.moment config actions (m + 1)).topics =
      (advance config (machine.moment config actions m).topics
        (machine.moment config actions m).now
          ((machine.moment config actions m).contextDone tid thread) choice thread).1) :
    Asks machine config actions name tid (m + 1)
      (advance config (machine.moment config actions m).topics
        (machine.moment config actions m).now
          ((machine.moment config actions m).contextDone tid thread) choice thread).2 := by
  have grows := mono (Nat.le_succ m)
  cases thread with
  | starting other => trivial
  | waiting other stop =>
      simp only [advance]
      split
      · trivial
      · split
        · trivial
        · trivial
      · split
        · trivial
        · trivial
      · trivial
  | ticked other stop => trivial
  | woken other stop =>
      simp only [advance, wakeSection]
      split
      · trivial
      split
      · trivial
      · trivial
  | poll caller other phase =>
      -- What matters is a poll of this topic for a call of `Snapshot`.
      by_cases mine : ∃ version todo out, caller = .snapshot version todo out ∧ other = name
      · rcases mine with ⟨version, todo, out, rfl, rfl⟩
        exact asks.poll mono stepped
      · rcases @advance_poll config (machine.moment config actions m).topics
          (machine.moment config actions m).now _ other choice caller phase with
          ⟨next, same⟩ | ⟨result, same⟩
        · rw [same]
          cases caller with
          | snapshot version todo out =>
              intro here
              exact absurd ⟨version, todo, out, rfl, here⟩ mine
          | _ => trivial
        · rw [same]
          cases caller with
          | snapshot version todo out =>
              intro here
              exact absurd ⟨version, todo, out, rfl, here⟩ mine
          | _ => trivial
  | look todo out =>
      cases todo with
      | nil => trivial
      | cons other todo =>
          simp only [advance, lookSection]
          split
          · rename_i fresh
            rintro rfl
            refine ⟨m, Nat.lt_succ_self m, ⟨found, rfl⟩, ?_⟩
            rintro ⟨polled, idle⟩
            rcases fresh with unpolled | ⟨active, -⟩
            · rw [polled] at unpolled
              cases unpolled
            · rw [idle] at active
              cases active
          · rintro rfl
            exact ⟨⟨m, Nat.lt_succ_self m, found, rfl⟩, rfl, rfl, rfl⟩
  | read other version result todo out => trivial
  | wakeUp other => trivial
  | finished out => trivial

end Asking

end Machine

end TelemtPanel.Polling
