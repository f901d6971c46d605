import TelemtPanel.Polling.Steps

/-!
# The gate of a topic

One goroutine at a time holds the gate of a topic.  Its fetch is the last one that has begun, and
later than the one whose payload is cached, so that payloads are cached and published in the
order in which their fetches began.
-/

namespace TelemtPanel.Polling

open Library Events

namespace Moves

variable {topics later : Topics} {contextDone : Bool} {thread next : Thread}

/-- What a goroutine does to the gates: nothing, or it takes the token of one or gives it back. -/
theorem gates (moves : Moves topics later contextDone thread next) :
    (next.holds = thread.holds ∧
      ∀ name, (later.ledger name).gate = (topics.ledger name).gate) ∨
    ∃ name, (∀ other ≠ name, (later.ledger other).gate = (topics.ledger other).gate) ∧
      (thread.holds = none ∧ next.holds = some name ∧ (topics.ledger name).gate = true ∧
          (later.ledger name).gate = false ∨
        thread.holds = some name ∧ next.holds = none ∧ (later.ledger name).gate = true) := by
  cases moves with
  | free kept before after =>
      refine Or.inl ⟨after.trans before.symm, ?_⟩
      intro name
      rw [kept.ledger]
  | hold kept same number records =>
      refine Or.inl ⟨same, ?_⟩
      intro name
      rw [kept.ledger]
  | @acquire _ _ name before after unnumbered token taken others shown =>
      refine Or.inr ⟨name, ?_, Or.inl ⟨before, after, token, ?_⟩⟩
      · intro other differ
        rw [others other differ]
      · rw [taken]
  | @begin caller name profile chosen recheck previousVersion begun others shown =>
      refine Or.inl ⟨rfl, ?_⟩
      intro other
      by_cases here : other = name
      · rw [here, begun]
      · rw [others other here]
  | @success caller name number data ledger others version shown =>
      refine Or.inl ⟨rfl, ?_⟩
      intro other
      by_cases here : other = name
      · rw [here]
        rcases ledger with same | same
        · rw [same]
        · rw [same]
      · rw [others other here]
  | failure ledger kept shown =>
      refine Or.inl ⟨rfl, ?_⟩
      intro name
      rw [ledger]
  | @release caller name result freed others shown =>
      refine Or.inr ⟨name, ?_, Or.inr ⟨rfl, returned_holds _ _ _, ?_⟩⟩
      · intro other differ
        rw [others other differ]
      · rw [freed]

/-- A goroutine does nothing to the fetches of a topic whose gate it does not hold. -/
theorem other_ledger (moves : Moves topics later contextDone thread next) {name : String}
    (elsewhere : thread.holds ≠ some name) :
    (later.ledger name).begun = (topics.ledger name).begun ∧
      (later.ledger name).cached = (topics.ledger name).cached ∧
        (later.ledger name).fetches = (topics.ledger name).fetches := by
  cases moves with
  | free kept before after =>
      rw [kept.ledger]
      exact ⟨rfl, rfl, rfl⟩
  | hold kept same number records =>
      rw [kept.ledger]
      exact ⟨rfl, rfl, rfl⟩
  | @acquire _ _ other before after unnumbered token taken others shown =>
      by_cases here : name = other
      · rw [here, taken]
        exact ⟨rfl, rfl, rfl⟩
      · rw [others name here]
        exact ⟨rfl, rfl, rfl⟩
  | begin begun others shown =>
      rw [others name fun here => elsewhere (congrArg some here.symm)]
      exact ⟨rfl, rfl, rfl⟩
  | success ledger others version shown =>
      rw [others name fun here => elsewhere (congrArg some here.symm)]
      exact ⟨rfl, rfl, rfl⟩
  | failure ledger kept shown =>
      rw [ledger]
      exact ⟨rfl, rfl, rfl⟩
  | release freed others shown =>
      rw [others name fun here => elsewhere (congrArg some here.symm)]
      exact ⟨rfl, rfl, rfl⟩

/-- What the goroutine that holds the gate of a topic does to its fetches: nothing, or it begins
one, or it records the one it has begun. -/
theorem own_ledger (moves : Moves topics later contextDone thread next) {name : String}
    (holds : thread.holds = some name) :
    (next.number = none ∨ next.number = thread.number) ∧
        (later.ledger name).begun = (topics.ledger name).begun ∧
          (later.ledger name).cached = (topics.ledger name).cached ∧
            (later.ledger name).fetches = (topics.ledger name).fetches ∨
      next.number = some ((topics.ledger name).begun + 1) ∧
          (later.ledger name).begun = (topics.ledger name).begun + 1 ∧
            (later.ledger name).cached = (topics.ledger name).cached ∧
              (later.ledger name).fetches = (topics.ledger name).fetches ∨
        next.number = none ∧ ∃ number, thread.number = some number ∧
          (later.ledger name).begun = (topics.ledger name).begun ∧
            (later.ledger name).cached = number ∧
              ((later.ledger name).fetches = (topics.ledger name).fetches ∨
                (later.ledger name).fetches = (topics.ledger name).fetches ++ [number]) := by
  cases moves with
  | free kept before after =>
      rw [before] at holds
      cases holds
  | hold kept same number records =>
      rw [kept.ledger]
      exact Or.inl ⟨number, rfl, rfl, rfl⟩
  | acquire before after unnumbered token taken others shown =>
      rw [before] at holds
      cases holds
  | begin begun others shown =>
      cases holds
      rw [begun]
      exact Or.inr (Or.inl ⟨rfl, rfl, rfl, rfl⟩)
  | success ledger others version shown =>
      cases holds
      refine Or.inr (Or.inr ⟨rfl, _, rfl, ?_⟩)
      rcases ledger with same | same
      · rw [same]
        exact ⟨rfl, rfl, Or.inl rfl⟩
      · rw [same]
        exact ⟨rfl, rfl, Or.inr rfl⟩
  | failure ledger kept shown =>
      rw [ledger]
      exact Or.inl ⟨Or.inl rfl, rfl, rfl, rfl⟩
  | release freed others shown =>
      cases holds
      rw [freed]
      exact Or.inl ⟨Or.inl (returned_number _ _ _), rfl, rfl, rfl⟩

/-- A goroutine that has just taken a token has not begun a fetch. -/
theorem unnumbered (moves : Moves topics later contextDone thread next)
    (differ : next.holds ≠ thread.holds) : next.number = none := by
  rcases moves with ⟨kept, before, after⟩ | ⟨kept, same, number, records⟩ |
    ⟨before, after, unnumbered, token, taken, others, shown⟩ | _ | _ | _ | _
  · exact absurd (after.trans before.symm) differ
  · exact absurd same differ
  · exact unnumbered
  · exact absurd rfl differ
  · rfl
  · rfl
  · exact returned_number _ _ _

end Moves

namespace Machine

variable {config : Config} {machine : Machine}

/-- The token of a gate is in its channel or with one goroutine. -/
structure Exclusive (machine : Machine) : Prop where
  free : ∀ name, (machine.topics.ledger name).gate = true → ∀ tid thread,
    machine.threads tid = some thread → thread.holds ≠ some name
  single : ∀ name tid other thread own, machine.threads tid = some thread →
    machine.threads other = some own → thread.holds = some name → own.holds = some name →
      tid = other

theorem Exclusive.step (exclusive : Exclusive machine) (action : Action) :
    Exclusive (machine.step config action) := by
  rcases @step_moves machine config action with
    ⟨tid, choice, thread, next, -, found, threads, advanced⟩ | ⟨threads, ledger, -⟩
  · have moves := @advance_moves config machine.topics machine.now
      (machine.contextDone tid thread) choice thread
    rw [advanced] at moves
    rcases moves.gates with ⟨same, gates⟩ | ⟨name, gates, acquired | released⟩
    · -- Nobody begins or ceases to hold a gate.
      have before : ∀ other own, (machine.step config action).threads other = some own →
          ∃ old, machine.threads other = some old ∧ old.holds = own.holds := by
        intro other own isOwn
        rw [threads, Function.update_apply] at isOwn
        split at isOwn
        · rename_i here
          cases isOwn
          exact ⟨thread, by rw [here, found], same.symm⟩
        · exact ⟨own, isOwn, rfl⟩
      constructor
      · intro name token other own isOwn
        rw [gates] at token
        rcases before other own isOwn with ⟨old, isOld, same⟩
        rw [← same]
        exact exclusive.free name token other old isOld
      · intro name one two first second isFirst isSecond holds also
        rcases before one first isFirst with ⟨old, isOld, same⟩
        rcases before two second isSecond with ⟨own, isOwn, equal⟩
        rw [← same] at holds
        rw [← equal] at also
        exact exclusive.single name one two old own isOld isOwn holds also
    · rcases acquired with ⟨-, holds, token, taken⟩
      constructor
      · intro other isFree one own isOwn
        have differ : other ≠ name := by
          intro same
          rw [same, taken] at isFree
          cases isFree
        rw [gates other differ] at isFree
        rw [threads, Function.update_apply] at isOwn
        split at isOwn
        · cases isOwn
          rw [holds]
          exact fun same => differ (Option.some_inj.mp same).symm
        · exact exclusive.free other isFree one own isOwn
      · intro other one two first second isFirst isSecond holdsFirst holdsSecond
        rw [threads, Function.update_apply] at isFirst isSecond
        split at isFirst
        · rename_i here
          split at isSecond
          · rename_i there
            rw [here, there]
          · cases isFirst
            rw [holds] at holdsFirst
            cases holdsFirst
            exact absurd holdsSecond (exclusive.free name token two second isSecond)
        · split at isSecond
          · cases isSecond
            rw [holds] at holdsSecond
            cases holdsSecond
            exact absurd holdsFirst (exclusive.free name token one first isFirst)
          · exact exclusive.single other one two first second isFirst isSecond holdsFirst
              holdsSecond
    · rcases released with ⟨held, unheld, -⟩
      constructor
      · intro other isFree one own isOwn
        rw [threads, Function.update_apply] at isOwn
        split at isOwn
        · cases isOwn
          rw [unheld]
          simp
        · rename_i elsewhere
          by_cases here : other = name
          · intro holds
            rw [here] at holds
            exact elsewhere (exclusive.single name one tid own thread isOwn found holds held)
          · rw [gates other here] at isFree
            exact exclusive.free other isFree one own isOwn
      · intro other one two first second isFirst isSecond holdsFirst holdsSecond
        rw [threads, Function.update_apply] at isFirst isSecond
        split at isFirst
        · cases isFirst
          rw [unheld] at holdsFirst
          cases holdsFirst
        · split at isSecond
          · cases isSecond
            rw [unheld] at holdsSecond
            cases holdsSecond
          · exact exclusive.single other one two first second isFirst isSecond holdsFirst
              holdsSecond
  · constructor
    · intro name token tid thread isThread
      rw [ledger] at token
      rcases threads tid thread isThread with before | ⟨unheld, -⟩
      · exact exclusive.free name token tid thread before
      · rw [unheld]
        simp
    · intro name tid other thread own isThread isOwn holds also
      rcases threads tid thread isThread with before | ⟨unheld, -⟩
      · rcases threads other own isOwn with earlier | ⟨unheld, -⟩
        · exact exclusive.single name tid other thread own before earlier holds also
        · rw [unheld] at also
          cases also
      · rw [unheld] at holds
        cases holds

/-- Fetches of a topic are recorded in the order in which they began. -/
structure Ordered (machine : Machine) : Prop where
  cached : ∀ name, (machine.topics.ledger name).cached ≤ (machine.topics.ledger name).begun
  underway : ∀ tid thread name number, machine.threads tid = some thread →
    thread.holds = some name → thread.number = some number →
      number = (machine.topics.ledger name).begun ∧ (machine.topics.ledger name).cached < number
  increasing : ∀ name, (machine.topics.ledger name).fetches.Pairwise (· < ·)
  recorded : ∀ name, ∀ number ∈ (machine.topics.ledger name).fetches,
    number ≤ (machine.topics.ledger name).cached

theorem Ordered.step (ordered : Ordered machine) (exclusive : Exclusive machine)
    (action : Action) : Ordered (machine.step config action) := by
  rcases @step_moves machine config action with
    ⟨tid, choice, thread, next, -, found, threads, advanced⟩ | ⟨threads, ledger, -⟩
  · have moves := @advance_moves config machine.topics machine.now
      (machine.contextDone tid thread) choice thread
    rw [advanced] at moves
    have isOrdered : ∀ name,
        ((machine.step config action).topics.ledger name).cached ≤
            ((machine.step config action).topics.ledger name).begun ∧
          ((machine.step config action).topics.ledger name).fetches.Pairwise (· < ·) ∧
            ∀ number ∈ ((machine.step config action).topics.ledger name).fetches,
              number ≤ ((machine.step config action).topics.ledger name).cached := by
      intro name
      have cached := ordered.cached name
      have increasing := ordered.increasing name
      have recorded := ordered.recorded name
      by_cases holds : thread.holds = some name
      · rcases moves.own_ledger holds with ⟨-, begun, same, fetches⟩ | ⟨-, begun, same, fetches⟩ |
          ⟨-, number, numbered, begun, now, fetches⟩
        · rw [begun, same, fetches]
          exact ⟨cached, increasing, recorded⟩
        · rw [begun, same, fetches]
          exact ⟨cached.trans (Nat.le_succ _), increasing, recorded⟩
        · rcases ordered.underway tid thread name number found holds numbered with ⟨isLast, later⟩
          rw [begun, now]
          refine ⟨isLast.le, ?_⟩
          rcases fetches with fetches | fetches
          · rw [fetches]
            exact ⟨increasing, fun old mem => (recorded old mem).trans later.le⟩
          · rw [fetches]
            refine ⟨?_, ?_⟩
            · refine List.pairwise_append.mpr ⟨increasing, List.pairwise_singleton _ _, ?_⟩
              intro old mem new isNew
              rw [List.mem_singleton.mp isNew]
              exact (recorded old mem).trans_lt later
            · intro old mem
              rcases List.mem_append.mp mem with mem | mem
              · exact (recorded old mem).trans later.le
              · exact (List.mem_singleton.mp mem).le
      · rcases moves.other_ledger holds with ⟨begun, same, fetches⟩
        rw [begun, same, fetches]
        exact ⟨cached, increasing, recorded⟩
    refine ⟨fun name => (isOrdered name).1, ?_, fun name => (isOrdered name).2.1,
      fun name => (isOrdered name).2.2⟩
    intro other own name number isOwn holds numbered
    rw [threads, Function.update_apply] at isOwn
    split at isOwn
    · cases isOwn
      by_cases same : next.holds = thread.holds
      · rw [same] at holds
        rcases moves.own_ledger holds with ⟨kind, begun, cached, -⟩ | ⟨fresh, begun, cached, -⟩ |
          ⟨none, -⟩
        · rw [begun, cached]
          rcases kind with none | old
          · rw [none] at numbered
            cases numbered
          · rw [old] at numbered
            exact ordered.underway tid thread name number found holds numbered
        · rw [fresh] at numbered
          cases numbered
          rw [begun, cached]
          exact ⟨rfl, Nat.lt_succ_of_le (ordered.cached name)⟩
        · rw [none] at numbered
          cases numbered
      · rw [moves.unnumbered same] at numbered
        cases numbered
    · rename_i elsewhere
      have apart : thread.holds ≠ some name := by
        intro also
        exact elsewhere (exclusive.single name other tid own thread isOwn found holds also)
      rcases moves.other_ledger apart with ⟨begun, cached, -⟩
      rw [begun, cached]
      exact ordered.underway other own name number isOwn holds numbered
  · constructor
    · intro name
      rw [ledger]
      exact ordered.cached name
    · intro tid thread name number isThread holds numbered
      rw [ledger]
      rcases threads tid thread isThread with before | ⟨unheld, -⟩
      · exact ordered.underway tid thread name number before holds numbered
      · rw [unheld] at holds
        cases holds
    · intro name
      rw [ledger]
      exact ordered.increasing name
    · intro name
      rw [ledger]
      exact ordered.recorded name

end Machine
end TelemtPanel.Polling
