import TelemtPanel.Library.Loop
import TelemtPanel.Geography.Aggregate

/-!
# The pairs that a pass visits

Equal pairs are next to each other in a sorted list.  The pass therefore visits every pair
that counts once, in increasing order, whatever the list it was given.
-/

namespace TelemtPanel.Geography

open TelemtPanel.Library GeoIP

/-- The pairs that count, with unmapped addresses. -/
def Input.counted (input : Input) : Finset Pair :=
  ((input.pairs.map fun p => { p with ip := p.ip.unmap }).filter (admitted input.family)).toFinset

theorem mem_counted {input : Input} {p : Pair} : p ∈ input.counted ↔
    p ∈ input.pairs.map (fun p => { p with ip := p.ip.unmap }) ∧
      admitted input.family p = true := by
  simp only [Input.counted, List.mem_toFinset, List.mem_filter]

theorem username_of_admitted {family : String} {p : Pair} (isAdmitted : admitted family p = true) :
    p.username ≠ "" := by
  simp only [admitted, Bool.and_eq_true, decide_eq_true_eq] at isAdmitted
  exact isAdmitted.1.1.1.2

/-- Increasing pairs without repetition. -/
def Increasing (pairs : List Pair) : Prop := pairs.Pairwise fun p q => p.order < q.order

theorem Increasing.eq {left right : List Pair} (increasing : Increasing left)
    (other : Increasing right) (same : ∀ p, p ∈ left ↔ p ∈ right) : left = right :=
  Sorter.eq_of_pairwise_lt increasing other same

namespace Pass

section Frame

variable {resolved : Resolutions}

/-- A membership changes the members only. -/
theorem addMember_eq (pass : Pass) (group : String) (account : ℕ) : ∃ groupIDs groupNames counts,
    pass.addMember group account =
      { pass with groupIDs := groupIDs, groupNames := groupNames, counts := counts } := by
  have indexed : ∃ groupIDs groupNames, (pass.groupIndex group).2 =
      { pass with groupIDs := groupIDs, groupNames := groupNames } := by
    unfold groupIndex
    split <;> exact ⟨_, _, rfl⟩
  rcases indexed with ⟨groupIDs, groupNames, same⟩
  refine ⟨groupIDs, groupNames, (pass.addMember group account).counts, ?_⟩
  change { (pass.groupIndex group).2 with counts := (pass.addMember group account).counts } = _
  rw [same]

/-- Interning changes the accounts only. -/
theorem intern_eq (pass : Pass) (username : String) : ∃ account accounts,
    pass.intern username = { pass with account := account, accounts := accounts } := by
  unfold intern
  split <;> exact ⟨_, _, rfl⟩

/-- An address changes what is known of addresses only. -/
theorem groupsOf_eq (pass : Pass) (ip : IP) : ∃ quality countries locations seen,
    (pass.groupsOf resolved ip).2 = { pass with
      quality := quality, countries := countries, locations := locations, seen := seen } := by
  unfold groupsOf
  split <;> exact ⟨_, _, _, _, rfl⟩

theorem addMember_previous (pass : Pass) (group : String) (account : ℕ) :
    (pass.addMember group account).previous = pass.previous := by
  rcases pass.addMember_eq group account with ⟨_, _, _, same⟩
  rw [same]

theorem visit_previous (pass : Pass) (p : Pair) : (pass.visit resolved p).previous = p := by
  have before : (({ pass with previous := p }.intern p.username).groupsOf resolved
      p.ip).2.previous = p := by
    rcases groupsOf_eq ({ pass with previous := p }.intern p.username) p.ip with
      ⟨_, _, _, _, same⟩
    rcases intern_eq { pass with previous := p } p.username with ⟨_, _, interned⟩
    rw [same, interned]
  unfold visit
  dsimp only
  split <;> simp only [addMember_previous, before]

end Frame

variable {family : String} {resolved : Resolutions}

theorem start_previous_lt {p : Pair} (isAdmitted : admitted family p = true) :
    start.previous.order < p.order := by
  apply Prod.Lex.toLex_lt_toLex.mpr
  left
  apply lt_of_le_of_ne _ (username_of_admitted isAdmitted).symm
  apply String.le_iff_toList_le.mpr
  rcases p.username.toList with _ | ⟨c, rest⟩
  · exact le_rfl
  · exact (List.nil_lt_cons c rest).le

/-- Visited are the pairs that count, apart from the one that was visited last. -/
theorem foldl_step {pairs : List Pair}
    (sorted : pairs.Pairwise fun p q => p.order ≤ q.order) (pass : Pass)
    (behind : ∀ p ∈ pairs, admitted family p = true → pass.previous.order ≤ p.order) :
    ∃ visited, Increasing visited ∧ (∀ q ∈ visited, pass.previous.order < q.order) ∧
      (∀ q, q ∈ visited ↔ q ∈ pairs ∧ admitted family q = true ∧ q ≠ pass.previous) ∧
      pairs.foldl (step family resolved) pass = visited.foldl (visit resolved) pass := by
  induction pairs generalizing pass with
  | nil => exact ⟨[], List.Pairwise.nil, by simp, by simp, rfl⟩
  | cons p pairs ih =>
      rcases List.pairwise_cons.mp sorted with ⟨least, rest⟩
      by_cases isAdmitted : admitted family p = true
      · by_cases repeated : p = pass.previous
        · rcases ih rest pass fun q mem => behind q (List.mem_cons_of_mem _ mem) with
            ⟨visited, increasing, later, mem, folded⟩
          refine ⟨visited, increasing, later, ?_, ?_⟩
          · intro q
            rw [mem, List.mem_cons]
            constructor
            · rintro ⟨there, rest⟩
              exact ⟨.inr there, rest⟩
            · rintro ⟨rfl | there, counts, apart⟩
              · exact absurd repeated apart
              · exact ⟨there, counts, apart⟩
          · rw [List.foldl_cons, step, if_neg (by simp [isAdmitted]), if_pos repeated, folded]
        · have ahead : pass.previous.order < p.order :=
            lt_of_le_of_ne (behind p List.mem_cons_self isAdmitted) fun same =>
              repeated (Pair.order_injective same).symm
          rcases ih rest (pass.visit resolved p) (by
              intro q mem _
              rw [visit_previous]
              exact least q mem) with ⟨visited, increasing, later, mem, folded⟩
          rw [visit_previous] at later mem
          refine ⟨p :: visited, List.pairwise_cons.mpr ⟨later, increasing⟩, ?_, ?_, ?_⟩
          · intro q there
            rcases List.mem_cons.mp there with rfl | there
            · exact ahead
            · exact ahead.trans (later q there)
          · intro q
            rw [List.mem_cons, List.mem_cons, mem]
            constructor
            · rintro (rfl | ⟨there, counts, _⟩)
              · exact ⟨.inl rfl, isAdmitted, repeated⟩
              · refine ⟨.inr there, counts, ?_⟩
                rintro rfl
                exact absurd ahead (not_lt.mpr (least _ there))
            · rintro ⟨rfl | there, counts, _⟩
              · exact .inl rfl
              · by_cases same : q = p
                · exact .inl same
                · exact .inr ⟨there, counts, same⟩
          · rw [List.foldl_cons, List.foldl_cons, step, if_neg (by simp [isAdmitted]),
              if_neg repeated, folded]
      · rcases ih rest pass fun q mem => behind q (List.mem_cons_of_mem _ mem) with
          ⟨visited, increasing, later, mem, folded⟩
        refine ⟨visited, increasing, later, ?_, ?_⟩
        · intro q
          rw [mem, List.mem_cons]
          constructor
          · rintro ⟨there, rest⟩
            exact ⟨.inr there, rest⟩
          · rintro ⟨rfl | there, counts, apart⟩
            · exact absurd counts isAdmitted
            · exact ⟨there, counts, apart⟩
        · rw [List.foldl_cons, step, if_pos (by simp [isAdmitted]), folded]

end Pass

section Outcomes

variable {ctx : Checkpoint → Option ContextError} {input : Input} {resolved : Resolutions}

/-- A loop that is not given up treats all pairs. -/
theorem Pass.run_eq_ok {i : ℕ} {pass final : Pass} {pairs : List Pair}
    (ran : run ctx input resolved i pass pairs = .ok final) :
    final = pairs.foldl (step input.family resolved) pass := by
  induction pairs generalizing i pass with
  | nil =>
      cases ran
      rfl
  | cons p pairs ih =>
      rw [run] at ran
      split at ran
      · rcases bind_eq_ok.mp ran with ⟨_, _, ran⟩
        rcases bind_eq_ok.mp ran with ⟨_, _, ran⟩
        exact ih ran
      · exact ih ran

/-- The pass that a successful aggregation makes. -/
theorem aggregate_eq_ok {sorters : Sorters} {caps : Capacities} {data : SnapshotData}
    (succeeded : aggregate sorters caps ctx input resolved = .ok data) :
    ∃ visited, Increasing visited ∧ (∀ p, p ∈ visited ↔ p ∈ input.counted) ∧
      data = (visited.foldl (Pass.visit resolved) .start).finish sorters caps := by
  rcases bind_eq_ok.mp succeeded with ⟨_, _, succeeded⟩
  rcases bind_eq_ok.mp succeeded with ⟨_, _, succeeded⟩
  rcases bind_eq_ok.mp succeeded with ⟨pass, ran, succeeded⟩
  rcases bind_eq_ok.mp succeeded with ⟨_, _, succeeded⟩
  rcases bind_eq_ok.mp succeeded with ⟨_, _, succeeded⟩
  rcases @Pass.foldl_step input.family resolved _ (sorters.pairs.sorted _) .start
    (fun _ _ isAdmitted => (Pass.start_previous_lt isAdmitted).le) with
    ⟨visited, increasing, _, mem, folded⟩
  refine ⟨visited, increasing, ?_, ?_⟩
  · intro p
    rw [mem, mem_counted, Sorter.mem_sort]
    constructor
    · rintro ⟨there, counts, _⟩
      exact ⟨there, counts⟩
    · rintro ⟨there, counts⟩
      refine ⟨there, counts, ?_⟩
      rintro rfl
      exact username_of_admitted counts rfl
  · rw [← folded, ← Pass.run_eq_ok ran]
    exact (Except.ok.inj succeeded).symm

end Outcomes

end TelemtPanel.Geography
