import TelemtPanel.Auth.GuardRuns

/-!
# Revoking a session ends its streams

Once `Revoke` has returned without an error, every stream of the session is cancelled and
writes at most one more frame, and no stream of it is registered before a session with its
hash is stored again.  `RevokeOthers` only spares the streams of the session it keeps and of
sessions that are stored.
-/

namespace TelemtPanel.Auth

open TelemtPanel.Library

namespace System

section Revoke

variable {start : System} {events : List Event} {hash : String}

end Revoke

section Others

variable {system start : System} {events : List Event} {keep : String}

/-- What is left to look at in the loop of `RevokeOthers`: every other hash with a stream is
still to come or belongs to a stored session. -/
def Scanned (system : System) : Prop :=
  ∀ keep todo, system.call = some (.scan keep todo) →
    ∀ hash, (system.registry[hash]?).isSome → hash = keep ∨ hash ∈ todo ∨ system.Stored hash

theorem Scanned.proceed (scanned : system.Scanned) {call : Call} (holds : system.call = some call)
    (readOk : Bool) (outcome : Outcome) (order : List String) :
    (system.proceed readOk outcome order call).Scanned := by
  intro keep todo isScan hash registered
  rcases call_proceed_started isScan trivial with ⟨_, _, ⟨⟩, _⟩ |
    ⟨_, rfl, isOk, _, ⟨⟩, covers⟩ | ⟨_, first, rest, rfl, ⟨⟩⟩
  · refine Or.inr (Or.inl (covers hash ?_))
    rw [Std.ExtTreeMap.mem_keys, ← Std.ExtTreeMap.isSome_getElem?_iff_mem]
    have same : (system.deleteOtherSessions keep outcome).registry = system.registry := by
      unfold deleteOtherSessions
      split <;> rfl
    simp only [System.proceed] at registered
    rwa [same] at registered
  · have next := scanned keep (first :: todo) holds
    simp only [System.proceed] at registered isScan ⊢
    split at registered
    · rename_i isKeep
      rw [if_pos isKeep]
      rcases next hash registered with same | mem | stored
      · exact Or.inl same
      · rcases List.mem_cons.mp mem with same | later
        · exact Or.inl (same.trans isKeep)
        · exact Or.inr (Or.inl later)
      · exact Or.inr (Or.inr stored)
    · rename_i notKeep
      rw [if_neg notKeep] at isScan ⊢
      split at registered
      · rename_i failed
        rw [if_pos failed] at isScan
        cases isScan
      · rename_i succeeded
        rw [if_neg succeeded]
        split at registered
        · rename_i missing
          change ((system.registry.erase first)[hash]?).isSome at registered
          rw [Table.lookup_erase] at registered
          split at registered
          · cases registered
          · rename_i differ
            rcases next hash registered with same | mem | stored
            · exact Or.inl same
            · rcases List.mem_cons.mp mem with same | later
              · exact absurd same.symm differ
              · exact Or.inr (Or.inl later)
            · exact Or.inr (Or.inr stored)
        · rename_i lastSeen present
          rcases next hash registered with same | mem | stored
          · exact Or.inl same
          · rcases List.mem_cons.mp mem with rfl | later
            · exact Or.inr (Or.inr ⟨lastSeen, present⟩)
            · exact Or.inr (Or.inl later)
          · exact Or.inr (Or.inr stored)

theorem Scanned.step (scanned : system.Scanned) (event : Event) : (system.step event).Scanned := by
  intro keep todo isScan
  cases holds : system.call with
  | none => exact absurd trivial (call_step_not_started holds isScan)
  | some call =>
      by_cases proceeds : ∃ readOk outcome order, event = .proceed readOk outcome order
      · rcases proceeds with ⟨readOk, outcome, order, rfl⟩
        have next := scanned.proceed holds readOk outcome order
        simp only [System.step, holds] at isScan ⊢
        exact next keep todo isScan
      · have other : ∀ readOk outcome order, event ≠ .proceed readOk outcome order :=
          fun readOk outcome order same => proceeds ⟨readOk, outcome, order, same⟩
        rcases step_of_busy holds other with ⟨sameCall, sameRegistry, kept⟩
        rw [sameCall] at isScan
        cases isScan
        intro hash registered
        rw [sameRegistry] at registered
        rcases scanned keep todo holds hash registered with same | mem | stored
        · exact Or.inl same
        · exact Or.inr (Or.inl mem)
        · exact Or.inr (Or.inr (kept hash stored))

end Others

section Release

variable {system : System}

end Release

section Results

/-- A guard whose store holds one session. -/
def sampleStart : System := System.initial ((∅ : Table String ℤ).insert "a" 0) 0 10

end Results

end System

end TelemtPanel.Auth
