import TelemtPanel.Library.History

/-!
# Draft sessions of forms

A form is edited while the server keeps answering.  A session holds the version
the form was opened with or last confirmed, the draft, and a remote version that
was received meanwhile and that the user has not decided about.

Versions are compared by their revision and by an equality of values that the form
chooses.  A revision may be absent, and one revision may come with two values when
the server rewrites what was submitted.  The session is only changed by an edit, by
a version that is received, by the acknowledgement of a submitted draft, and by the
decision to discard the draft.
-/

namespace TelemtPanel.Web

open TelemtPanel.Library

universe u

/-- `VersionedDraft`. -/
structure VersionedDraft (T : Type u) where
  value : T
  revision : Option String
  deriving DecidableEq, Repr

/-- `DraftSession`. -/
structure DraftSession (T : Type u) where
  sessionKey : String
  baseline : VersionedDraft T
  draft : T
  remote : Option (VersionedDraft T)
  deriving DecidableEq, Repr

/-- What an acknowledgement reads of a `SubmittedDraft`. -/
structure SubmittedDraft (T : Type u) where
  sessionKey : String
  value : T
  deriving DecidableEq, Repr

section Transitions

variable {T : Type u} (equal : T → T → Bool)

/-- Equal revisions and equal values. -/
def VersionedDraft.same (left right : VersionedDraft T) : Bool :=
  decide (left.revision = right.revision) && equal left.value right.value

/-- `receiveRemote`. -/
def receiveRemote (state : DraftSession T) (fresh : VersionedDraft T) (preserveDraft : Bool) :
    DraftSession T :=
  if fresh.same equal state.baseline then state
  else if preserveDraft then
    if state.remote.any fun remote => remote.same equal fresh then state
    else { state with remote := some fresh }
  else if fresh.revision ≠ none ∧ fresh.revision = state.baseline.revision then
    { state with
      baseline := fresh
      draft := if equal state.draft state.baseline.value then fresh.value else state.draft
      remote :=
        if state.remote.any fun remote => remote.revision = fresh.revision then none
        else state.remote }
  else if state.remote.any fun remote => remote.same equal fresh then state
  else if state.remote.isNone && equal state.draft state.baseline.value then
    { state with baseline := fresh, draft := fresh.value, remote := none }
  else { state with remote := some fresh }

/-- The version that `acknowledgeSubmitted` takes for the confirmed one. -/
def canonicalVersion (remote : Option (VersionedDraft T)) (confirmed : VersionedDraft T) :
    VersionedDraft T :=
  match remote with
  | some remote =>
      if remote.revision ≠ none ∧ remote.revision = confirmed.revision then remote else confirmed
  | none => confirmed

/-- `acknowledgeSubmitted`. -/
def acknowledgeSubmitted (state : DraftSession T) (submitted : SubmittedDraft T)
    (confirmed : VersionedDraft T) : DraftSession T :=
  if state.sessionKey ≠ submitted.sessionKey then state
  else
    let canonical := canonicalVersion state.remote confirmed
    { state with
      baseline := canonical
      draft := if equal state.draft submitted.value then canonical.value else state.draft
      remote := if state.remote.any fun remote => remote.same equal canonical then none
        else state.remote }

/-- `discardToRemote`. -/
def discardToRemote (state : DraftSession T) : DraftSession T :=
  let baseline := state.remote.getD state.baseline
  { state with baseline, draft := baseline.value, remote := none }

/-- What happens to a session. -/
inductive DraftAction (T : Type u) where
  | edit (draft : T)
  | receive (fresh : VersionedDraft T) (preserveDraft : Bool)
  | acknowledge (submitted : SubmittedDraft T) (confirmed : VersionedDraft T)
  | discard
  deriving DecidableEq, Repr

/-- The session after an action. -/
def DraftSession.step (state : DraftSession T) : DraftAction T → DraftSession T
  | .edit draft => { state with draft }
  | .receive fresh preserveDraft => receiveRemote equal state fresh preserveDraft
  | .acknowledge submitted confirmed => acknowledgeSubmitted equal state submitted confirmed
  | .discard => discardToRemote state

/-- A session that was just opened. -/
def DraftSession.start (sessionKey : String) (fresh : VersionedDraft T) : DraftSession T :=
  ⟨sessionKey, fresh, fresh.value, none⟩

/-- Versions that an action brings. -/
def DraftAction.versions : DraftAction T → List (VersionedDraft T)
  | .receive fresh _ => [fresh]
  | .acknowledge _ confirmed => [confirmed]
  | _ => []

/-- When an action may change the draft. -/
def DraftAction.Overwrites (state : DraftSession T) : DraftAction T → Prop
  | .edit _ => True
  | .receive _ preserveDraft =>
      preserveDraft = false ∧ equal state.draft state.baseline.value = true
  | .acknowledge submitted _ =>
      state.sessionKey = submitted.sessionKey ∧ equal state.draft submitted.value = true
  | .discard => True

/-- A version is the pending remote of a session. -/
def DraftSession.Pending (state : DraftSession T) (version : VersionedDraft T) : Prop :=
  ∃ remote, state.remote = some remote ∧ remote.same equal version = true

/-- A version is the baseline of a session. -/
def DraftSession.Based (state : DraftSession T) (version : VersionedDraft T) : Prop :=
  state.baseline.same equal version = true

instance decidableBased (state : DraftSession T) (version : VersionedDraft T) :
    Decidable (state.Based equal version) := inferInstanceAs (Decidable (_ = true))

end Transitions

section Steps

variable {T : Type u} {equal : T → T → Bool} {state : DraftSession T} {action : DraftAction T}
  {version fresh : VersionedDraft T} {preserveDraft : Bool}

theorem VersionedDraft.same_iff {left right : VersionedDraft T} :
    left.same equal right = true ↔
      left.revision = right.revision ∧ equal left.value right.value = true := by
  simp [VersionedDraft.same]

/-- Equality of versions is an equivalence when the equality of values is one. -/
theorem same_equivalence (equivalence : Equivalence fun left right => equal left right = true) :
    Equivalence fun left right : VersionedDraft T => left.same equal right = true where
  refl version := VersionedDraft.same_iff.mpr ⟨rfl, equivalence.refl _⟩
  symm known := by
    rw [VersionedDraft.same_iff] at known ⊢
    exact ⟨known.1.symm, equivalence.symm known.2⟩
  trans first second := by
    rw [VersionedDraft.same_iff] at first second ⊢
    exact ⟨first.1.trans second.1, equivalence.trans first.2 second.2⟩

theorem pending_iff_any {version : VersionedDraft T} :
    (state.remote.any fun remote => remote.same equal version) = true ↔
      state.Pending equal version := by
  simp [Option.any_eq_true, DraftSession.Pending]

/-- What a received version does. -/
theorem receiveRemote_cases :
    receiveRemote equal state fresh preserveDraft = state ∧
        (fresh.same equal state.baseline = true ∨ state.Pending equal fresh) ∨
      receiveRemote equal state fresh preserveDraft = { state with remote := some fresh } ∨
      preserveDraft = false ∧ fresh.same equal state.baseline = false ∧
        (receiveRemote equal state fresh preserveDraft).baseline = fresh ∧
        ((receiveRemote equal state fresh preserveDraft).draft = state.draft ∨
          equal state.draft state.baseline.value = true) ∧
        ((receiveRemote equal state fresh preserveDraft).remote = state.remote ∨
          (receiveRemote equal state fresh preserveDraft).remote = none) := by
  unfold receiveRemote
  split
  · rename_i same
    exact .inl ⟨rfl, .inl same⟩
  · rename_i differs
    split
    · split
      · rename_i pending
        exact .inl ⟨rfl, .inr (pending_iff_any.mp pending)⟩
      · exact .inr (.inl rfl)
    · rename_i replaceable
      split
      · refine .inr (.inr ⟨by simpa using replaceable, by simpa using differs, rfl, ?_, ?_⟩)
        · dsimp only
          split
          · rename_i clean
            exact .inr clean
          · exact .inl rfl
        · dsimp only
          split
          · exact .inr rfl
          · exact .inl rfl
      · split
        · rename_i pending
          exact .inl ⟨rfl, .inr (pending_iff_any.mp pending)⟩
        · split
          · rename_i clean
            rw [Bool.and_eq_true] at clean
            exact .inr (.inr ⟨by simpa using replaceable, by simpa using differs, rfl,
              .inr clean.2, .inr rfl⟩)
          · exact .inr (.inl rfl)

theorem acknowledge_of_other {submitted : SubmittedDraft T} {confirmed : VersionedDraft T}
    (other : submitted.sessionKey ≠ state.sessionKey) :
    acknowledgeSubmitted equal state submitted confirmed = state := by
  rw [acknowledgeSubmitted, if_pos other.symm]

theorem canonicalVersion_cases (remote : Option (VersionedDraft T)) (confirmed : VersionedDraft T) :
    canonicalVersion remote confirmed = confirmed ∨
      remote = some (canonicalVersion remote confirmed) := by
  unfold canonicalVersion
  cases remote with
  | none => exact .inl rfl
  | some remote =>
      dsimp only
      split
      · exact .inr rfl
      · exact .inl rfl

/-- The draft changes only where an action may overwrite it. -/
theorem draft_step (changed : (state.step equal action).draft ≠ state.draft) :
    action.Overwrites equal state := by
  cases action with
  | edit draft => trivial
  | discard => trivial
  | receive fresh preserveDraft =>
      rcases @receiveRemote_cases T equal state fresh preserveDraft with ⟨same, -⟩ | kept | ⟨replaceable, -, -, draft, -⟩
      · exact absurd (congrArg DraftSession.draft same) changed
      · exact absurd (congrArg DraftSession.draft kept) changed
      · exact ⟨replaceable, draft.resolve_left changed⟩
  | acknowledge submitted confirmed =>
      simp only [DraftSession.step, acknowledgeSubmitted] at changed
      split at changed
      · exact absurd rfl changed
      · rename_i sameKey
        dsimp only at changed
        split at changed
        · rename_i unchanged
          exact ⟨not_not.mp sameKey, unchanged⟩
        · exact absurd rfl changed

theorem sessionKey_step (state : DraftSession T) (action : DraftAction T) :
    (state.step equal action).sessionKey = state.sessionKey := by
  cases action with
  | edit draft => rfl
  | discard => rfl
  | receive fresh preserveDraft =>
      simp only [DraftSession.step, receiveRemote]
      split_ifs <;> rfl
  | acknowledge submitted confirmed =>
      simp only [DraftSession.step, acknowledgeSubmitted]
      split_ifs <;> rfl

/-- Baseline and remote come from the versions that were there and those an action brings. -/
theorem versions_step {known : List (VersionedDraft T)} (baseline : state.baseline ∈ known)
    (remote : ∀ version, state.remote = some version → version ∈ known) :
    (state.step equal action).baseline ∈ known ++ action.versions ∧
      ∀ version, (state.step equal action).remote = some version →
        version ∈ known ++ action.versions := by
  have kept : ∀ version, state.remote = some version → version ∈ known ++ action.versions :=
    fun version found => List.mem_append_left _ (remote version found)
  cases action with
  | edit draft => exact ⟨List.mem_append_left _ baseline, kept⟩
  | discard =>
      refine ⟨List.mem_append_left _ ?_, fun version found => by cases found⟩
      change state.remote.getD state.baseline ∈ known
      cases found : state.remote with
      | none => exact baseline
      | some version => exact remote version found
  | receive fresh preserveDraft =>
      have brought : fresh ∈ known ++ (DraftAction.receive fresh preserveDraft).versions :=
        List.mem_append_right _ (List.mem_singleton_self fresh)
      simp only [DraftSession.step]
      rcases @receiveRemote_cases T equal state fresh preserveDraft with ⟨same, -⟩ | pending | ⟨-, -, based, -, remotes⟩
      · rw [same]
        exact ⟨List.mem_append_left _ baseline, kept⟩
      · rw [pending]
        refine ⟨List.mem_append_left _ baseline, fun version found => ?_⟩
        cases found
        exact brought
      · rw [based]
        refine ⟨brought, fun version found => ?_⟩
        rcases remotes with same | none
        · exact kept version (same ▸ found)
        · rw [none] at found
          cases found
  | acknowledge submitted confirmed =>
      have brought : confirmed ∈
          known ++ (DraftAction.acknowledge submitted confirmed).versions :=
        List.mem_append_right _ (List.mem_singleton_self confirmed)
      simp only [DraftSession.step, acknowledgeSubmitted]
      split
      · exact ⟨List.mem_append_left _ baseline, kept⟩
      · refine ⟨?_, fun version found => ?_⟩
        · rcases canonicalVersion_cases state.remote confirmed with same | found
          · rw [same]
            exact brought
          · exact kept _ found
        · dsimp only at found
          split at found
          · cases found
          · exact kept version found

variable (equivalence : Equivalence fun left right => equal left right = true)

include equivalence

/-- A received version that differs from the baseline becomes the pending remote or the baseline. -/
theorem received_step (differs : fresh.same equal state.baseline = false) :
    (state.step equal (.receive fresh preserveDraft)).Pending equal fresh ∨
      (state.step equal (.receive fresh preserveDraft)).Based equal fresh := by
  have versions := same_equivalence equivalence
  simp only [DraftSession.step]
  rcases @receiveRemote_cases T equal state fresh preserveDraft with ⟨same, known⟩ | pending | ⟨-, -, based, -⟩
  · rw [same]
    exact .inl (known.resolve_left (by simp [differs]))
  · rw [pending]
    exact .inl ⟨fresh, rfl, versions.refl fresh⟩
  · refine .inr ?_
    rw [DraftSession.Based, based]
    exact versions.refl fresh

/-- A pending remote stays pending, becomes the baseline, or gives way to another version that
is received and differs from the baseline. -/
theorem pending_step (pending : state.Pending equal version) :
    (state.step equal action).Pending equal version ∨
      (state.step equal action).Based equal version ∨
      ∃ fresh preserveDraft, action = .receive fresh preserveDraft ∧
        fresh.same equal state.baseline = false := by
  have versions := same_equivalence equivalence
  rcases pending with ⟨remote, found, same⟩
  cases action with
  | edit draft => exact .inl ⟨remote, found, same⟩
  | discard =>
      refine .inr (.inl ?_)
      simp only [DraftSession.Based, DraftSession.step, discardToRemote, found, Option.getD_some]
      exact same
  | receive fresh preserveDraft =>
      by_cases differs : fresh.same equal state.baseline = false
      · exact .inr (.inr ⟨fresh, preserveDraft, rfl, differs⟩)
      · refine .inl ?_
        simp only [DraftSession.step, receiveRemote]
        rw [if_pos (by simpa using differs)]
        exact ⟨remote, found, same⟩
  | acknowledge submitted confirmed =>
      simp only [DraftSession.step, acknowledgeSubmitted]
      split
      · exact .inl ⟨remote, found, same⟩
      · by_cases matches_ : remote.same equal (canonicalVersion state.remote confirmed) = true
        · exact .inr (.inl (versions.trans (versions.symm matches_) same))
        · refine .inl ⟨remote, ?_, same⟩
          simp only [found, Option.any_some]
          rw [found] at matches_
          rw [if_neg matches_]

end Steps

section Runs

variable {T : Type u} {equal : T → T → Bool}

/-- Along a run every version that was received and differed from the baseline stays the pending
remote until it becomes the baseline or gives way to a version received later. -/
theorem pending_run (equivalence : Equivalence fun left right => equal left right = true)
    {state : DraftSession T} {actions : List (DraftAction T)} {moment : ℕ}
    {fresh : VersionedDraft T} {preserveDraft : Bool}
    (made : actions[moment]? = some (.receive fresh preserveDraft))
    (differs : fresh.same equal
      (stateAt (DraftSession.step equal) state actions moment).baseline = false)
    {later : ℕ} (after : moment < later) (within : later ≤ actions.length) :
    (stateAt (DraftSession.step equal) state actions later).Pending equal fresh ∨
      (∃ between, moment < between ∧ between ≤ later ∧
        (stateAt (DraftSession.step equal) state actions between).Based equal fresh) ∨
      ∃ between other preserve, moment < between ∧ between < later ∧
        actions[between]? = some (.receive other preserve) ∧
        other.same equal
          (stateAt (DraftSession.step equal) state actions between).baseline = false ∧
        ¬(stateAt (DraftSession.step equal) state actions (between + 1)).Pending equal fresh := by
  induction later, after using Nat.le_induction with
  | base =>
      rw [stateAt_step made]
      rcases @received_step T equal _ fresh preserveDraft equivalence differs with
        pending | based
      · exact .inl pending
      · refine .inr (.inl ⟨moment + 1, Nat.lt_succ_self _, le_refl _, ?_⟩)
        rwa [stateAt_step made]
  | succ later after ih =>
      rcases ih (Nat.le_of_succ_le within) with pending | ⟨between, gt, le, based⟩ |
        ⟨between, other, preserve, gt, lt, received, changed, dropped⟩
      · by_cases still :
          (stateAt (DraftSession.step equal) state actions (later + 1)).Pending equal fresh
        · exact .inl still
        · have next := List.getElem?_eq_getElem (Nat.lt_of_succ_le within)
          rw [stateAt_step next] at still
          rcases pending_step equivalence pending with kept | based |
            ⟨other, preserve, isReceive, changed⟩
          · exact absurd kept still
          · refine .inr (.inl ⟨later + 1, Nat.lt_succ_of_lt after, le_refl _, ?_⟩)
            rwa [stateAt_step next]
          · refine .inr (.inr ⟨later, other, preserve, after, Nat.lt_succ_self _, ?_, changed, ?_⟩)
            · rw [next, isReceive]
            · rwa [stateAt_step next]
      · exact .inr (.inl ⟨between, gt, Nat.le_succ_of_le le, based⟩)
      · exact .inr (.inr ⟨between, other, preserve, gt, Nat.lt_succ_of_lt lt, received, changed,
          dropped⟩)

/-- Baseline and remote of a run come from the version it was started with, and from those that
were received or acknowledged. -/
theorem versions_run (sessionKey : String) (first : VersionedDraft T)
    (actions : List (DraftAction T)) :
    (after (DraftSession.step equal) (.start sessionKey first) actions).baseline ∈
        first :: actions.flatMap DraftAction.versions ∧
      ∀ version, (after (DraftSession.step equal) (.start sessionKey first) actions).remote =
        some version → version ∈ first :: actions.flatMap DraftAction.versions := by
  refine @history_after _ _ (DraftSession.step equal) (.start sessionKey first)
    (fun actions state => state.baseline ∈ first :: actions.flatMap DraftAction.versions ∧
      ∀ version, state.remote = some version →
        version ∈ first :: actions.flatMap DraftAction.versions) ?_ ?_ actions
  · exact ⟨List.mem_cons_self, fun version found => by cases found⟩
  · intro actions last known
    have grown := @versions_step T equal _ last _ known.1 known.2
    simpa using grown

theorem sessionKey_run (state : DraftSession T) (actions : List (DraftAction T)) :
    (after (DraftSession.step equal) state actions).sessionKey = state.sessionKey :=
  @always_after _ _ _ (fun reached => reached.sessionKey = state.sessionKey)
    (fun reached action known => (sessionKey_step reached action).trans known) _ rfl actions

end Runs

section Hook

variable {T : Type u} (equal : T → T → Bool)

/-- What `useDraftSession` keeps: the arguments it received last, and the session. -/
structure DraftHook (T : Type u) where
  sessionKey : String
  fresh : VersionedDraft T
  preserveDraft : Bool
  session : DraftSession T
  deriving DecidableEq, Repr

/-- The first rendering of `useDraftSession`. -/
def DraftHook.mount (sessionKey : String) (fresh : VersionedDraft T) (preserveDraft : Bool) :
    DraftHook T :=
  ⟨sessionKey, fresh, preserveDraft, .start sessionKey fresh⟩

/-- The layout effect of `useDraftSession` for the arguments of a rendering. -/
def DraftHook.effect (hook : DraftHook T) (sessionKey : String) (fresh : VersionedDraft T)
    (preserveDraft : Bool) : DraftHook T :=
  if hook.sessionKey ≠ sessionKey then .mount sessionKey fresh preserveDraft
  else if ¬hook.fresh.same equal fresh then
    { hook with
      fresh, preserveDraft, session := receiveRemote equal hook.session fresh preserveDraft }
  else if hook.preserveDraft ≠ preserveDraft then { hook with fresh, preserveDraft }
  else hook

/-- A rendering, or a change that the form makes with `update`. -/
inductive HookAction (T : Type u) where
  | render (sessionKey : String) (fresh : VersionedDraft T) (preserveDraft : Bool)
  | update (change : DraftAction T)

/-- The hook after a rendering or a change. -/
def DraftHook.step (hook : DraftHook T) : HookAction T → DraftHook T
  | .render sessionKey fresh preserveDraft => hook.effect equal sessionKey fresh preserveDraft
  | .update change => { hook with session := hook.session.step equal change }

/-- Every session of the hook is the result of a run that began with a version rendered under the
session's own key. -/
theorem hook_session (sessionKey : String) (fresh : VersionedDraft T) (preserveDraft : Bool)
    (actions : List (HookAction T)) :
    let hook := after (DraftHook.step equal) (.mount sessionKey fresh preserveDraft) actions
    ∃ first changes, hook.session =
      after (DraftSession.step equal) (.start hook.sessionKey first) changes := by
  refine @always_after _ _ (DraftHook.step equal) (fun hook => ∃ first changes, hook.session =
    after (DraftSession.step equal) (.start hook.sessionKey first) changes) ?_ _ ?_ actions
  · rintro hook action ⟨first, changes, reached⟩
    cases action with
    | update change =>
        refine ⟨first, changes ++ [change], ?_⟩
        rw [after_concat]
        exact congrArg (DraftSession.step equal · change) reached
    | render sessionKey fresh preserveDraft =>
        simp only [DraftHook.step, DraftHook.effect]
        split
        · exact ⟨fresh, [], rfl⟩
        · split
          · refine ⟨first, changes ++ [.receive fresh preserveDraft], ?_⟩
            rw [after_concat]
            exact congrArg (DraftSession.step equal · (.receive fresh preserveDraft)) reached
          · split
            · exact ⟨first, changes, reached⟩
            · exact ⟨first, changes, reached⟩
  · exact ⟨fresh, [], rfl⟩

end Hook

/-- A session loses no input and hides no remote version.  Along every run from the opening of a
session the draft changes only where the action may overwrite it; a received version that differs
from the baseline stays the pending remote until it becomes the baseline or gives way to a version
received later; the baseline is one of the received and acknowledged versions; and an
acknowledgement for another session changes nothing. -/
theorem draft_session_keeps {T : Type u} {equal : T → T → Bool}
    (equivalence : Equivalence fun left right => equal left right = true) (sessionKey : String)
    (first : VersionedDraft T) (actions : List (DraftAction T)) :
    let state := stateAt (DraftSession.step equal) (.start sessionKey first) actions
    (∀ moment action, actions[moment]? = some action →
      (state (moment + 1)).draft ≠ (state moment).draft →
        action.Overwrites equal (state moment)) ∧
    (∀ moment fresh preserveDraft, actions[moment]? = some (.receive fresh preserveDraft) →
      fresh.same equal (state moment).baseline = false →
      ∀ later, moment < later → later ≤ actions.length →
        (state later).Pending equal fresh ∨
        (∃ between, moment < between ∧ between ≤ later ∧ (state between).Based equal fresh) ∨
        ∃ between other preserve, moment < between ∧ between < later ∧
          actions[between]? = some (.receive other preserve) ∧
          other.same equal (state between).baseline = false ∧
          ¬(state (between + 1)).Pending equal fresh) ∧
    (∀ moment, (state moment).baseline ∈
      first :: (actions.take moment).flatMap DraftAction.versions) ∧
    ∀ moment submitted confirmed,
      actions[moment]? = some (.acknowledge submitted confirmed) →
      submitted.sessionKey ≠ sessionKey → state (moment + 1) = state moment := by
  refine ⟨?_, ?_, fun moment => (versions_run sessionKey first (actions.take moment)).1, ?_⟩
  · intro moment action made changed
    rw [stateAt_step made] at changed
    exact draft_step changed
  · intro moment fresh preserveDraft made differs later after within
    exact pending_run equivalence made differs after within
  · intro moment submitted confirmed made other
    rw [stateAt_step made]
    refine acknowledge_of_other ?_
    rw [stateAt, sessionKey_run]
    exact other

/-- A save of `submitted` is answered while a version of someone else is pending. -/
theorem sampleDraft_keeps :
    let actions : List (DraftAction String) :=
      [.edit "submitted", .receive ⟨"external", some "r3"⟩ false,
        .acknowledge ⟨"alice", "submitted"⟩ ⟨"canonical", some "r2"⟩]
    (stateAt (DraftSession.step fun left right : String => decide (left = right))
      (.start "alice" ⟨"original", some "r1"⟩) actions 3).Pending
        (fun left right : String => decide (left = right)) ⟨"external", some "r3"⟩ := by
  intro actions
  have equivalence : Equivalence fun left right : String => decide (left = right) = true :=
    ⟨fun _ => decide_eq_true rfl, fun same => decide_eq_true (of_decide_eq_true same).symm,
      fun left right => decide_eq_true ((of_decide_eq_true left).trans (of_decide_eq_true right))⟩
  have kept := (draft_session_keeps equivalence "alice" ⟨"original", some "r1"⟩ actions).2.1
    1 ⟨"external", some "r3"⟩ false rfl (by decide) 3 (by decide) (by decide)
  rcases kept with pending | ⟨between, lower, upper, based⟩ |
    ⟨between, other, preserve, lower, upper, received, -⟩
  · exact pending
  · rcases (by omega : between = 2 ∨ between = 3) with rfl | rfl
    · exact absurd based (by decide)
    · exact absurd based (by decide)
  · have last : between = 2 := by omega
    subst last
    simp [actions] at received

end TelemtPanel.Web
