import TelemtPanel.Library.Int64
import TelemtPanel.Library.Sorter
import TelemtPanel.Store.Metric.Basic

/-!
# Planning a range read over tiered buckets

Every byte is stored in a bucket of each tier, and coarse tiers are retained
longer.  A range read is split into windows, each of which selects the buckets of
one tier: at every moment the bucket that starts first is taken, the finest one
among several.  The windows of a plan lie one after the other and start and end
on bucket boundaries, except that the last one may end at the time of the read.
-/

namespace TelemtPanel.Store

open TelemtPanel.Library

structure TrafficTierPolicy where
  tier : MetricTier
  widthSecs : ℤ
  retentionSecs : ℤ
deriving DecidableEq, Repr

/-- Selects the buckets of a tier that start in a half-open interval. -/
structure TrafficWindow where
  tier : MetricTier
  fromSecs : ℤ
  toSecs : ℤ
deriving DecidableEq, Repr

structure TrafficCoverage where
  asOfEpochSecs : ℤ
  boundaryPartial : Bool
  coveredFromEpochSecs : Option ℤ
  coveredToEpochSecs : Option ℤ
deriving DecidableEq, Repr

inductive TrafficPlanError where
  | rangeReversed
  | invalidTierPolicy
deriving DecidableEq, Repr

def TrafficPlanError.text : TrafficPlanError → String
  | .rangeReversed => "traffic range is reversed"
  | .invalidTierPolicy => "invalid traffic tier policy"

/-- First bucket boundary that is not before an instant. -/
def ceilTrafficBoundary (ts width : ℤ) : Option ℤ :=
  let remainder := ts.tmod width
  if remainder = 0 then some ts
  else if remainder < 0 then some (ts - remainder)
  else
    let delta := width - remainder
    if ts > maxInt64 - delta then none else some (ts + delta)

/-- The checks on tiers sorted by width, given the tiers seen and the previous width. -/
def validTrafficTiers (seen : List MetricTier) (previous : Option ℤ) :
    List TrafficTierPolicy → Bool
  | [] => true
  | policy :: policies =>
      decide (0 < policy.widthSecs) && decide (0 ≤ policy.retentionSecs) &&
        decide (policy.tier ∉ seen) &&
        previous.all (fun width =>
          decide (policy.widthSecs ≠ width ∧ policy.widthSecs.tmod width = 0)) &&
        validTrafficTiers (policy.tier :: seen) (some policy.widthSecs) policies

/-- Tiers that have passed the checks. -/
structure TrafficTiers where
  policies : List TrafficTierPolicy
  valid : validTrafficTiers [] none policies = true

/-- Equally wide tiers are refused, so the order among them does not matter. -/
def TrafficTiers.ofList (tiers : List TrafficTierPolicy) : Option TrafficTiers :=
  let policies := (Sorter.stable TrafficTierPolicy.widthSecs).sort tiers
  if valid : validTrafficTiers [] none policies = true then some ⟨policies, valid⟩ else none

/-- The next bucket of a plan. -/
structure TrafficBucketChoice where
  tier : MetricTier
  next : ℤ
  bucketEnd : ℤ
deriving DecidableEq, Repr

/-- End of a bucket, within 64 bits. -/
def TrafficTierPolicy.finish (policy : TrafficTierPolicy) (start : ℤ) : ℤ :=
  if start ≤ maxInt64 - policy.widthSecs then start + policy.widthSecs else maxInt64

/-- First retained bucket of a tier that starts at or after `cursor` and before `stop`. -/
def TrafficTierPolicy.candidate (policy : TrafficTierPolicy) (toSecs asOf stop cursor : ℤ) :
    Option TrafficBucketChoice :=
  if policy.retentionSecs = 0 then none
  else
    let cutoff :=
      if asOf ≥ minInt64 + policy.retentionSecs then asOf - policy.retentionSecs else minInt64
    match ceilTrafficBoundary (max cursor cutoff) policy.widthSecs with
    | none => none
    | some start =>
        if start ≥ stop then none
        else if policy.finish start > stop ∧ toSecs < asOf then none
        else some ⟨policy.tier, start, min (policy.finish start) stop⟩

/-- The choice made so far, unless a candidate starts before it. -/
def earlierTrafficBucket (chosen candidate : Option TrafficBucketChoice) :
    Option TrafficBucketChoice :=
  match candidate with
  | none => chosen
  | some found =>
      if found.next < (chosen.map (·.next)).getD maxInt64 then some found else chosen

/-- The candidate that starts first, and among these the one of the finest tier. -/
def chooseTrafficBucket (policies : List TrafficTierPolicy) (toSecs asOf stop cursor : ℤ) :
    Option TrafficBucketChoice :=
  policies.foldl (fun chosen policy =>
    earlierTrafficBucket chosen (policy.candidate toSecs asOf stop cursor)) none

/-- Windows found so far, the latest one first. -/
structure TrafficPlan where
  windows : List TrafficWindow
  coverage : TrafficCoverage
deriving DecidableEq, Repr

namespace TrafficPlan

/-- Adds a bucket, which continues the last window when it can. -/
def addWindow (choice : TrafficBucketChoice) : List TrafficWindow → List TrafficWindow
  | [] => [⟨choice.tier, choice.next, choice.bucketEnd⟩]
  | last :: earlier =>
      if last.tier = choice.tier ∧ last.toSecs = choice.next then
        { last with toSecs := choice.bucketEnd } :: earlier
      else ⟨choice.tier, choice.next, choice.bucketEnd⟩ :: last :: earlier

def extend (plan : TrafficPlan) (cursor : ℤ) (choice : TrafficBucketChoice) : TrafficPlan where
  windows := addWindow choice plan.windows
  coverage := { plan.coverage with
    boundaryPartial := plan.coverage.boundaryPartial || decide (choice.next > cursor)
    coveredFromEpochSecs := some (plan.coverage.coveredFromEpochSecs.getD choice.next)
    coveredToEpochSecs := some choice.bucketEnd }

end TrafficPlan

section Choice

variable {policies : List TrafficTierPolicy} {policy : TrafficTierPolicy}
  {toSecs asOf stop cursor : ℤ} {choice : TrafficBucketChoice}

/-- A boundary that is found is the first one. -/
theorem ceilTrafficBoundary_spec {ts width start : ℤ} (positive : 0 < width)
    (found : ceilTrafficBoundary ts width = some start) :
    width ∣ start ∧ ts ≤ start ∧ start < ts + width := by
  have lower := Int.lt_tmod_of_pos ts positive
  have upper := Int.tmod_lt_of_pos ts positive
  have split := Int.mul_tdiv_add_tmod ts width
  simp only [ceilTrafficBoundary] at found
  split at found
  · rename_i aligned
    cases found
    exact ⟨⟨_, by rw [← split, aligned, add_zero]⟩, le_rfl, by omega⟩
  split at found
  · rename_i negative
    cases found
    refine ⟨⟨ts.tdiv width, ?_⟩, by omega, by omega⟩
    omega
  split at found
  · cases found
  · cases found
    refine ⟨⟨ts.tdiv width + 1, ?_⟩, by omega, by omega⟩
    rw [mul_add, mul_one]
    omega

/-- What a tier offers at a given cursor. -/
structure TrafficTierPolicy.Offers (policy : TrafficTierPolicy) (toSecs asOf stop cursor : ℤ)
    (choice : TrafficBucketChoice) : Prop where
  tier : choice.tier = policy.tier
  retained : policy.retentionSecs ≠ 0
  aligned : policy.widthSecs ∣ choice.next
  cursor_le : cursor ≤ choice.next
  cutoff_le : asOf - policy.retentionSecs ≤ choice.next
  lt_stop : choice.next < stop
  bucketEnd : choice.bucketEnd = min (policy.finish choice.next) stop
  complete : stop < policy.finish choice.next → asOf ≤ toSecs

theorem TrafficTierPolicy.offers_of_candidate (positive : 0 < policy.widthSecs)
    (offered : policy.candidate toSecs asOf stop cursor = some choice) :
    policy.Offers toSecs asOf stop cursor choice := by
  simp only [candidate] at offered
  split at offered
  · cases offered
  rename_i retained
  split at offered
  · cases offered
  rename_i start found
  rcases ceilTrafficBoundary_spec positive found with ⟨aligned, after, -⟩
  split at offered
  · cases offered
  rename_i before
  split at offered
  · cases offered
  rename_i whole
  cases offered
  rcases max_le_iff.mp after with ⟨cursorLe, cutoffLe⟩
  refine ⟨rfl, retained, aligned, cursorLe, ?_, not_le.mp before, rfl, ?_⟩
  · split at cutoffLe
    · exact cutoffLe
    · simp only
      omega
  · intro cut
    exact not_lt.mp fun past => whole ⟨cut, past⟩

theorem chooseTrafficBucket_spec
    (chosen : chooseTrafficBucket policies toSecs asOf stop cursor = some choice) :
    choice.next < maxInt64 ∧
      ∃ policy ∈ policies, policy.candidate toSecs asOf stop cursor = some choice := by
  have general : ∀ found, chooseTrafficBucket policies toSecs asOf stop cursor = some found →
      found.next < maxInt64 ∧
        ∃ policy ∈ policies, policy.candidate toSecs asOf stop cursor = some found := by
    refine List.foldlRecOn policies _ (motive := fun chosen => ∀ found, chosen = some found →
      found.next < maxInt64 ∧
        ∃ policy ∈ policies, policy.candidate toSecs asOf stop cursor = some found) ?_ ?_
    · intro found none
      cases none
    intro chosen before policy mem found isFound
    simp only [earlierTrafficBucket] at isFound
    split at isFound
    · exact before found isFound
    rename_i candidate offered
    split at isFound
    · rename_i earlier
      cases isFound
      refine ⟨?_, policy, mem, offered⟩
      cases chosen with
      | none => exact earlier
      | some first => exact lt_trans earlier (before first rfl).1
    · exact before found isFound
  exact general choice chosen

/-- Tiers that have passed the checks have positive widths and distinct names. -/
theorem validTrafficTiers_spec {seen : List MetricTier} {previous : Option ℤ}
    (valid : validTrafficTiers seen previous policies = true) :
    (∀ policy ∈ policies, 0 < policy.widthSecs ∧ policy.tier ∉ seen) ∧
      (policies.map (·.tier)).Nodup := by
  induction policies generalizing seen previous with
  | nil => simp
  | cons policy policies ih =>
      simp only [validTrafficTiers, Bool.and_eq_true, decide_eq_true_eq] at valid
      rcases valid with ⟨⟨⟨⟨positive, -⟩, fresh⟩, -⟩, rest⟩
      rcases ih rest with ⟨others, distinct⟩
      simp only [List.mem_cons, not_or] at others
      refine ⟨?_, ?_⟩
      · simp only [List.forall_mem_cons]
        exact ⟨⟨positive, fresh⟩, fun other mem => ⟨(others other mem).1, (others other mem).2.2⟩⟩
      · simp only [List.map_cons, List.nodup_cons, List.mem_map, not_exists, not_and]
        exact ⟨fun other mem => (others other mem).2.1, distinct⟩

theorem TrafficTiers.width_pos (tiers : TrafficTiers) (mem : policy ∈ tiers.policies) :
    0 < policy.widthSecs :=
  ((validTrafficTiers_spec tiers.valid).1 policy mem).1

theorem TrafficTiers.eq_of_tier (tiers : TrafficTiers) {other : TrafficTierPolicy}
    (mem : policy ∈ tiers.policies) (otherMem : other ∈ tiers.policies)
    (same : policy.tier = other.tier) : policy = other :=
  List.inj_on_of_nodup_map (validTrafficTiers_spec tiers.valid).2 mem otherMem same

/-- The chosen bucket is offered by a tier and lies ahead. -/
theorem exists_offers_of_chosen (tiers : TrafficTiers)
    (chosen : chooseTrafficBucket tiers.policies toSecs asOf stop cursor = some choice) :
    ∃ policy ∈ tiers.policies, policy.Offers toSecs asOf stop cursor choice ∧
      choice.next < choice.bucketEnd := by
  rcases chooseTrafficBucket_spec chosen with ⟨small, policy, mem, offered⟩
  have positive := tiers.width_pos mem
  have offers := TrafficTierPolicy.offers_of_candidate positive offered
  refine ⟨policy, mem, offers, ?_⟩
  rw [offers.bucketEnd, lt_min_iff]
  refine ⟨?_, offers.lt_stop⟩
  simp only [TrafficTierPolicy.finish]
  split <;> omega

end Choice

/-- The loop of `PlanTrafficWindows`. -/
def planTrafficLoop (tiers : TrafficTiers) (toSecs asOf stop cursor : ℤ) (plan : TrafficPlan) :
    TrafficPlan :=
  if cursor < stop then
    match _chosen : chooseTrafficBucket tiers.policies toSecs asOf stop cursor with
    | none => { plan with coverage := { plan.coverage with boundaryPartial := true } }
    | some choice =>
        planTrafficLoop tiers toSecs asOf stop choice.bucketEnd (plan.extend cursor choice)
  else plan
termination_by (stop - cursor).toNat
decreasing_by
  rcases exists_offers_of_chosen tiers _chosen with ⟨policy, -, offers, ahead⟩
  have := offers.cursor_le
  omega

/-- `PlanTrafficWindows` -/
def planTrafficWindows (fromSecs toSecs asOf : ℤ) (tiers : List TrafficTierPolicy) :
    Except TrafficPlanError (List TrafficWindow × TrafficCoverage) :=
  if fromSecs > toSecs then .error .rangeReversed
  else match TrafficTiers.ofList tiers with
    | none => .error .invalidTierPolicy
    | some tiers =>
        let stop := min toSecs asOf
        if fromSecs ≥ stop then .ok ([], ⟨asOf, decide (fromSecs < toSecs), none, none⟩)
        else
          let plan := planTrafficLoop tiers toSecs asOf stop fromSecs
            ⟨[], ⟨asOf, false, none, none⟩⟩
          .ok (plan.windows.reverse, { plan.coverage with
            boundaryPartial := plan.coverage.boundaryPartial || decide (toSecs > asOf) })

section Plan

variable {tiers : TrafficTiers} {toSecs asOf stop cursor : ℤ} {plan : TrafficPlan}
  {choice : TrafficBucketChoice}

/-- A window starts on a retained bucket boundary of its tier.  It also ends on one, or at the
end of the plan if nothing after that is asked for. -/
structure TrafficWindow.Planned (tiers : TrafficTiers) (toSecs asOf stop : ℤ)
    (window : TrafficWindow) (policy : TrafficTierPolicy) : Prop where
  mem : policy ∈ tiers.policies
  tier : window.tier = policy.tier
  retained : policy.retentionSecs ≠ 0
  aligned : policy.widthSecs ∣ window.fromSecs
  cutoff_le : asOf - policy.retentionSecs ≤ window.fromSecs
  lt : window.fromSecs < window.toSecs
  complete : policy.widthSecs ∣ window.toSecs ∨ window.toSecs = stop ∧ asOf ≤ toSecs

/-- Windows, the latest one first, that lie one after the other up to a cursor. -/
structure PlannedWindows (tiers : TrafficTiers) (toSecs asOf stop cursor : ℤ)
    (windows : List TrafficWindow) : Prop where
  planned : ∀ window ∈ windows, ∃ policy, window.Planned tiers toSecs asOf stop policy
  ordered : windows.Pairwise fun later earlier => earlier.toSecs ≤ later.fromSecs
  le_cursor : ∀ window ∈ windows, window.toSecs ≤ cursor

/-- The bucket of a choice as a window of its own. -/
theorem planned_of_offers {policy : TrafficTierPolicy} (mem : policy ∈ tiers.policies)
    (asOfLe : asOf ≤ maxInt64) (stopEq : stop = min toSecs asOf) (offers : policy.Offers toSecs asOf stop cursor choice)
    (ahead : choice.next < choice.bucketEnd) :
    TrafficWindow.Planned tiers toSecs asOf stop ⟨choice.tier, choice.next, choice.bucketEnd⟩
      policy := by
  refine ⟨mem, offers.tier, offers.retained, offers.aligned, offers.cutoff_le, ahead, ?_⟩
  have bucketEnd := offers.bucketEnd
  simp only [TrafficTierPolicy.finish] at bucketEnd
  have complete := offers.complete
  simp only [TrafficTierPolicy.finish] at complete
  by_cases whole : choice.next + policy.widthSecs ≤ stop
  · left
    rw [if_pos (by omega), min_eq_left whole] at bucketEnd
    rw [bucketEnd]
    exact (Int.dvd_add_right offers.aligned).mpr dvd_rfl
  · right
    have ended : choice.bucketEnd = stop := by
      rw [bucketEnd]
      split <;> omega
    refine ⟨ended, ?_⟩
    split at complete <;> omega

theorem PlannedWindows.addWindow {windows : List TrafficWindow}
    (planned : PlannedWindows tiers toSecs asOf stop cursor windows) (asOfLe : asOf ≤ maxInt64)
    (stopEq : stop = min toSecs asOf) {policy : TrafficTierPolicy} (mem : policy ∈ tiers.policies)
    (offers : policy.Offers toSecs asOf stop cursor choice)
    (ahead : choice.next < choice.bucketEnd) :
    PlannedWindows tiers toSecs asOf stop choice.bucketEnd
      (TrafficPlan.addWindow choice windows) := by
  have new := planned_of_offers mem asOfLe stopEq offers ahead
  have reach : ∀ window ∈ windows, window.toSecs ≤ choice.next := fun window isOld =>
    (planned.le_cursor window isOld).trans offers.cursor_le
  have appended : PlannedWindows tiers toSecs asOf stop choice.bucketEnd
      (⟨choice.tier, choice.next, choice.bucketEnd⟩ :: windows) := by
    refine ⟨?_, ?_, ?_⟩
    · exact List.forall_mem_cons.mpr ⟨⟨policy, new⟩, planned.planned⟩
    · exact List.pairwise_cons.mpr ⟨reach, planned.ordered⟩
    · exact List.forall_mem_cons.mpr
        ⟨le_rfl, fun window isOld => (reach window isOld).trans ahead.le⟩
  cases windows with
  | nil => exact appended
  | cons last earlier =>
      simp only [TrafficPlan.addWindow]
      split
      · rename_i continues
        rcases planned.planned last List.mem_cons_self with ⟨prior, isPrior⟩
        rcases List.pairwise_cons.mp planned.ordered with ⟨before, ordered⟩
        have same : prior = policy := tiers.eq_of_tier isPrior.mem mem
          (isPrior.tier.symm.trans (continues.1.trans offers.tier))
        subst same
        have grown : last.fromSecs < choice.bucketEnd :=
          isPrior.lt.trans (continues.2.trans_lt ahead)
        refine ⟨?_, ?_, ?_⟩
        · refine List.forall_mem_cons.mpr ⟨⟨prior, ?_⟩, fun window isOld =>
            planned.planned window (List.mem_cons_of_mem _ isOld)⟩
          exact ⟨mem, isPrior.tier, isPrior.retained, isPrior.aligned, isPrior.cutoff_le, grown,
            new.complete⟩
        · exact List.pairwise_cons.mpr ⟨before, ordered⟩
        · refine List.forall_mem_cons.mpr ⟨le_rfl, fun window isOld => ?_⟩
          exact (reach window (List.mem_cons_of_mem _ isOld)).trans ahead.le
      · exact appended

/-- The loop finds windows that lie one after the other up to the end of the plan. -/
theorem planTrafficLoop_planned (asOfLe : asOf ≤ maxInt64) (stopEq : stop = min toSecs asOf)
    (before : cursor ≤ stop)
    (planned : PlannedWindows tiers toSecs asOf stop cursor plan.windows) :
    PlannedWindows tiers toSecs asOf stop stop
      (planTrafficLoop tiers toSecs asOf stop cursor plan).windows := by
  have relax : ∀ {cursor plan}, cursor ≤ stop →
      PlannedWindows tiers toSecs asOf stop cursor plan →
        PlannedWindows tiers toSecs asOf stop stop plan := fun le planned =>
    ⟨planned.planned, planned.ordered, fun window mem => (planned.le_cursor window mem).trans le⟩
  fun_induction planTrafficLoop tiers toSecs asOf stop cursor plan with
  | case1 cursor plan ahead noChoice => exact relax before planned
  | case2 cursor plan ahead choice chosen ih =>
      rcases exists_offers_of_chosen tiers chosen with ⟨policy, mem, offers, forward⟩
      refine ih ?_ (planned.addWindow asOfLe stopEq mem offers forward)
      rw [offers.bucketEnd]
      exact min_le_right _ _
  | case3 cursor plan ended => exact relax before planned

/-- The windows of a plan. -/
theorem planTrafficWindows_planned {fromSecs : ℤ} {policies : List TrafficTierPolicy}
    {windows : List TrafficWindow} {coverage : TrafficCoverage}
    (asOfLe : asOf ≤ maxInt64) (isTiers : TrafficTiers.ofList policies = some tiers)
    (isPlan : planTrafficWindows fromSecs toSecs asOf policies = .ok (windows, coverage)) :
    PlannedWindows tiers toSecs asOf (min toSecs asOf) (min toSecs asOf) windows.reverse := by
  simp only [planTrafficWindows, isTiers] at isPlan
  split at isPlan
  · cases isPlan
  split at isPlan
  · cases isPlan
    exact ⟨by simp, by simp, by simp⟩
  · rename_i ahead
    cases isPlan
    rw [List.reverse_reverse]
    exact planTrafficLoop_planned asOfLe rfl (not_le.mp ahead).le ⟨by simp, by simp, by simp⟩

end Plan

end TelemtPanel.Store
