import TelemtPanel.Store.Traffic.WindowPlan

/-!
# A plan covers what is available

A moment is available if it lies in a retained bucket of some tier that is asked for as a
whole, or as far as it has elapsed.  The windows of a plan cover exactly the available
moments.  The choice of the bucket that starts first is right because widths divide each
other: a bucket that ends within a coarser one is followed by more of its tier.

The plan is computed with 64 bits, and no operation of it overflows.
-/

namespace TelemtPanel.Store

open TelemtPanel.Library

section Available

/-- Tiers with different names and widths, each of which divides the greater ones. -/
structure ValidTrafficTiers (policies : List TrafficTierPolicy) : Prop where
  distinct : (policies.map (·.tier)).Nodup
  widths : (policies.map (·.widthSecs)).Nodup
  positive : ∀ policy ∈ policies, 0 < policy.widthSecs
  retention : ∀ policy ∈ policies, 0 ≤ policy.retentionSecs
  divides : ∀ policy ∈ policies, ∀ other ∈ policies,
    policy.widthSecs ≤ other.widthSecs → policy.widthSecs ∣ other.widthSecs

/-- A bucket that a plan may read: it starts in the range and in the retained time, and is
asked for as a whole, or as far as it has elapsed. -/
structure TrafficTierPolicy.Readable (policy : TrafficTierPolicy) (fromSecs toSecs asOf start : ℤ) :
    Prop where
  retained : 0 < policy.retentionSecs
  aligned : policy.widthSecs ∣ start
  from_le : fromSecs ≤ start
  cutoff_le : asOf - policy.retentionSecs ≤ start
  complete : start + policy.widthSecs ≤ min toSecs asOf ∨ asOf ≤ toSecs

/-- A moment of a readable bucket. -/
def Available (policies : List TrafficTierPolicy) (fromSecs toSecs asOf t : ℤ) : Prop :=
  ∃ policy ∈ policies, ∃ start, policy.Readable fromSecs toSecs asOf start ∧
    start ≤ t ∧ t < start + policy.widthSecs ∧ t < min toSecs asOf

/-- A moment of a window. -/
def Covered (windows : List TrafficWindow) (t : ℤ) : Prop :=
  ∃ window ∈ windows, window.fromSecs ≤ t ∧ t < window.toSecs

/-- A signed 64-bit value. -/
def InInt64 (value : ℤ) : Prop := minInt64 ≤ value ∧ value ≤ maxInt64

instance (value : ℤ) : Decidable (InInt64 value) := inferInstanceAs (Decidable (_ ∧ _))

end Available

section Candidates

variable {policy : TrafficTierPolicy} {policies : List TrafficTierPolicy}
  {toSecs asOf stop cursor start : ℤ} {choice : TrafficBucketChoice}

/-- The first boundary is not after any other one. -/
theorem exists_ceilTrafficBoundary {ts width bound : ℤ} (positive : 0 < width)
    (aligned : width ∣ bound) (le : ts ≤ bound) (small : bound ≤ maxInt64) :
    ∃ first, ceilTrafficBoundary ts width = some first ∧ first ≤ bound := by
  have lower := Int.lt_tmod_of_pos ts positive
  have upper := Int.tmod_lt_of_pos ts positive
  have split := Int.mul_tdiv_add_tmod ts width
  rcases aligned with ⟨count, rfl⟩
  -- Multiples of the width are compared by their factors.
  have next : ∀ low, width * low < width * count → width * (low + 1) ≤ width * count := by
    intro low less
    have := lt_of_mul_lt_mul_left less positive.le
    exact mul_le_mul_of_nonneg_left this positive.le
  simp only [ceilTrafficBoundary]
  split
  · exact ⟨ts, rfl, le⟩
  · rename_i inside
    split
    · rename_i negative
      refine ⟨_, rfl, ?_⟩
      by_contra above
      have := next (ts.tdiv width - 1)
      rw [mul_sub, mul_one, sub_add_cancel] at this
      have := this (by omega)
      omega
    · rename_i nonnegative
      have bounded : width * (ts.tdiv width + 1) ≤ width * count := next _ (by omega)
      rw [mul_add, mul_one] at bounded
      rw [if_neg (by omega)]
      exact ⟨_, rfl, by omega⟩

/-- A tier offers a bucket that is not after a given readable one. -/
theorem TrafficTierPolicy.exists_candidate (positive : 0 < policy.widthSecs)
    (retained : 0 < policy.retentionSecs) (aligned : policy.widthSecs ∣ start)
    (cursorLe : cursor ≤ start) (cutoffLe : asOf - policy.retentionSecs ≤ start)
    (before : start < stop) (complete : start + policy.widthSecs ≤ stop ∨ asOf ≤ toSecs)
    (lower : minInt64 ≤ cursor) (upper : stop ≤ maxInt64) :
    ∃ choice, policy.candidate toSecs asOf stop cursor = some choice ∧ choice.next ≤ start := by
  simp only [candidate, if_neg retained.ne']
  generalize cutoffEq : (if asOf ≥ minInt64 + policy.retentionSecs then
    asOf - policy.retentionSecs else minInt64) = cutoff
  have reach : max cursor cutoff ≤ start := by
    apply max_le cursorLe
    rw [← cutoffEq]
    split <;> omega
  rcases exists_ceilTrafficBoundary positive aligned reach (by omega) with ⟨first, found, firstLe⟩
  have inside : ¬(policy.finish first > stop ∧ toSecs < asOf) := by
    rintro ⟨past, cut⟩
    simp only [finish] at past
    split at past <;> omega
  simp only [found, if_neg (not_le.mpr (firstLe.trans_lt before)), if_neg inside]
  exact ⟨_, rfl, firstLe⟩

/-- Start of the choice made so far. -/
def chosenStart (chosen : Option TrafficBucketChoice) : ℤ := (chosen.map (·.next)).getD maxInt64

theorem chosenStart_earlierTrafficBucket_le (chosen candidate : Option TrafficBucketChoice) :
    chosenStart (earlierTrafficBucket chosen candidate) ≤ chosenStart chosen := by
  cases candidate with
  | none => exact le_rfl
  | some found =>
      simp only [earlierTrafficBucket]
      split
      · rename_i earlier
        exact earlier.le
      · exact le_rfl

theorem chosenStart_earlierTrafficBucket_some_le (chosen : Option TrafficBucketChoice) :
    chosenStart (earlierTrafficBucket chosen (some choice)) ≤ choice.next := by
  simp only [earlierTrafficBucket]
  split
  · exact le_rfl
  · rename_i later
    exact not_lt.mp later

/-- The choice does not start after any offered bucket. -/
theorem exists_chosen_of_candidate (mem : policy ∈ policies)
    (offered : policy.candidate toSecs asOf stop cursor = some choice)
    (small : choice.next < maxInt64) :
    ∃ chosen, chooseTrafficBucket policies toSecs asOf stop cursor = some chosen ∧
      chosen.next ≤ choice.next := by
  have falls : ∀ (rest : List TrafficTierPolicy) (chosen : Option TrafficBucketChoice),
      chosenStart (rest.foldl (fun chosen policy =>
        earlierTrafficBucket chosen (policy.candidate toSecs asOf stop cursor)) chosen) ≤
        chosenStart chosen := by
    intro rest
    induction rest with
    | nil => exact fun chosen => le_rfl
    | cons first rest ih =>
        exact fun chosen => (ih _).trans (chosenStart_earlierTrafficBucket_le _ _)
  have reaches : chosenStart (chooseTrafficBucket policies toSecs asOf stop cursor) ≤ choice.next := by
    rcases List.append_of_mem mem with ⟨before, rest, rfl⟩
    rw [chooseTrafficBucket, List.foldl_append, List.foldl_cons, offered]
    exact (falls rest _).trans (chosenStart_earlierTrafficBucket_some_le _)
  cases chosen : chooseTrafficBucket policies toSecs asOf stop cursor with
  | none =>
      rw [chosen] at reaches
      exact absurd reaches small.not_ge
  | some found =>
      rw [chosen] at reaches
      exact ⟨found, rfl, reaches⟩

end Candidates

section Windows

variable {windows : List TrafficWindow} {choice : TrafficBucketChoice}

theorem covered_cons {window : TrafficWindow} {t : ℤ} :
    Covered (window :: windows) t ↔
      window.fromSecs ≤ t ∧ t < window.toSecs ∨ Covered windows t := by
  simp [Covered]

/-- A new bucket adds its moments. -/
theorem covered_addWindow (ahead : choice.next < choice.bucketEnd)
    (proper : ∀ window ∈ windows, window.fromSecs < window.toSecs) (t : ℤ) :
    Covered (TrafficPlan.addWindow choice windows) t ↔
      Covered windows t ∨ choice.next ≤ t ∧ t < choice.bucketEnd := by
  cases windows with
  | nil => simp [TrafficPlan.addWindow, Covered]
  | cons last earlier =>
      have lastProper := proper last List.mem_cons_self
      simp only [TrafficPlan.addWindow]
      split
      · rename_i continues
        rw [covered_cons, covered_cons]
        constructor
        · rintro (⟨after, before⟩ | old)
          · by_cases inside : t < last.toSecs
            · exact .inl (.inl ⟨after, inside⟩)
            · exact .inr ⟨continues.2 ▸ not_lt.mp inside, before⟩
          · exact .inl (.inr old)
        · rintro ((⟨after, before⟩ | old) | ⟨after, before⟩)
          · exact .inl ⟨after, before.trans (continues.2 ▸ ahead)⟩
          · exact .inr old
          · exact .inl ⟨lastProper.le.trans (continues.2 ▸ after), before⟩
      · rw [covered_cons]
        exact or_comm

theorem head?_addWindow : ((TrafficPlan.addWindow choice windows).head?.map (·.toSecs)) =
    some choice.bucketEnd := by
  cases windows with
  | nil => rfl
  | cons last earlier =>
      simp only [TrafficPlan.addWindow]
      split <;> rfl

theorem getLast?_addWindow : ((TrafficPlan.addWindow choice windows).getLast?.map (·.fromSecs)) =
    some ((windows.getLast?.map (·.fromSecs)).getD choice.next) := by
  cases windows with
  | nil => rfl
  | cons last earlier =>
      simp only [TrafficPlan.addWindow]
      split
      · cases earlier <;> simp [List.getLast?_cons]
      · simp [List.getLast?_cons]

end Windows

section Loop

variable {tiers : TrafficTiers} {fromSecs toSecs asOf stop cursor : ℤ} {plan : TrafficPlan}
  {choice : TrafficBucketChoice}

/-- Where a plan can stand: at its ends, or where a retained bucket has ended. -/
def Reachable (tiers : TrafficTiers) (fromSecs asOf stop cursor : ℤ) : Prop :=
  cursor = fromSecs ∨ cursor = stop ∨ ∃ policy ∈ tiers.policies, 0 < policy.retentionSecs ∧
    policy.widthSecs ∣ cursor ∧ asOf - policy.retentionSecs ≤ cursor ∧
    fromSecs ≤ cursor

/-- An available moment is not before the next choice. -/
theorem exists_chosen_of_available (valid : ValidTrafficTiers tiers.policies)
    (lower : minInt64 ≤ cursor) (upper : min toSecs asOf ≤ maxInt64)
    (reachable : Reachable tiers fromSecs asOf (min toSecs asOf) cursor) {t : ℤ} (after : cursor ≤ t)
    (available : Available tiers.policies fromSecs toSecs asOf t) :
    ∃ choice, chooseTrafficBucket tiers.policies toSecs asOf (min toSecs asOf) cursor = some choice ∧
      choice.next ≤ t := by
  rcases available with ⟨policy, mem, start, readable, startLe, within, before⟩
  have found : ∃ tier ∈ tiers.policies, ∃ bucket, cursor ≤ bucket ∧ bucket ≤ t ∧
      0 < tier.retentionSecs ∧ tier.widthSecs ∣ bucket ∧ asOf - tier.retentionSecs ≤ bucket ∧
      (bucket + tier.widthSecs ≤ min toSecs asOf ∨ asOf ≤ toSecs) := by
    by_cases ahead : cursor ≤ start
    · exact ⟨policy, mem, start, ahead, startLe, readable.retained, readable.aligned,
        readable.cutoff_le, readable.complete⟩
    · -- The cursor lies in the bucket, so the tier that has brought it there is finer.
      rcases reachable with same | same | ⟨finer, finerMem, retained, aligned, cutoffLe, -⟩
      · have := readable.from_le
        omega
      · omega
      · have notCoarser : ¬policy.widthSecs ∣ cursor := by
          intro divides
          have offset : policy.widthSecs ∣ cursor - start := Int.dvd_sub divides readable.aligned
          have := Int.le_of_dvd (by omega) offset
          omega
        have smaller : finer.widthSecs ≤ policy.widthSecs := by
          by_contra greater
          exact notCoarser ((valid.divides policy mem finer finerMem (by omega)).trans aligned)
        have divides := valid.divides finer finerMem policy mem smaller
        have rest : finer.widthSecs ∣ start + policy.widthSecs - cursor :=
          Int.dvd_sub (Int.dvd_add (divides.trans readable.aligned) divides) aligned
        have fits := Int.le_of_dvd (by omega) rest
        refine ⟨finer, finerMem, cursor, le_rfl, after, retained, aligned, cutoffLe, ?_⟩
        rcases readable.complete with whole | open_
        · exact .inl (by omega)
        · exact .inr open_
  rcases found with ⟨tier, tierMem, bucket, ahead, le, retained, aligned, cutoffLe, complete⟩
  rcases TrafficTierPolicy.exists_candidate (valid.positive tier tierMem) retained aligned ahead
    cutoffLe (le.trans_lt before) complete lower upper with ⟨offered, isOffered, offeredLe⟩
  rcases exists_chosen_of_candidate tierMem isOffered (by omega) with ⟨chosen, isChosen, chosenLe⟩
  exact ⟨chosen, isChosen, chosenLe.trans (offeredLe.trans le)⟩

/-- A chosen bucket is readable. -/
theorem readable_of_offers {policy : TrafficTierPolicy} (valid : ValidTrafficTiers tiers.policies)
    (mem : policy ∈ tiers.policies) (toRange : InInt64 toSecs) (asOfRange : InInt64 asOf)
    (fromLe : fromSecs ≤ cursor)
    (offers : policy.Offers toSecs asOf (min toSecs asOf) cursor choice) :
    policy.Readable fromSecs toSecs asOf choice.next where
  retained := lt_of_le_of_ne (valid.retention policy mem) offers.retained.symm
  aligned := offers.aligned
  from_le := fromLe.trans offers.cursor_le
  cutoff_le := offers.cutoff_le
  complete := by
    have complete := offers.complete
    simp only [TrafficTierPolicy.finish] at complete
    rcases toRange with ⟨-, toLe⟩
    rcases asOfRange with ⟨-, asOfLe⟩
    by_cases whole : choice.next + policy.widthSecs ≤ min toSecs asOf
    · exact .inl whole
    · right
      split at complete <;> omega

/-- What the loop has done when it stands at a cursor. -/
structure LoopCovers (tiers : TrafficTiers) (fromSecs toSecs asOf cursor : ℤ) (plan : TrafficPlan) :
    Prop where
  covered : ∀ t, Covered plan.windows t ↔ Available tiers.policies fromSecs toSecs asOf t ∧ t < cursor
  tiled : plan.coverage.boundaryPartial = false ↔
    ∀ t, fromSecs ≤ t → t < cursor → Covered plan.windows t
  proper : ∀ window ∈ plan.windows, window.fromSecs < window.toSecs
  first : plan.coverage.coveredFromEpochSecs = plan.windows.getLast?.map (·.fromSecs)
  last : plan.coverage.coveredToEpochSecs = plan.windows.head?.map (·.toSecs)
  asOf_eq : plan.coverage.asOfEpochSecs = asOf

theorem LoopCovers.proper_addWindow (covers : LoopCovers tiers fromSecs toSecs asOf cursor plan)
    (ahead : choice.next < choice.bucketEnd) :
    ∀ window ∈ TrafficPlan.addWindow choice plan.windows, window.fromSecs < window.toSecs := by
  have proper := covers.proper
  cases isPlan : plan.windows with
  | nil => simpa [TrafficPlan.addWindow] using ahead
  | cons last earlier =>
      rw [isPlan] at proper
      rcases List.forall_mem_cons.mp proper with ⟨lastProper, others⟩
      simp only [TrafficPlan.addWindow]
      split
      · rename_i continues
        exact List.forall_mem_cons.mpr ⟨lastProper.trans (continues.2 ▸ ahead), others⟩
      · exact List.forall_mem_cons.mpr ⟨ahead, proper⟩

theorem LoopCovers.extend (covers : LoopCovers tiers fromSecs toSecs asOf cursor plan)
    (valid : ValidTrafficTiers tiers.policies) (toRange : InInt64 toSecs) (asOfRange : InInt64 asOf)
    (lower : minInt64 ≤ cursor) (fromLe : fromSecs ≤ cursor)
    (reachable : Reachable tiers fromSecs asOf (min toSecs asOf) cursor)
    (chosen : chooseTrafficBucket tiers.policies toSecs asOf (min toSecs asOf) cursor = some choice)
    {policy : TrafficTierPolicy} (mem : policy ∈ tiers.policies)
    (offers : policy.Offers toSecs asOf (min toSecs asOf) cursor choice)
    (ahead : choice.next < choice.bucketEnd) :
    LoopCovers tiers fromSecs toSecs asOf choice.bucketEnd (plan.extend cursor choice) := by
  have upper : min toSecs asOf ≤ maxInt64 := (min_le_left _ _).trans toRange.2
  have cursorLe := offers.cursor_le
  have added := covered_addWindow ahead covers.proper
  have isAvailable : ∀ t, choice.next ≤ t → t < choice.bucketEnd →
      Available tiers.policies fromSecs toSecs asOf t := by
    intro t after before
    rw [offers.bucketEnd, lt_min_iff] at before
    refine ⟨policy, mem, choice.next, readable_of_offers valid mem toRange asOfRange fromLe offers,
      after, ?_, before.2⟩
    have finish := before.1
    simp only [TrafficTierPolicy.finish] at finish
    split at finish <;> omega
  refine ⟨?_, ?_, covers.proper_addWindow ahead, ?_, ?_, covers.asOf_eq⟩
  · intro t
    simp only [TrafficPlan.extend]
    rw [added, covers.covered]
    constructor
    · rintro (⟨available, before⟩ | ⟨after, before⟩)
      · exact ⟨available, by omega⟩
      · exact ⟨isAvailable t after before, before⟩
    · rintro ⟨available, before⟩
      by_cases old : t < cursor
      · exact .inl ⟨available, old⟩
      · rcases exists_chosen_of_available valid lower upper reachable (not_lt.mp old) available
          with ⟨found, isFound, le⟩
        rw [chosen] at isFound
        cases isFound
        exact .inr ⟨le, before⟩
  · simp only [TrafficPlan.extend, Bool.or_eq_false_iff, decide_eq_false_iff_not, covers.tiled]
    constructor
    · rintro ⟨old, noGap⟩ t fromT before
      rw [added]
      by_cases isOld : t < cursor
      · exact .inl (old t fromT isOld)
      · exact .inr ⟨by omega, before⟩
    · intro all
      constructor
      · intro t fromT before
        rcases (added t).mp (all t fromT (by omega)) with old | new
        · exact old
        · omega
      · intro gap
        rcases (added cursor).mp (all cursor fromLe (by omega)) with old | new
        · exact absurd ((covers.covered cursor).mp old).2 (lt_irrefl cursor)
        · omega
  · simp only [TrafficPlan.extend]
    rw [getLast?_addWindow, covers.first]
  · simp only [TrafficPlan.extend]
    rw [head?_addWindow]

/-- After a bucket the cursor is at an end of the plan or at the start of the next bucket. -/
theorem reachable_of_offers {policy : TrafficTierPolicy} (valid : ValidTrafficTiers tiers.policies)
    (mem : policy ∈ tiers.policies) (toRange : InInt64 toSecs) (fromLe : fromSecs ≤ cursor)
    (offers : policy.Offers toSecs asOf (min toSecs asOf) cursor choice) :
    Reachable tiers fromSecs asOf (min toSecs asOf) choice.bucketEnd := by
  have bucketEnd := offers.bucketEnd
  have cursorLe := offers.cursor_le
  have cutoffLe := offers.cutoff_le
  have positive := valid.positive policy mem
  have upper : min toSecs asOf ≤ maxInt64 := (min_le_left _ _).trans toRange.2
  by_cases whole : choice.next + policy.widthSecs ≤ min toSecs asOf
  · have ended : choice.bucketEnd = choice.next + policy.widthSecs := by
      rw [bucketEnd, TrafficTierPolicy.finish, if_pos (by omega), min_eq_left whole]
    rw [ended]
    refine .inr (.inr ⟨policy, mem, ?_, Int.dvd_add offers.aligned dvd_rfl, by omega, by omega⟩)
    exact lt_of_le_of_ne (valid.retention policy mem) offers.retained.symm
  · right
    left
    rw [bucketEnd, TrafficTierPolicy.finish]
    split <;> omega

/-- The windows that the loop finds cover what is available. -/
theorem planTrafficLoop_covers (valid : ValidTrafficTiers tiers.policies)
    (toRange : InInt64 toSecs) (asOfRange : InInt64 asOf)
    (isStop : stop = min toSecs asOf) (lower : minInt64 ≤ fromSecs) (fromLe : fromSecs ≤ cursor)
    (before : cursor ≤ stop) (reachable : Reachable tiers fromSecs asOf stop cursor)
    (covers : LoopCovers tiers fromSecs toSecs asOf cursor plan) :
    LoopCovers tiers fromSecs toSecs asOf stop (planTrafficLoop tiers toSecs asOf stop cursor plan) := by
  subst isStop
  have upper : min toSecs asOf ≤ maxInt64 := (min_le_left _ _).trans toRange.2
  fun_induction planTrafficLoop tiers toSecs asOf (min toSecs asOf) cursor plan with
  | case1 cursor plan ahead noChoice =>
      have nothing : ∀ t, cursor ≤ t → ¬Available tiers.policies fromSecs toSecs asOf t := by
        intro t after available
        rcases exists_chosen_of_available valid (lower.trans fromLe) upper reachable after available
          with ⟨choice, chosen, -⟩
        rw [noChoice] at chosen
        cases chosen
      refine ⟨?_, ?_, covers.proper, covers.first, covers.last, covers.asOf_eq⟩
      · intro t
        rw [covers.covered]
        constructor
        · rintro ⟨available, less⟩
          exact ⟨available, less.trans ahead⟩
        · rintro ⟨available, -⟩
          exact ⟨available, not_le.mp fun after => nothing t after available⟩
      · simp only [Bool.true_eq_false, false_iff]
        intro all
        exact absurd ((covers.covered cursor).mp (all cursor fromLe ahead)).2 (lt_irrefl cursor)
  | case2 cursor plan ahead choice chosen ih =>
      rcases exists_offers_of_chosen tiers chosen with ⟨policy, mem, offers, forward⟩
      have cursorLe := offers.cursor_le
      have extended := covers.extend valid toRange asOfRange (lower.trans fromLe) fromLe reachable
        chosen mem offers forward
      have withinStop : choice.bucketEnd ≤ min toSecs asOf := by
        rw [offers.bucketEnd]
        exact min_le_right _ _
      have onward := reachable_of_offers valid mem toRange fromLe offers
      apply ih <;> first | assumption | omega
  | case3 cursor plan ended =>
      have same : cursor = min toSecs asOf := le_antisymm before (not_lt.mp ended)
      rw [← same]
      exact covers

end Loop

section Machine

/-- `ceilTrafficBoundary` with 64 bits. -/
def ceilTrafficBoundary64 (ts width : ℤ) : Option ℤ :=
  let remainder := ts.tmod width
  if remainder = 0 then some ts
  else if remainder < 0 then some (wrapInt64 (ts - remainder))
  else
    let delta := wrapInt64 (width - remainder)
    if ts > wrapInt64 (maxInt64 - delta) then none else some (wrapInt64 (ts + delta))

def TrafficTierPolicy.finish64 (policy : TrafficTierPolicy) (start : ℤ) : ℤ :=
  if start ≤ wrapInt64 (maxInt64 - policy.widthSecs) then wrapInt64 (start + policy.widthSecs)
  else maxInt64

def TrafficTierPolicy.candidate64 (policy : TrafficTierPolicy) (toSecs asOf stop cursor : ℤ) :
    Option TrafficBucketChoice :=
  if policy.retentionSecs = 0 then none
  else
    let cutoff :=
      if asOf ≥ wrapInt64 (minInt64 + policy.retentionSecs) then
        wrapInt64 (asOf - policy.retentionSecs)
      else minInt64
    match ceilTrafficBoundary64 (max cursor cutoff) policy.widthSecs with
    | none => none
    | some start =>
        if start ≥ stop then none
        else if policy.finish64 start > stop ∧ toSecs < asOf then none
        else some ⟨policy.tier, start, min (policy.finish64 start) stop⟩

def chooseTrafficBucket64 (policies : List TrafficTierPolicy) (toSecs asOf stop cursor : ℤ) :
    Option TrafficBucketChoice :=
  policies.foldl (fun chosen policy =>
    earlierTrafficBucket chosen (policy.candidate64 toSecs asOf stop cursor)) none

/-- The loop of `PlanTrafficWindows` with 64 bits, for a number of rounds. -/
def planTrafficLoop64 (policies : List TrafficTierPolicy) (toSecs asOf stop : ℤ) :
    ℕ → ℤ → TrafficPlan → Option TrafficPlan
  | 0, cursor, plan => if cursor < stop then none else some plan
  | rounds + 1, cursor, plan =>
      if cursor < stop then
        match chooseTrafficBucket64 policies toSecs asOf stop cursor with
        | none => some { plan with coverage := { plan.coverage with boundaryPartial := true } }
        | some choice =>
            planTrafficLoop64 policies toSecs asOf stop rounds choice.bucketEnd
              (plan.extend cursor choice)
      else some plan

/-- `PlanTrafficWindows` with 64 bits; without enough rounds there is no answer. -/
def planTrafficWindows64 (rounds : ℕ) (fromSecs toSecs asOf : ℤ) (tiers : List TrafficTierPolicy) :
    Option (Except TrafficPlanError (List TrafficWindow × TrafficCoverage)) :=
  if fromSecs > toSecs then some (.error .rangeReversed)
  else match TrafficTiers.ofList tiers with
    | none => some (.error .invalidTierPolicy)
    | some tiers =>
        let stop := min toSecs asOf
        if fromSecs ≥ stop then some (.ok ([], ⟨asOf, decide (fromSecs < toSecs), none, none⟩))
        else
          (planTrafficLoop64 tiers.policies toSecs asOf stop rounds fromSecs
            ⟨[], ⟨asOf, false, none, none⟩⟩).map fun plan =>
              .ok (plan.windows.reverse, { plan.coverage with
                boundaryPartial := plan.coverage.boundaryPartial || decide (toSecs > asOf) })

variable {policy : TrafficTierPolicy} {tiers : TrafficTiers} {toSecs asOf stop cursor ts width : ℤ}

theorem ceilTrafficBoundary64_eq (tsRange : InInt64 ts) (positive : 0 < width)
    (widthRange : InInt64 width) :
    ceilTrafficBoundary64 ts width = ceilTrafficBoundary ts width := by
  have lower := Int.lt_tmod_of_pos ts positive
  have upper := Int.tmod_lt_of_pos ts positive
  rcases tsRange with ⟨tsLower, tsUpper⟩
  rcases widthRange with ⟨-, widthUpper⟩
  simp only [ceilTrafficBoundary64, ceilTrafficBoundary]
  split
  · rfl
  · split
    · rename_i negative
      -- A negative remainder belongs to a negative dividend, and is not greater in size.
      have tsNegative : ts < 0 := by
        by_contra nonnegative
        exact absurd (Int.tmod_nonneg width (not_lt.mp nonnegative)) negative.not_ge
      rw [wrapInt64_of_range (by omega)]
      have whole : ts - ts.tmod width ≤ 0 := by
        have split := Int.mul_tdiv_add_tmod ts width
        have quotient := Int.tdiv_nonneg (show 0 ≤ -ts by omega) positive.le
        rw [Int.neg_tdiv] at quotient
        have := mul_nonpos_of_nonneg_of_nonpos positive.le (show ts.tdiv width ≤ 0 by omega)
        omega
      exact whole.trans maxInt64_nonneg
    · rename_i nonzero nonnegative
      have delta : wrapInt64 (width - ts.tmod width) = width - ts.tmod width :=
        wrapInt64_of_range (by simp only [minInt64]; omega) (by omega)
      have room : wrapInt64 (maxInt64 - (width - ts.tmod width)) =
          maxInt64 - (width - ts.tmod width) :=
        wrapInt64_of_range (by simp only [minInt64, maxInt64] at *; omega) (by omega)
      rw [delta, room]
      split
      · rfl
      · rw [wrapInt64_of_range (by omega) (by omega)]

theorem finish64_eq {start : ℤ} (startRange : InInt64 start) (positive : 0 < policy.widthSecs)
    (widthRange : InInt64 policy.widthSecs) : policy.finish64 start = policy.finish start := by
  rcases startRange with ⟨lower, -⟩
  rcases widthRange with ⟨-, upper⟩
  have room : wrapInt64 (maxInt64 - policy.widthSecs) = maxInt64 - policy.widthSecs :=
    wrapInt64_of_range (by simp only [minInt64]; omega) (by omega)
  rw [TrafficTierPolicy.finish64, TrafficTierPolicy.finish, room]
  split
  · rw [wrapInt64_of_range (by omega) (by omega)]
  · rfl

/-- The values of a tier fit into 64 bits. -/
structure TrafficTierPolicy.Fits (policy : TrafficTierPolicy) : Prop where
  width : InInt64 policy.widthSecs
  retention : InInt64 policy.retentionSecs

theorem candidate64_eq (fits : policy.Fits) (positive : 0 < policy.widthSecs)
    (retained : 0 ≤ policy.retentionSecs) (asOfRange : InInt64 asOf) (cursorRange : InInt64 cursor)
    (stopRange : InInt64 stop) :
    policy.candidate64 toSecs asOf stop cursor = policy.candidate toSecs asOf stop cursor := by
  have least : wrapInt64 (minInt64 + policy.retentionSecs) = minInt64 + policy.retentionSecs :=
    wrapInt64_of_range (by omega) (by
      have := fits.retention.2
      simp only [minInt64, maxInt64] at *
      omega)
  have cutoffEq : (if asOf ≥ wrapInt64 (minInt64 + policy.retentionSecs) then
      wrapInt64 (asOf - policy.retentionSecs) else minInt64) =
      if asOf ≥ minInt64 + policy.retentionSecs then asOf - policy.retentionSecs else minInt64 := by
    rw [least]
    split
    · rw [wrapInt64_of_range (by omega) (by have := asOfRange.2; omega)]
    · rfl
  simp only [TrafficTierPolicy.candidate64, TrafficTierPolicy.candidate, cutoffEq]
  split
  · rfl
  · generalize isCutoff : (if asOf ≥ minInt64 + policy.retentionSecs then
      asOf - policy.retentionSecs else minInt64) = cutoff
    have inside : InInt64 (max cursor cutoff) := by
      refine ⟨cursorRange.1.trans (le_max_left _ _), max_le cursorRange.2 ?_⟩
      have := asOfRange.2
      rw [← isCutoff]
      split
      · omega
      · decide
    rw [ceilTrafficBoundary64_eq inside positive fits.width]
    cases found : ceilTrafficBoundary (max cursor cutoff) policy.widthSecs with
    | none => rfl
    | some start =>
        have after := (ceilTrafficBoundary_spec positive found).2.1
        simp only
        split
        · rfl
        · rename_i before
          have startRange : InInt64 start := by
            have := stopRange.2
            exact ⟨inside.1.trans after, by omega⟩
          rw [finish64_eq startRange positive fits.width]

theorem chooseTrafficBucket64_eq {policies : List TrafficTierPolicy}
    (fits : ∀ policy ∈ policies, policy.Fits)
    (positive : ∀ policy ∈ policies, 0 < policy.widthSecs)
    (retained : ∀ policy ∈ policies, 0 ≤ policy.retentionSecs) (asOfRange : InInt64 asOf)
    (cursorRange : InInt64 cursor) (stopRange : InInt64 stop) :
    chooseTrafficBucket64 policies toSecs asOf stop cursor =
      chooseTrafficBucket policies toSecs asOf stop cursor := by
  rw [chooseTrafficBucket64, chooseTrafficBucket]
  apply List.foldl_ext
  intro chosen policy mem
  rw [candidate64_eq (fits policy mem) (positive policy mem) (retained policy mem) asOfRange
    cursorRange stopRange]

/-- The loop ends and nothing in it overflows. -/
theorem planTrafficLoop64_eq (fits : ∀ policy ∈ tiers.policies, policy.Fits)
    (retained : ∀ policy ∈ tiers.policies, 0 ≤ policy.retentionSecs) (asOfRange : InInt64 asOf)
    (stopRange : InInt64 stop) (cursorRange : InInt64 cursor) {rounds : ℕ}
    (enough : (stop - cursor).toNat ≤ rounds) (plan : TrafficPlan) :
    planTrafficLoop64 tiers.policies toSecs asOf stop rounds cursor plan =
      some (planTrafficLoop tiers toSecs asOf stop cursor plan) := by
  have positive : ∀ policy ∈ tiers.policies, 0 < policy.widthSecs := fun policy mem =>
    tiers.width_pos mem
  induction rounds generalizing cursor plan with
  | zero =>
      have ended : ¬cursor < stop := by omega
      rw [planTrafficLoop64, planTrafficLoop, if_neg ended, if_neg ended]
  | succ rounds ih =>
      rw [planTrafficLoop64, planTrafficLoop]
      split
      · rename_i ahead
        rw [chooseTrafficBucket64_eq fits positive retained asOfRange cursorRange stopRange]
        cases chosen : chooseTrafficBucket tiers.policies toSecs asOf stop cursor with
        | none => rfl
        | some choice =>
            rcases exists_offers_of_chosen tiers chosen with ⟨policy, mem, offers, forward⟩
            have cursorLe := offers.cursor_le
            have endLe : choice.bucketEnd ≤ stop := by
              rw [offers.bucketEnd]
              exact min_le_right _ _
            have := cursorRange.1
            exact ih ⟨by omega, endLe.trans stopRange.2⟩ (by omega) _
      · rfl

end Machine

section Plan

variable {policies : List TrafficTierPolicy} {tiers : TrafficTiers}

/-- Sorted tiers that divide each other pass the checks. -/
theorem validTrafficTiers_of_sorted {seen : List MetricTier} {previous : Option ℤ}
    (sorted : policies.Pairwise fun left right => left.widthSecs < right.widthSecs)
    (valid : ValidTrafficTiers policies) (fresh : ∀ policy ∈ policies, policy.tier ∉ seen)
    (follows : ∀ width ∈ previous, ∀ policy ∈ policies,
      width < policy.widthSecs ∧ width ∣ policy.widthSecs) :
    validTrafficTiers seen previous policies = true := by
  induction policies generalizing seen previous with
  | nil => rfl
  | cons first rest ih =>
      rcases List.pairwise_cons.mp sorted with ⟨least, restSorted⟩
      have distinct := valid.distinct
      rw [List.map_cons, List.nodup_cons] at distinct
      have restValid : ValidTrafficTiers rest :=
        { distinct := distinct.2
          widths := (List.nodup_cons.mp valid.widths).2
          positive := fun policy mem => valid.positive policy (List.mem_cons_of_mem _ mem)
          retention := fun policy mem => valid.retention policy (List.mem_cons_of_mem _ mem)
          divides := fun policy mem other otherMem => valid.divides policy
            (List.mem_cons_of_mem _ mem) other (List.mem_cons_of_mem _ otherMem) }
      have after : validTrafficTiers (first.tier :: seen) (some first.widthSecs) rest = true := by
        apply ih restSorted restValid
        · intro policy mem isSeen
          rcases List.mem_cons.mp isSeen with same | isSeen
          · exact distinct.1 (List.mem_map.mpr ⟨policy, mem, same⟩)
          · exact fresh policy (List.mem_cons_of_mem _ mem) isSeen
        · rintro width ⟨⟩ policy mem
          exact ⟨least policy mem, valid.divides first List.mem_cons_self policy
            (List.mem_cons_of_mem _ mem) (least policy mem).le⟩
      have stepOk : previous.all (fun width =>
          decide (first.widthSecs ≠ width ∧ first.widthSecs.tmod width = 0)) = true := by
        cases previous with
        | none => rfl
        | some width =>
            have known := follows width rfl first List.mem_cons_self
            simpa using ⟨known.1.ne', Int.tmod_eq_zero_of_dvd known.2⟩
      simp only [validTrafficTiers, Bool.and_eq_true, decide_eq_true_eq]
      exact ⟨⟨⟨⟨valid.positive first List.mem_cons_self, valid.retention first List.mem_cons_self⟩,
        fresh first List.mem_cons_self⟩, stepOk⟩, after⟩

theorem ValidTrafficTiers.perm {others : List TrafficTierPolicy} (valid : ValidTrafficTiers policies)
    (perm : others.Perm policies) : ValidTrafficTiers others where
  distinct := (perm.map _).nodup_iff.mpr valid.distinct
  widths := (perm.map _).nodup_iff.mpr valid.widths
  positive := fun policy mem => valid.positive policy (perm.mem_iff.mp mem)
  retention := fun policy mem => valid.retention policy (perm.mem_iff.mp mem)
  divides := fun policy mem other otherMem =>
    valid.divides policy (perm.mem_iff.mp mem) other (perm.mem_iff.mp otherMem)

/-- Valid tiers are accepted in any order. -/
theorem exists_ofList (valid : ValidTrafficTiers policies) : ∃ tiers : TrafficTiers,
    TrafficTiers.ofList policies = some tiers ∧ tiers.policies.Perm policies := by
  have perm := (Sorter.stable TrafficTierPolicy.widthSecs).perm policies
  have sorted := (Sorter.stable TrafficTierPolicy.widthSecs).pairwise_lt_sort valid.widths
  have accepted := @validTrafficTiers_of_sorted _ [] none sorted (valid.perm perm) (by simp) (by simp)
  exact ⟨⟨_, accepted⟩, by simp [TrafficTiers.ofList, accepted], perm⟩

/-- What a plan says: its windows and what they cover. -/
structure PlanExact (policies : List TrafficTierPolicy) (fromSecs toSecs asOf : ℤ)
    (windows : List TrafficWindow) (coverage : TrafficCoverage) : Prop where
  planned : ∀ window ∈ windows, window.fromSecs < window.toSecs ∧
    ∃ policy ∈ policies, window.tier = policy.tier ∧ policy.widthSecs ∣ window.fromSecs ∧
      (policy.widthSecs ∣ window.toSecs ∨ window.toSecs = min toSecs asOf ∧ asOf ≤ toSecs)
  ordered : windows.Pairwise fun earlier later => earlier.toSecs ≤ later.fromSecs
  covered : ∀ t, Covered windows t ↔ Available policies fromSecs toSecs asOf t
  tiled : coverage.boundaryPartial = false ↔
    ∀ t, Covered windows t ↔ fromSecs ≤ t ∧ t < toSecs
  first : coverage.coveredFromEpochSecs = windows.head?.map (·.fromSecs)
  last : coverage.coveredToEpochSecs = windows.getLast?.map (·.toSecs)
  asOf_eq : coverage.asOfEpochSecs = asOf

theorem available_perm {others : List TrafficTierPolicy} (perm : others.Perm policies)
    {fromSecs toSecs asOf t : ℤ} :
    Available others fromSecs toSecs asOf t ↔ Available policies fromSecs toSecs asOf t := by
  simp only [Available, perm.mem_iff]

theorem from_le_of_available {fromSecs toSecs asOf t : ℤ}
    (available : Available policies fromSecs toSecs asOf t) :
    fromSecs ≤ t ∧ t < min toSecs asOf := by
  rcases available with ⟨policy, -, start, readable, startLe, -, before⟩
  exact ⟨readable.from_le.trans startLe, before⟩

/-- With an end before its start nothing is available. -/
theorem planExact_empty {fromSecs toSecs asOf : ℤ} (ordered : fromSecs ≤ toSecs)
    (ended : min toSecs asOf ≤ fromSecs) :
    PlanExact policies fromSecs toSecs asOf [] ⟨asOf, decide (fromSecs < toSecs), none, none⟩ where
  planned := by simp
  ordered := .nil
  covered := by
    intro t
    simp only [Covered, List.not_mem_nil, false_and, exists_false, false_iff]
    intro available
    have := from_le_of_available available
    omega
  tiled := by
    simp only [Covered, List.not_mem_nil, false_and, exists_false, false_iff, decide_eq_false_iff_not]
    constructor
    · intro none t inside
      omega
    · intro nothing some
      exact nothing fromSecs ⟨le_rfl, some⟩
  first := rfl
  last := rfl
  asOf_eq := rfl

theorem planExact_loop {fromSecs toSecs asOf : ℤ} (valid : ValidTrafficTiers tiers.policies)
    (perm : tiers.policies.Perm policies) (fromRange : InInt64 fromSecs) (toRange : InInt64 toSecs)
    (asOfRange : InInt64 asOf) (ahead : fromSecs < min toSecs asOf) {plan : TrafficPlan}
    (isPlan : planTrafficLoop tiers toSecs asOf (min toSecs asOf) fromSecs
      ⟨[], ⟨asOf, false, none, none⟩⟩ = plan) :
    PlanExact policies fromSecs toSecs asOf plan.windows.reverse
      { plan.coverage with
        boundaryPartial := plan.coverage.boundaryPartial || decide (toSecs > asOf) } := by
  have initial : LoopCovers tiers fromSecs toSecs asOf fromSecs
      ⟨[], ⟨asOf, false, none, none⟩⟩ :=
    { covered := by
        intro t
        simp only [Covered, List.not_mem_nil, false_and, exists_false, false_iff, not_and, not_lt]
        exact fun available => (from_le_of_available available).1
      tiled := by
        simp only [true_iff]
        intro t after before
        omega
      proper := by simp
      first := rfl
      last := rfl
      asOf_eq := rfl }
  have covers := planTrafficLoop_covers valid toRange asOfRange rfl fromRange.1 le_rfl ahead.le
    (.inl rfl) initial
  have planned := @planTrafficLoop_planned tiers toSecs asOf _ _ ⟨[], ⟨asOf, false, none, none⟩⟩
    asOfRange.2 rfl ahead.le ⟨by simp, by simp, by simp⟩
  rw [isPlan] at covers planned
  have reversed : ∀ t, Covered plan.windows.reverse t ↔ Covered plan.windows t := by
    simp [Covered]
  have covered : ∀ t, Covered plan.windows t ↔ Available policies fromSecs toSecs asOf t := by
    intro t
    rw [covers.covered, available_perm perm]
    exact ⟨And.left, fun available => ⟨available, (from_le_of_available available).2⟩⟩
  refine ⟨?_, ?_, ?_, ?_, ?_, ?_, covers.asOf_eq⟩
  · intro window mem
    rcases planned.planned window (List.mem_reverse.mp mem) with ⟨policy, isPlanned⟩
    exact ⟨isPlanned.lt, policy, perm.mem_iff.mp isPlanned.mem, isPlanned.tier, isPlanned.aligned,
      isPlanned.complete⟩
  · exact List.pairwise_reverse.mpr planned.ordered
  · intro t
    rw [reversed, covered]
  · simp only [Bool.or_eq_false_iff, decide_eq_false_iff_not, covers.tiled]
    constructor
    · rintro ⟨all, elapsed⟩ t
      rw [reversed]
      constructor
      · intro isCovered
        have := from_le_of_available ((covered t).mp isCovered)
        omega
      · rintro ⟨after, before⟩
        exact all t after (by omega)
    · intro exactly
      have elapsed : toSecs ≤ asOf := by
        by_contra open_
        have := (covered asOf).mp ((reversed asOf).mp ((exactly asOf).mpr (by omega)))
        have := (from_le_of_available this).2
        omega
      refine ⟨?_, by omega⟩
      intro t after before
      exact (reversed t).mp ((exactly t).mpr (by omega))
  · rw [List.head?_reverse]
    exact covers.first
  · rw [List.getLast?_reverse]
    exact covers.last

end Plan

/-- A plan with 64 bits is made after finitely many rounds.  Its windows lie one after the
other on bucket boundaries, and cover exactly what is available. -/
theorem plan_covers_available (fromSecs toSecs asOf : ℤ) (policies : List TrafficTierPolicy)
    (fromRange : InInt64 fromSecs) (toRange : InInt64 toSecs) (asOfRange : InInt64 asOf)
    (fits : ∀ policy ∈ policies, policy.Fits) (ordered : fromSecs ≤ toSecs)
    (valid : ValidTrafficTiers policies) :
    ∃ windows coverage,
      (∀ rounds, (min toSecs asOf - fromSecs).toNat ≤ rounds →
        planTrafficWindows64 rounds fromSecs toSecs asOf policies = some (.ok (windows, coverage))) ∧
      PlanExact policies fromSecs toSecs asOf windows coverage := by
  rcases exists_ofList valid with ⟨tiers, isTiers, perm⟩
  have tiersValid := valid.perm perm
  have stopRange : InInt64 (min toSecs asOf) :=
    ⟨le_min toRange.1 asOfRange.1, (min_le_left _ _).trans toRange.2⟩
  by_cases ahead : fromSecs < min toSecs asOf
  · refine ⟨_, _, ?_, planExact_loop tiersValid perm fromRange toRange asOfRange ahead rfl⟩
    intro rounds enough
    have loop := @planTrafficLoop64_eq tiers toSecs _ _ _ (fun policy mem => fits policy (perm.mem_iff.mp mem))
      tiersValid.retention asOfRange stopRange fromRange rounds enough ⟨[], ⟨asOf, false, none, none⟩⟩
    simp only [planTrafficWindows64, isTiers, if_neg ordered.not_gt, if_neg (not_le.mpr ahead), loop]
    rfl
  · refine ⟨_, _, ?_, planExact_empty ordered (not_lt.mp ahead)⟩
    intro rounds _
    simp only [planTrafficWindows64, isTiers, if_neg ordered.not_gt, if_pos (not_lt.mp ahead)]

def sampleTiers : List TrafficTierPolicy :=
  [⟨.metricTierQuarter, 900, 7200⟩, ⟨.metricTierFive, 300, 1800⟩]

theorem sampleTiers_covered : ∃ windows coverage,
    (∀ rounds, (min 10000 9000 - -5000 : ℤ).toNat ≤ rounds →
      planTrafficWindows64 rounds (-5000) 10000 9000 sampleTiers = some (.ok (windows, coverage))) ∧
    PlanExact sampleTiers (-5000) 10000 9000 windows coverage :=
  plan_covers_available (-5000) 10000 9000 sampleTiers (by decide) (by decide) (by decide)
    (by
      intro policy mem
      rcases List.mem_cons.mp mem with rfl | mem
      · exact ⟨by decide, by decide⟩
      · rw [List.mem_singleton.mp mem]
        exact ⟨by decide, by decide⟩)
    (by decide) ⟨by decide, by decide, by decide, by decide, by decide⟩

end TelemtPanel.Store
