import TelemtPanel.Update.Releases

/-!
# When the newest release is found

The first stable release among the newer ones is the greatest.  It is missed when at least as many
prereleases as are kept come before it.
-/

namespace TelemtPanel.Update

open Library

section

variable (matcher : AssetMatcher) (target : TargetName) (current : Bytes)

/-- A newer release that can be installed. -/
def Usable (release : Release) : Prop :=
  release.draft = false ∧ versionAllowed target release.tag = true ∧
    (matcher release.assets).1.isSome = true ∧ compareVersions release.tag current = .gt

instance (release : Release) : Decidable (Usable matcher target current release) :=
  inferInstanceAs (Decidable (_ ∧ _ ∧ _ ∧ _))

def Eligible (release : Release) : Prop :=
  Usable matcher target current release ∧ release.prerelease = false

instance (release : Release) : Decidable (Eligible matcher target current release) :=
  inferInstanceAs (Decidable (_ ∧ _))

/-- No other eligible release is greater than the version. -/
def Greatest (all : List Release) (version : Bytes) : Prop :=
  ∀ release ∈ all, Eligible matcher target current release →
    compareVersions release.tag version ≠ .gt

/-- The version is the greatest of the eligible releases, or there are none. -/
def Newest (all : List Release) : Option Bytes → Prop
  | none => ∀ release ∈ all, ¬Eligible matcher target current release
  | some version => Greatest matcher target current all version ∧
      ∃ release ∈ all, Eligible matcher target current release ∧ release.tag = version

/-- A prerelease that may be listed before a release. -/
def Ahead (release other : Release) : Prop :=
  Usable matcher target current other ∧ other.prerelease = true ∧
    compareVersions other.tag release.tag ≠ .lt

instance (release other : Release) : Decidable (Ahead matcher target current release other) :=
  inferInstanceAs (Decidable (_ ∧ _ ∧ _))

/-- Fewer prereleases than newer releases are kept may be listed before the greatest one. -/
def Visible (maxNewer : ℤ) (all : List Release) : Prop :=
  maxNewer ≤ 0 ∨ ∀ release ∈ all, Eligible matcher target current release →
    Greatest matcher target current all release.tag →
      ((all.countP fun other => decide (Ahead matcher target current release other) : ℕ) : ℤ) <
        maxNewer

end

variable {matcher : AssetMatcher} {target : TargetName} {current : Bytes} {all : List Release}

/-- An entry describes its release. -/
structure Describes (current : Bytes) (release : Release) (item : Scored) : Prop where
  version : item.view.version = release.tag
  prerelease : item.view.prerelease = release.prerelease
  cmp : item.cmp = compareVersions release.tag current
  newer : item.view.newer = (item.cmp == .gt)

theorem score_describes {release : Release} {item : Scored}
    (scored : score current matcher release = some item) : Describes current release item := by
  unfold score at scored
  split at scored
  · cases scored
  · simp only at scored
    split at scored
    · cases scored
    · cases scored
      exact ⟨rfl, rfl, rfl, rfl⟩

theorem score_of_usable {release : Release} (usable : Usable matcher target current release) :
    ∃ item, score current matcher release = some item := by
  rcases usable with ⟨-, -, asset, newer⟩
  rcases Option.isSome_iff_exists.mp asset with ⟨bin, isBin⟩
  unfold score
  rw [isBin]
  simp only [newer]
  exact ⟨_, rfl⟩

section Sorted

variable (sorter : Sorter Scored.descending)

/-- The newer entries, in the order in which they are listed. -/
def newerItems (matcher : AssetMatcher) (target : TargetName) (current : Bytes)
    (all : List Release) : List Scored :=
  (sorter.sort (((fetch all).filter fun release => versionAllowed target release.tag).filterMap
    (score current matcher))).filter fun item => item.cmp == .gt

theorem latestVersion_eq (limits : Limits) :
    latestVersion limits matcher target current sorter all =
      ((keptNewer limits.maxNewer 0 (newerItems sorter matcher target current all)).find? fun item =>
        !item.view.prerelease).map fun item => item.view.version := by
  unfold latestVersion releasesView buildReleasesView newerItems
  simp only
  rw [find?_pick, Option.map_map]
  · rfl
  · intro item mem
    rw [sorter.mem_sort, List.mem_filterMap] at mem
    rcases mem with ⟨release, -, scored⟩
    exact (score_describes scored).newer

/-- An entry for each usable release. -/
theorem newerItems_perm : (newerItems sorter matcher target current all).Perm
    (all.filterMap fun release =>
      if Usable matcher target current release then score current matcher release else none) := by
  refine ((sorter.perm _).filter _).trans (List.Perm.of_eq ?_)
  unfold fetch
  rw [List.filter_filter, List.filterMap_filter, List.filter_filterMap]
  refine List.filterMap_congr ?_
  intro release _
  by_cases usable : Usable matcher target current release
  · rcases score_of_usable usable with ⟨item, scored⟩
    have describes := score_describes scored
    have isNewer : item.cmp = .gt := describes.cmp.trans usable.2.2.2
    rw [@if_pos _ _ usable, usable.1, usable.2.1, scored]
    simp [isNewer]
  · rw [@if_neg _ _ usable]
    cases scored : score current matcher release with
    | none => simp
    | some item =>
        have describes := score_describes scored
        have asset : (matcher release.assets).1.isSome = true := by
          unfold score at scored
          split at scored
          · cases scored
          · rename_i bin isBin
            rw [isBin]
            rfl
        cases noDraft : release.draft with
        | true => simp
        | false =>
            cases allowed : versionAllowed target release.tag with
            | false => simp
            | true =>
                have older : compareVersions release.tag current ≠ .gt :=
                  fun newer => usable ⟨noDraft, allowed, asset, newer⟩
                simp [describes.cmp, older]

theorem mem_newerItems {item : Scored} : item ∈ newerItems sorter matcher target current all ↔
    ∃ release ∈ all, Usable matcher target current release ∧
      score current matcher release = some item := by
  rw [(newerItems_perm sorter).mem_iff, List.mem_filterMap]
  constructor
  · rintro ⟨release, mem, scored⟩
    split at scored
    · exact ⟨release, mem, ‹_›, scored⟩
    · cases scored
  · rintro ⟨release, mem, usable, scored⟩
    exact ⟨release, mem, by rw [if_pos usable, scored]⟩

theorem pairwise_newerItems : (newerItems sorter matcher target current all).Pairwise
    fun left right => rank right.view.version ≤ rank left.view.version :=
  ((sorter.sorted _).filter _).imp fun le => OrderDual.toDual_le_toDual.mp le

/-- Prereleases that may be listed before a release, counted among the entries. -/
def ahead (release : Release) (item : Scored) : Bool :=
  item.view.prerelease && compareVersions item.view.version release.tag != .lt

theorem countP_newerItems (release : Release) :
    (newerItems sorter matcher target current all).countP (ahead release) =
      all.countP fun other => decide (Ahead matcher target current release other) := by
  rw [(newerItems_perm sorter).countP_eq, List.countP_filterMap]
  refine List.countP_congr ?_
  intro other _
  by_cases usable : Usable matcher target current other
  · rcases score_of_usable usable with ⟨item, scored⟩
    have describes := score_describes scored
    rw [@if_pos _ _ usable, scored, decide_eq_true_eq]
    simp only [Option.map_some, Option.getD_some, ahead, describes.version,
      describes.prerelease, Bool.and_eq_true, bne_iff_ne]
    exact ⟨fun both => ⟨usable, both.1, both.2⟩, fun isAhead => ⟨isAhead.2.1, isAhead.2.2⟩⟩
  · rw [@if_neg _ _ usable, decide_eq_true_eq]
    exact iff_of_false Bool.noConfusion fun isAhead => usable isAhead.1

theorem compareVersions_ne_gt {a b : Bytes} : compareVersions a b ≠ .gt ↔ rank a ≤ rank b := by
  rw [compareVersions_eq_ranked, Ne, ranked_gt_iff, not_lt]

/-- The first stable entry is one of a greatest release. -/
theorem first_stable {before after : List Scored} {item : Scored}
    (split : newerItems sorter matcher target current all = before ++ item :: after)
    (stable : item.view.prerelease = false)
    (pre : ∀ other ∈ before, other.view.prerelease = true) :
    ∃ release ∈ all, Eligible matcher target current release ∧ Describes current release item ∧
      Greatest matcher target current all release.tag := by
  have isItem : item ∈ newerItems sorter matcher target current all := by
    rw [split]
    exact List.mem_append_right _ List.mem_cons_self
  rcases (mem_newerItems sorter).mp isItem with ⟨release, mem, usable, scored⟩
  have describes := score_describes scored
  refine ⟨release, mem, ⟨usable, describes.prerelease.symm.trans stable⟩, describes, ?_⟩
  intro other isOther eligible
  rcases score_of_usable eligible.1 with ⟨entry, isEntry⟩
  have entryDescribes := score_describes isEntry
  have listed := (mem_newerItems sorter).mpr ⟨other, isOther, eligible.1, isEntry⟩
  have sorted := @pairwise_newerItems matcher target current all sorter
  rw [split] at listed sorted
  rw [compareVersions_ne_gt, ← entryDescribes.version, ← describes.version]
  rcases List.mem_append.mp listed with earlier | later
  · have isPre := pre entry earlier
    rw [entryDescribes.prerelease, eligible.2] at isPre
    cases isPre
  · rcases List.mem_cons.mp later with rfl | later
    · exact le_rfl
    · exact List.rel_of_pairwise_cons (List.pairwise_append.mp sorted).2.1 later

theorem newest_of_visible {limits : Limits}
    (visible : Visible matcher target current limits.maxNewer all) :
    Newest matcher target current all
      (latestVersion limits matcher target current sorter all) := by
  rw [latestVersion_eq]
  cases first : (newerItems sorter matcher target current all).find? fun item =>
      !item.view.prerelease with
  | none =>
      have noStable := List.find?_eq_none.mp first
      have noneKept : (keptNewer limits.maxNewer 0
          (newerItems sorter matcher target current all)).find?
            (fun item => !item.view.prerelease) = none := by
        refine List.find?_eq_none.mpr fun item mem => noStable item ?_
        unfold keptNewer at mem
        split at mem
        · exact mem
        · exact List.mem_of_mem_take mem
      rw [noneKept]
      intro release mem eligible
      rcases score_of_usable eligible.1 with ⟨item, scored⟩
      have listed := (mem_newerItems sorter).mpr ⟨release, mem, eligible.1, scored⟩
      refine noStable item listed ?_
      rw [(score_describes scored).prerelease, eligible.2]
      rfl
  | some item =>
      rcases List.find?_eq_some_iff_append.mp first with ⟨isStable, before, after, split, pre⟩
      have stable : item.view.prerelease = false := by simpa using isStable
      have allPre : ∀ other ∈ before, other.view.prerelease = true := by
        intro other mem
        simpa using pre other mem
      rcases first_stable sorter split stable allPre with
        ⟨release, mem, eligible, describes, greatest⟩
      have kept : (keptNewer limits.maxNewer 0
          (newerItems sorter matcher target current all)).find?
            (fun item => !item.view.prerelease) = some item := by
        rcases visible with unlimited | limited
        · rw [keptNewer, if_pos unlimited, first]
        · have few := limited release mem eligible greatest
          rw [← countP_newerItems sorter release, split, List.countP_append] at few
          have counted : before.countP (ahead release) = before.length := by
            refine List.countP_eq_length.mpr fun other isOther => ?_
            have sorted := @pairwise_newerItems matcher target current all sorter
            rw [split] at sorted
            have le := (List.pairwise_append.mp sorted).2.2 other isOther item List.mem_cons_self
            rw [describes.version, ← compareVersions_ne_gt, compareVersions_eq_ranked,
              ← ranked_swap, ← compareVersions_eq_ranked] at le
            rw [ahead, allPre other isOther, Bool.true_and, bne_iff_ne]
            intro lower
            rw [lower] at le
            exact le rfl
          by_cases unlimited : limits.maxNewer ≤ 0
          · rw [keptNewer, if_pos unlimited, first]
          · have inside : before.length < (limits.maxNewer - 0).toNat := by
              rw [counted] at few
              omega
            rw [keptNewer, if_neg unlimited, split, List.take_append,
              List.take_of_length_le inside.le]
            obtain ⟨more, isMore⟩ : ∃ more, (limits.maxNewer - 0).toNat - before.length = more + 1 :=
              ⟨(limits.maxNewer - 0).toNat - before.length - 1, by omega⟩
            rw [isMore, List.take_succ_cons]
            exact List.find?_eq_some_iff_append.mpr ⟨isStable, before, _, rfl, pre⟩
      rw [kept]
      rw [Option.map_some, describes.version]
      exact ⟨greatest, release, mem, eligible, rfl⟩

end Sorted

/-- Prereleases are listed before stable releases of the same precedence. -/
def preFirst : Sorter Scored.descending :=
  (Sorter.stable fun item : Scored =>
    toLex (item.descending, if item.view.prerelease then 0 else 1)).ofTies

theorem visible_of_newest {limits : Limits}
    (newest : Newest matcher target current all
      (latestVersion limits matcher target current preFirst all)) :
    Visible matcher target current limits.maxNewer all := by
  by_cases unlimited : limits.maxNewer ≤ 0
  · exact Or.inl unlimited
  refine Or.inr fun release mem eligible greatest => ?_
  rw [latestVersion_eq, keptNewer, if_neg unlimited] at newest
  cases first : ((newerItems preFirst matcher target current all).take
      (limits.maxNewer - 0).toNat).find? fun item => !item.view.prerelease with
  | none =>
      rw [first] at newest
      exact absurd eligible (newest release mem)
  | some item =>
      rcases List.find?_eq_some_iff_append.mp first with ⟨isStable, before, after, taken, pre⟩
      have stable : item.view.prerelease = false := by simpa using isStable
      have allPre : ∀ other ∈ before, other.view.prerelease = true := by
        intro other isOther
        simpa using pre other isOther
      have split : newerItems preFirst matcher target current all = before ++ item ::
          (after ++ (newerItems preFirst matcher target current all).drop
            (limits.maxNewer - 0).toNat) := by
        conv_lhs => rw [← List.take_append_drop (limits.maxNewer - 0).toNat
          (newerItems preFirst matcher target current all), taken]
        simp
      rcases first_stable preFirst split stable allPre with
        ⟨other, isOther, alsoEligible, describes, alsoGreatest⟩
      have same : rank release.tag = rank item.view.version := by
        rw [describes.version]
        exact le_antisymm (compareVersions_ne_gt.mp (alsoGreatest release mem eligible))
          (compareVersions_ne_gt.mp (greatest other isOther alsoEligible))
      have sorted : (newerItems preFirst matcher target current all).Pairwise fun left right =>
          toLex (left.descending, if left.view.prerelease then 0 else 1) ≤
            toLex (right.descending, if right.view.prerelease then 0 else 1) :=
        ((Sorter.stable fun item : Scored =>
          toLex (item.descending, if item.view.prerelease then 0 else 1)).sorted _).filter _
      have noneLater : ∀ later ∈ item :: (after ++ (newerItems preFirst matcher target current
          all).drop (limits.maxNewer - 0).toNat), ¬ahead release later = true := by
        intro later isLater isAhead
        rw [ahead, Bool.and_eq_true, bne_iff_ne, compareVersions_eq_ranked, Ne, ranked_lt_iff,
          not_lt, same] at isAhead
        rcases List.mem_cons.mp isLater with rfl | isLater
        · rw [stable] at isAhead
          exact Bool.noConfusion isAhead.1
        · rw [split] at sorted
          have le := List.rel_of_pairwise_cons (List.pairwise_append.mp sorted).2.1 isLater
          rw [stable, isAhead.1, Prod.Lex.toLex_le_toLex] at le
          rcases le with lower | ⟨-, impossible⟩
          · exact absurd isAhead.2 (not_le_of_gt (OrderDual.toDual_lt_toDual.mp lower))
          · exact absurd impossible (by simp)
      rw [← countP_newerItems preFirst release, split, List.countP_append,
        List.countP_eq_zero.mpr noneLater]
      have few : before.length < (limits.maxNewer - 0).toNat := by
        have short := congrArg List.length taken
        rw [List.length_take, List.length_append, List.length_cons] at short
        omega
      have counted := @List.countP_le_length _ (ahead release) before
      omega

/-- However releases of the same precedence are listed, the newest one is found exactly when it is
visible. -/
theorem latestVersion_newest_iff (limits : Limits) (matcher : AssetMatcher) (target : TargetName)
    (current : Bytes) (all : List Release) :
    (∀ sorter, Newest matcher target current all
        (latestVersion limits matcher target current sorter all)) ↔
      Visible matcher target current limits.maxNewer all :=
  ⟨fun newest => visible_of_newest (newest preFirst),
    fun visible sorter => newest_of_visible sorter visible⟩

/-- A published release with one asset. -/
def published (tag : String) (prerelease : Bool) : Release where
  tag := bytes tag
  name := tag
  prerelease := prerelease
  draft := false
  publishedAt := 0
  assets := [{ name := "telemt", browserDownloadURL := "", size := 1 }]

/-- A stable release behind ten release candidates of the next one. -/
def candidates : List Release :=
  ["rc.10", "rc.9", "rc.8", "rc.7", "rc.6", "rc.5", "rc.4", "rc.3", "rc.2", "rc.1"].map
    (fun candidate => published ("2.0.0-" ++ candidate) true) ++ [published "1.1.0" false]

def firstAsset : AssetMatcher := fun assets => (assets.head?, none)

/-- The stable release is hidden by the candidates under the default limits. -/
theorem latestVersion_candidates :
    ¬∀ (limits : Limits) (matcher : AssetMatcher) (target : TargetName) (current : Bytes)
      (all : List Release) (sorter : Sorter Scored.descending),
      Newest matcher target current all
        (latestVersion limits matcher target current sorter all) := by
  intro newest
  have found := newest (newEngineLimits ⟨0, 0⟩) firstAsset .telemt (bytes "1.0.0") candidates
    (Sorter.stable _)
  have sorted : (((fetch candidates).filter fun release =>
      versionAllowed .telemt release.tag).filterMap (score (bytes "1.0.0") firstAsset)).Pairwise
        fun left right => left.descending ≤ right.descending := by
    decide +kernel
  have isNone : latestVersion (newEngineLimits ⟨0, 0⟩) firstAsset .telemt (bytes "1.0.0")
      (Sorter.stable _) candidates = none := by
    unfold latestVersion releasesView buildReleasesView
    rw [Sorter.stable_sort_of_pairwise sorted]
    decide +kernel
  rw [isNone] at found
  exact found (published "1.1.0" false) (by simp [candidates]) (by decide +kernel)

end TelemtPanel.Update
