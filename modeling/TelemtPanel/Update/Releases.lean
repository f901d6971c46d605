import TelemtPanel.Library.Sorter
import TelemtPanel.Update.Semver

/-!
# The newest release

Releases with a fitting asset are listed from the newest to the oldest, and at most some number of
newer ones is kept.  The automatic update takes the first of these that is newer than the current
version and no prerelease, so that it misses one behind as many prereleases as are kept.
-/

namespace TelemtPanel.Update

open Library

structure Asset where
  name : String
  browserDownloadURL : String
  size : ℤ
deriving DecidableEq

structure Release where
  tag : Bytes
  name : String
  prerelease : Bool
  draft : Bool
  publishedAt : ℤ
  assets : List Asset

/-- The binary and its checksum among the assets of a release. -/
abbrev AssetMatcher := List Asset → Option Asset × Option Asset

structure ReleaseView where
  version : Bytes
  name : String
  publishedAt : ℤ
  prerelease : Bool
  newer : Bool
  asset : Asset
  checksumAsset : Option Asset
  checksumRequired : Bool
deriving DecidableEq

structure ReleasesView where
  currentVersion : Bytes
  releases : List ReleaseView

inductive TargetName where
  | telemt
  | panel
deriving DecidableEq

/-- An entry with its comparison to the current version. -/
structure Scored where
  view : ReleaseView
  cmp : Ordering

/-- Entries are listed from the greatest version to the lowest one. -/
def Scored.descending (item : Scored) : Rankᵒᵈ := OrderDual.toDual (rank item.view.version)

def versionAllowed (target : TargetName) (version : Bytes) : Bool :=
  if target ≠ .panel then true
  else
    match parseVersion version with
    | some version => decide (version.major = 1 ∧ 0 ≤ version.minor ∧ 0 ≤ version.patch)
    | none => false

/-- `Client.fetch` drops the drafts. -/
def fetch (all : List Release) : List Release := all.filter fun release => !release.draft

section Build

variable (current : Bytes) (matcher : AssetMatcher) (maxNewer maxOlder : ℤ)

def score (release : Release) : Option Scored :=
  match (matcher release.assets).1 with
  | none => none
  | some bin =>
      let cmp := compareVersions release.tag current
      if cmp = .eq then none
      else some {
        view := {
          version := release.tag
          name := release.name
          publishedAt := release.publishedAt
          prerelease := release.prerelease
          newer := cmp == .gt
          asset := bin
          checksumAsset := (matcher release.assets).2
          checksumRequired := false }
        cmp := cmp }

/-- The loop over the sorted entries, with the numbers of newer and older ones kept so far. -/
def pick (newerCount olderCount : ℤ) : List Scored → List ReleaseView
  | [] => []
  | item :: items =>
      if item.cmp = .gt then
        if maxNewer ≤ 0 ∨ newerCount < maxNewer then
          item.view :: pick (newerCount + 1) olderCount items
        else pick newerCount olderCount items
      else
        if maxOlder ≤ 0 ∨ olderCount < maxOlder then
          item.view :: pick newerCount (olderCount + 1) items
        else pick newerCount olderCount items

def buildReleasesView (sorter : Sorter Scored.descending) (releases : List Release) :
    ReleasesView where
  currentVersion := current
  releases := pick maxNewer maxOlder 0 0 (sorter.sort (releases.filterMap (score current matcher)))

end Build

/-- Limits of an engine: the zero of its configuration stands for the default. -/
structure Limits where
  maxNewer : ℤ
  maxOlder : ℤ

/-- What `NewEngine` makes of the limits of its configuration. -/
def newEngineLimits (config : Limits) : Limits where
  maxNewer := if config.maxNewer = 0 then 10 else config.maxNewer
  maxOlder := if config.maxOlder = 0 then 3 else config.maxOlder

section Latest

variable (limits : Limits) (matcher : AssetMatcher) (target : TargetName) (current : Bytes)
  (sorter : Sorter Scored.descending) (all : List Release)

/-- The view of a target, of which only the releases that it allows are shown. -/
def releasesView : ReleasesView :=
  buildReleasesView current matcher limits.maxNewer limits.maxOlder sorter
    ((fetch all).filter fun release => versionAllowed target release.tag)

def latestVersion : Option Bytes :=
  ((releasesView limits matcher target current sorter all).releases.find? fun view =>
    view.newer && !view.prerelease).map ReleaseView.version

end Latest

section Pick

variable {maxNewer maxOlder : ℤ}

/-- The newer entries that are kept. -/
def keptNewer (maxNewer newerCount : ℤ) (items : List Scored) : List Scored :=
  if maxNewer ≤ 0 then items else items.take (maxNewer - newerCount).toNat

theorem keptNewer_cons {newerCount : ℤ} (item : Scored) (items : List Scored)
    (room : maxNewer ≤ 0 ∨ newerCount < maxNewer) :
    keptNewer maxNewer newerCount (item :: items) =
      item :: keptNewer maxNewer (newerCount + 1) items := by
  unfold keptNewer
  split
  · rfl
  · have one : (maxNewer - newerCount).toNat = (maxNewer - (newerCount + 1)).toNat + 1 := by omega
    rw [one, List.take_succ_cons]

theorem keptNewer_full {newerCount : ℤ} (items : List Scored)
    (full : ¬(maxNewer ≤ 0 ∨ newerCount < maxNewer)) :
    keptNewer maxNewer newerCount items = [] := by
  unfold keptNewer
  have none : (maxNewer - newerCount).toNat = 0 := by omega
  rw [if_neg fun unlimited => full (Or.inl unlimited), none, List.take_zero]

/-- The first stable newer release of the view is the first one among the newer entries kept. -/
theorem find?_pick (items : List Scored) (sound : ∀ item ∈ items, item.view.newer = (item.cmp == .gt))
    (newerCount olderCount : ℤ) :
    (pick maxNewer maxOlder newerCount olderCount items).find?
        (fun view => view.newer && !view.prerelease) =
      ((keptNewer maxNewer newerCount (items.filter fun item => item.cmp == .gt)).find? fun item =>
        !item.view.prerelease).map Scored.view := by
  induction items generalizing newerCount olderCount with
  | nil =>
      simp only [pick, List.filter_nil, keptNewer, List.take_nil, ite_self, List.find?_nil,
        Option.map_none]
  | cons item items ih =>
      have rest := ih fun other isOther => sound other (List.mem_cons_of_mem _ isOther)
      have isNewer := sound item List.mem_cons_self
      rw [pick]
      by_cases greater : item.cmp = .gt
      · have newer : (item.cmp == .gt) = true := beq_iff_eq.mpr greater
        rw [newer] at isNewer
        rw [if_pos greater, List.filter_cons, if_pos newer]
        by_cases room : maxNewer ≤ 0 ∨ newerCount < maxNewer
        · rw [if_pos room, keptNewer_cons item _ room, List.find?_cons, List.find?_cons, isNewer,
            Bool.true_and]
          cases item.view.prerelease with
          | true => exact rest (newerCount + 1) olderCount
          | false => rfl
        · rw [if_neg room, rest newerCount olderCount, keptNewer_full _ room,
            keptNewer_full _ room]
      · have older : ¬(item.cmp == .gt) = true := fun same => greater (beq_iff_eq.mp same)
        have notNewer : item.view.newer = false := by
          rw [isNewer]
          exact Bool.eq_false_iff.mpr older
        rw [if_neg greater, List.filter_cons, if_neg older]
        split
        · rw [List.find?_cons, notNewer, Bool.false_and]
          exact rest newerCount (olderCount + 1)
        · exact rest newerCount olderCount

end Pick

end TelemtPanel.Update
