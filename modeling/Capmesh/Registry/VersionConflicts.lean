import Mathlib.Data.List.Dedup
import Mathlib.Data.List.Sort
import Mathlib.Data.Prod.Lex
import Mathlib.Data.String.Basic
import Capmesh.Registry.Semver

/-!
# The winner of a version conflict

`resolve_version_conflict` of `semver_policy.py` takes the greatest version of one canonical key by a
sort key of its own. The key compares pre-releases as texts, `compare_semver` identifier by
identifier; `winner_maximal_iff` says for which versions the winner is the greatest all the same.
-/

namespace Capmesh

open Python Versions

/-- The tuple of `_semver_sort_key`. -/
abbrev SemverSortKey := Nat ×ₗ Nat ×ₗ Nat ×ₗ Nat ×ₗ String

/-- The result of `resolve_version_conflict`. -/
structure VersionResolution where
  winner : Option String
  conflict : Bool
  allValid : Bool
  versions : List String
  invalidVersions : Option (List String)
  deriving DecidableEq, Repr

/-- `sorted(set(versions))`. -/
def uniqueVersions (versions : List String) : List String :=
  versions.dedup.insertionSort fun a b => a ≤ b

/-- `_semver_sort_key` on what `parse_semver` returned. -/
def semverSortKey : Option Semver → SemverSortKey
  | none => toLex (0, toLex (0, toLex (0, toLex (0, ""))))
  | some parsed =>
      let preKey : Nat × String := match parsed.prerelease with
        | none => (1, "")
        | some pre => (0, String.ofList pre)
      toLex (parsed.major, toLex (parsed.minor, toLex (parsed.patch, toLex preKey)))

variable (rt : Runtime) (table : DigitTable)

/-- `resolve_version_conflict`. -/
def resolveVersionConflict (versions : List String) : Except Failure VersionResolution := do
  -- every version is parsed, and `parse_semver` has one result for one text
  let unique ← (uniqueVersions versions).mapM fun version => do
    let parsed ← parseSemver rt table version
    return (version, parsed)
  match unique with
  | [] => return ⟨none, false, true, [], none⟩
  | [(version, parsed)] => return ⟨some version, false, parsed.isSome, [version], none⟩
  | first :: second :: rest =>
      let unique := first :: second :: rest
      let valid := unique.filter (·.2.isSome)
      let winner :=
        if valid.isEmpty then unique.maxOn (·.1) nofun
        else unique.maxOn (fun entry => toLex (entry.2.isSome, semverSortKey entry.2)) nofun
      return {
        winner := some winner.1
        conflict := true
        allValid := valid.length = unique.length
        versions := unique.map (·.1)
        invalidVersions := some ((unique.filter (·.2.isNone)).map (·.1)) }

/-- The winner is one of the versions, and if one of them is valid it is valid too and not below any
valid one. -/
def WinnerMaximal (versions : List String) : Prop :=
  ∃ resolution winner, resolveVersionConflict rt table versions = .ok resolution ∧
    resolution.winner = some winner ∧ winner ∈ versions ∧
    ((∃ version ∈ versions, (semverGroups rt table version).isSome = true) →
      (semverGroups rt table winner).isSome = true ∧
      ∀ version ∈ versions, (semverGroups rt table version).isSome = true →
        ∃ order, compareSemver rt table winner version = .ok order ∧ 0 ≤ order)

/-- The release numbers of a match, in the order they compare in. -/
def SemverGroups.core (groups : SemverGroups) : Nat ×ₗ Nat ×ₗ Nat :=
  toLex (table.value groups.major, toLex (table.value groups.minor, table.value groups.patch))

/-- Every release number is short enough for `int`. -/
def ShortReleases (versions : List String) : Prop :=
  ∀ version ∈ versions, ∀ groups ∈ semverGroups rt table version,
    ∀ part ∈ [groups.major, groups.minor, groups.patch], part.length ≤ intMaxStrDigits

/-- A match at the greatest release numbers of the versions. -/
def AtTop (versions : List String) (groups : SemverGroups) : Prop :=
  (∃ version ∈ versions, semverGroups rt table version = some groups) ∧
    ∀ version ∈ versions, ∀ other ∈ semverGroups rt table version,
      other.core table ≤ groups.core table

/-- If there are only pre-releases at the top, the one that is greatest as a text is not below any
other of them by its identifiers. -/
def TopAgrees (versions : List String) : Prop :=
  ∀ groups pre, AtTop rt table versions groups → groups.prerelease = some pre →
    (∀ other, AtTop rt table versions other → ∃ otherPre, other.prerelease = some otherPre ∧
      String.ofList otherPre ≤ String.ofList pre) →
    ∀ other otherPre, AtTop rt table versions other → other.prerelease = some otherPre →
      ∃ order, compareIds rt table (pre.splitOn '.') (otherPre.splitOn '.') = .ok order ∧ 0 ≤ order

/-- The key that the winner is the greatest by. -/
def conflictKey (groups : Option SemverGroups) : Bool ×ₗ SemverSortKey :=
  toLex (groups.isSome, semverSortKey (groups.map (·.parsed table)))

section

variable {rt : Runtime} {table : DigitTable} {versions : List String} {version winner : String}
variable {groups other : SemverGroups}

theorem mem_unique_versions : version ∈ uniqueVersions versions ↔ version ∈ versions := by
  rw [uniqueVersions, List.mem_insertionSort, List.mem_dedup]

/-- The keys of versions compare by their release numbers, then a release comes after a
pre-release, then by the text of the pre-release. -/
theorem conflict_key_le_iff : conflictKey table (some other) ≤ conflictKey table (some groups) ↔
    other.core table < groups.core table ∨ other.core table = groups.core table ∧
      ∀ pre, groups.prerelease = some pre → ∃ otherPre, other.prerelease = some otherPre ∧
        String.ofList otherPre ≤ String.ofList pre := by
  obtain ⟨major, minor, patch, pre, build⟩ := groups
  obtain ⟨otherMajor, otherMinor, otherPatch, otherPre, otherBuild⟩ := other
  simp only [conflictKey, semverSortKey, SemverGroups.core, SemverGroups.parsed, Option.isSome_some,
    Option.map_some, Prod.Lex.toLex_le_toLex, Prod.Lex.toLex_lt_toLex, lt_irrefl, false_or, true_and,
    toLex_inj, Prod.mk.injEq]
  cases pre <;> cases otherPre <;> simp <;> tauto

/-- The loop of `compare_semver` over the release numbers decides when these differ. -/
theorem compare_fields_core :
    compareFields [(table.value groups.major, table.value other.major),
      (table.value groups.minor, table.value other.minor),
      (table.value groups.patch, table.value other.patch)] =
      if other.core table < groups.core table then some 1
      else if groups.core table < other.core table then some (-1) else none := by
  simp only [compareFields, SemverGroups.core, Prod.Lex.toLex_lt_toLex]
  grind

theorem compare_parsed (hwinner : parseSemver rt table winner = .ok (some (groups.parsed table)))
    (hversion : parseSemver rt table version = .ok (some (other.parsed table))) :
    compareSemver rt table winner version =
      if other.core table < groups.core table then .ok 1
      else if groups.core table < other.core table then .ok (-1)
      else match groups.prerelease, other.prerelease with
        | none, none => .ok 0
        | none, some _ => .ok 1
        | some _, none => .ok (-1)
        | some pre, some otherPre =>
            compareIds rt table (pre.splitOn '.') (otherPre.splitOn '.') := by
  simp only [compareSemver, hwinner, hversion, bind, Except.bind, SemverGroups.parsed,
    compare_fields_core]
  split_ifs <;> rfl

theorem map_m_eq_map {α β ε : Type} {read : α → Except ε β} {result : α → β} {items : List α}
    (h : ∀ item ∈ items, read item = .ok (result item)) :
    items.mapM read = .ok (items.map result) := by
  induction items with
  | nil => rfl
  | cons item items ih =>
      obtain ⟨hitem, hitems⟩ := List.forall_mem_cons.mp h
      rw [List.mapM_cons, hitem, ih hitems]
      rfl

theorem ok_of_map_m {α β ε : Type} {read : α → Except ε β} {items : List α} {results : List β}
    (h : items.mapM read = .ok results) : ∀ item ∈ items, ∃ result, read item = .ok result := by
  induction items generalizing results with
  | nil => exact fun item hitem => absurd hitem List.not_mem_nil
  | cons first items ih =>
      rw [List.mapM_cons] at h
      obtain ⟨result, hfirst, hrest⟩ := bind_eq_ok h
      obtain ⟨others, hothers, -⟩ := bind_eq_ok hrest
      intro item hitem
      rcases List.mem_cons.mp hitem with rfl | hitem
      · exact ⟨result, hfirst⟩
      · exact ih hothers item hitem

theorem resolve_version_conflict_ok (hshort : ShortReleases rt table versions)
    (hne : versions ≠ []) : ∃ resolution winner,
      resolveVersionConflict rt table versions = .ok resolution ∧
      resolution.winner = some winner ∧ winner ∈ versions ∧
      ((∃ version ∈ versions, (semverGroups rt table version).isSome = true) →
        ∀ version ∈ versions, conflictKey table (semverGroups rt table version) ≤
          conflictKey table (semverGroups rt table winner)) := by
  let entry (version : String) : String × Option Semver :=
    (version, (semverGroups rt table version).map (·.parsed table))
  have hkey : ∀ version, toLex ((entry version).2.isSome, semverSortKey (entry version).2) =
      conflictKey table (semverGroups rt table version) := by
    intro version
    simp [entry, conflictKey]
  have hparsed : ((uniqueVersions versions).mapM fun version => do
      let parsed ← parseSemver rt table version
      return (version, parsed)) = .ok ((uniqueVersions versions).map entry) := by
    refine map_m_eq_map fun version hversion => ?_
    rw [parse_semver_of_short (hshort version (mem_unique_versions.mp hversion))]
    rfl
  have hmem : ∀ version, version ∈ uniqueVersions versions ↔ version ∈ versions :=
    fun version => mem_unique_versions
  unfold resolveVersionConflict
  rw [hparsed]
  cases hunique : uniqueVersions versions with
  | nil =>
      obtain ⟨version, hversion⟩ := List.exists_mem_of_ne_nil versions hne
      exact absurd ((hmem version).mpr hversion) (by simp [hunique])
  | cons first rest =>
      cases rest with
      | nil =>
          refine ⟨_, first, rfl, rfl, (hmem first).mp (by simp [hunique]), ?_⟩
          intro _ version hversion
          have hfirst := (hmem version).mpr hversion
          rw [hunique, List.mem_singleton] at hfirst
          rw [hfirst]
      | cons second rest =>
          rw [hunique] at hmem
          have hentry : ∀ found ∈ (first :: second :: rest).map entry, found.1 ∈ versions := by
            intro found hfound
            obtain ⟨version, hversion, rfl⟩ := List.mem_map.mp hfound
            exact (hmem version).mp hversion
          have hfound : ∀ found ∈ (first :: second :: rest).map entry,
              toLex (found.2.isSome, semverSortKey found.2) =
                conflictKey table (semverGroups rt table found.1) := by
            intro found hfound
            obtain ⟨version, -, rfl⟩ := List.mem_map.mp hfound
            exact hkey version
          refine ⟨_, _, rfl, rfl, ?_, ?_⟩
          · split
            · exact hentry _ List.maxOn_mem
            · exact hentry _ List.maxOn_mem
          · rintro ⟨valid, hvalid, hsome⟩ version hversion
            rw [if_neg]
            · have hgreatest := List.le_apply_maxOn_of_mem
                (f := fun found : String × Option Semver =>
                  toLex (found.2.isSome, semverSortKey found.2))
                (List.mem_map_of_mem (f := entry) ((hmem version).mpr hversion))
              simp only [hkey, hfound _ List.maxOn_mem] at hgreatest
              exact hgreatest
            · intro hempty
              have hkept : entry valid ∈
                  ((first :: second :: rest).map entry).filter (·.2.isSome) :=
                List.mem_filter.mpr ⟨List.mem_map_of_mem ((hmem valid).mpr hvalid),
                  by simpa [entry] using hsome⟩
              exact List.ne_nil_of_mem hkept (List.isEmpty_iff.mp hempty)

theorem short_of_resolved {resolution : VersionResolution}
    (h : resolveVersionConflict rt table versions = .ok resolution) :
    ShortReleases rt table versions := by
  obtain ⟨entries, hentries, -⟩ := bind_eq_ok h
  intro version hversion
  obtain ⟨found, hfound⟩ := ok_of_map_m hentries version (mem_unique_versions.mpr hversion)
  obtain ⟨parsed, hparsed, -⟩ := bind_eq_ok hfound
  exact (parse_semver_ok hparsed).2

theorem at_top_of_greatest (hmem : winner ∈ versions)
    (hwinner : semverGroups rt table winner = some groups)
    (hgreatest : ∀ version ∈ versions, conflictKey table (semverGroups rt table version) ≤
      conflictKey table (semverGroups rt table winner)) : AtTop rt table versions groups := by
  refine ⟨⟨winner, hmem, hwinner⟩, fun version hversion other hother => ?_⟩
  have hle := hgreatest version hversion
  rw [hwinner, Option.mem_def.mp hother, conflict_key_le_iff] at hle
  exact hle.elim le_of_lt fun h => le_of_eq h.1

/-- All matches at the top have the same release numbers. -/
theorem core_eq_of_top (h : AtTop rt table versions groups) (hother : AtTop rt table versions other) :
    other.core table = groups.core table := by
  obtain ⟨⟨version, hversion, hgroups⟩, htop⟩ := h
  obtain ⟨⟨another, hanother, hfound⟩, hothertop⟩ := hother
  exact le_antisymm (htop another hanother other hfound) (hothertop version hversion groups hgroups)

theorem parse_of_short (hshort : ShortReleases rt table versions) (hmem : version ∈ versions)
    (hgroups : semverGroups rt table version = some groups) :
    parseSemver rt table version = .ok (some (groups.parsed table)) := by
  rw [parse_semver_of_short (hshort version hmem), hgroups]
  rfl

/-- A greatest version has a pre-release only if there are pre-releases alone at the top, and then
no other one is greater as a text. -/
theorem prerelease_of_greatest (htop : AtTop rt table versions groups)
    (hwinner : semverGroups rt table winner = some groups)
    (hgreatest : ∀ version ∈ versions, conflictKey table (semverGroups rt table version) ≤
      conflictKey table (semverGroups rt table winner))
    {pre : List Char} (hpre : groups.prerelease = some pre)
    (hother : AtTop rt table versions other) : ∃ otherPre, other.prerelease = some otherPre ∧
      String.ofList otherPre ≤ String.ofList pre := by
  obtain ⟨version, hversion, hgroups⟩ := hother.1
  have hle := hgreatest version hversion
  rw [hwinner, hgroups, conflict_key_le_iff] at hle
  rcases hle with hlt | ⟨-, hle⟩
  · exact absurd (core_eq_of_top htop hother) (ne_of_lt hlt)
  · exact hle pre hpre

theorem valid_of_greatest (hvalid : (semverGroups rt table version).isSome = true)
    (hle : conflictKey table (semverGroups rt table version) ≤
      conflictKey table (semverGroups rt table winner)) :
    (semverGroups rt table winner).isSome = true := by
  unfold conflictKey at hle
  rw [Prod.Lex.toLex_le_toLex, hvalid] at hle
  rcases hle with hlt | ⟨hsame, -⟩
  · exact absurd hlt (by simp)
  · exact hsame.symm

end

/-- The winner of a conflict is maximal exactly when the release numbers are short enough for `int`
and the texts of the pre-releases at the top do not mislead the sort key. -/
theorem winner_maximal_iff (rt : Runtime) (table : DigitTable) (first : String)
    (rest : List String) : WinnerMaximal rt table (first :: rest) ↔
      ShortReleases rt table (first :: rest) ∧ TopAgrees rt table (first :: rest) := by
  constructor
  · rintro ⟨resolution, winner, hresolved, hwinner, hmem, hmaximal⟩
    have hshort := short_of_resolved hresolved
    refine ⟨hshort, fun groups pre htop hpre hgreatest other otherPre hother hotherPre => ?_⟩
    obtain ⟨found, chosen, hfound, hchosen, -, hkey⟩ :=
      resolve_version_conflict_ok hshort (List.cons_ne_nil first rest)
    obtain rfl : resolution = found := Except.ok.inj (hresolved.symm.trans hfound)
    obtain rfl : winner = chosen := Option.some.inj (hwinner.symm.trans hchosen)
    obtain ⟨version, hversion, hgroups⟩ := htop.1
    have hvalid : ∃ version ∈ first :: rest, (semverGroups rt table version).isSome = true :=
      ⟨version, hversion, by rw [hgroups, Option.isSome_some]⟩
    obtain ⟨hsome, hcompare⟩ := hmaximal hvalid
    obtain ⟨best, hbest⟩ := Option.isSome_iff_exists.mp hsome
    have hbesttop := at_top_of_greatest hmem hbest (hkey hvalid)
    -- the winner has the pre-release that is greatest as a text
    obtain ⟨bestPre, hbestPre, hle⟩ := hgreatest best hbesttop
    obtain ⟨otherPre', hsame, hge⟩ := prerelease_of_greatest hbesttop hbest (hkey hvalid) hbestPre htop
    obtain rfl : pre = otherPre' := Option.some.inj (hpre.symm.trans hsame)
    obtain rfl : bestPre = pre := String.ofList_injective (le_antisymm hle hge)
    obtain ⟨another, hanother, hothergroups⟩ := hother.1
    obtain ⟨order, horder, hnonneg⟩ :=
      hcompare another hanother (by rw [hothergroups, Option.isSome_some])
    rw [compare_parsed (parse_of_short hshort hmem hbest)
      (parse_of_short hshort hanother hothergroups), core_eq_of_top hbesttop hother,
      if_neg (lt_irrefl _), if_neg (lt_irrefl _), hbestPre, hotherPre] at horder
    exact ⟨order, horder, hnonneg⟩
  · rintro ⟨hshort, hagrees⟩
    obtain ⟨resolution, winner, hresolved, hwinner, hmem, hkey⟩ :=
      resolve_version_conflict_ok hshort (List.cons_ne_nil first rest)
    refine ⟨resolution, winner, hresolved, hwinner, hmem, fun hvalid => ?_⟩
    have hgreatest := hkey hvalid
    obtain ⟨valid, hvalidmem, hvalidsome⟩ := hvalid
    have hsome := valid_of_greatest hvalidsome (hgreatest valid hvalidmem)
    refine ⟨hsome, fun version hversion hversionsome => ?_⟩
    obtain ⟨groups, hgroups⟩ := Option.isSome_iff_exists.mp hsome
    obtain ⟨other, hother⟩ := Option.isSome_iff_exists.mp hversionsome
    have htop := at_top_of_greatest hmem hgroups hgreatest
    rw [compare_parsed (parse_of_short hshort hmem hgroups) (parse_of_short hshort hversion hother)]
    rcases lt_or_eq_of_le (htop.2 version hversion other hother) with hlt | hcore
    · exact ⟨1, if_pos hlt, by decide⟩
    · have hothertop : AtTop rt table (first :: rest) other :=
        ⟨⟨version, hversion, hother⟩, fun another hanother found hfound =>
          (htop.2 another hanother found hfound).trans hcore.ge⟩
      rw [hcore, if_neg (lt_irrefl _), if_neg (lt_irrefl _)]
      cases hpre : groups.prerelease with
      | none =>
          cases other.prerelease with
          | none => exact ⟨0, rfl, le_refl 0⟩
          | some otherPre => exact ⟨1, rfl, by decide⟩
      | some pre =>
          have hothers := fun found (hfound : AtTop rt table (first :: rest) found) =>
            prerelease_of_greatest htop hgroups hgreatest hpre hfound
          obtain ⟨otherPre, hotherPre, -⟩ := hothers other hothertop
          rw [hotherPre]
          exact hagrees groups pre htop hpre hothers other otherPre hothertop hotherPre

/-- The sort key takes the second pre-release for greater than the tenth. -/
theorem winner_maximal_counterexample :
    ¬ ∀ (rt : Runtime) (table : DigitTable) (first : String) (rest : List String),
      WinnerMaximal rt table (first :: rest) := by
  intro hclaim
  obtain ⟨resolution, winner, hresolved, hwinner, -, hmaximal⟩ :=
    hclaim Platform.sample.toRuntime .ascii "1.0.0-2" ["1.0.0-10"]
  have hrun : resolveVersionConflict Platform.sample.toRuntime .ascii ["1.0.0-2", "1.0.0-10"] =
      .ok ⟨some "1.0.0-2", true, true, ["1.0.0-10", "1.0.0-2"], some []⟩ := by decide +kernel
  rw [hrun] at hresolved
  cases hresolved
  cases hwinner
  obtain ⟨-, hcompare⟩ := hmaximal ⟨"1.0.0-2", by simp, by decide +kernel⟩
  obtain ⟨order, horder, hnonneg⟩ := hcompare "1.0.0-10" (by simp) (by decide +kernel)
  have hbelow : compareSemver Platform.sample.toRuntime .ascii "1.0.0-2" "1.0.0-10" = .ok (-1) := by
    decide +kernel
  rw [hbelow] at horder
  cases horder
  exact absurd hnonneg (by decide)

end Capmesh
