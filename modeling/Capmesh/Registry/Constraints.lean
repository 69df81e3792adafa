import Capmesh.Registry.SemverPrecedence
import Mathlib.Data.List.DropRight

/-!
# Version constraints of dependencies

What `_satisfies_constraint` makes of a constraint. A range is read from the text of its version,
so its lower bound is the first release of the major or minor line, and its upper bound lets the
pre-releases of the next line in. `constraint_means_iff` says for which versions and constraints
the answer is the one the constraint asks for.
-/

namespace Capmesh

open Python Versions

/-- An operator that compares, and the results of `compare_semver` it accepts. -/
structure Operator where
  text : List Char
  holds : Int → Bool

/-- The operators, in the order they are looked for. -/
def operators : List Operator :=
  [⟨['>', '='], (0 ≤ ·)⟩, ⟨['<', '='], (· ≤ 0)⟩, ⟨['=', '='], (· = 0)⟩, ⟨['>'], (0 < ·)⟩,
    ⟨['<'], (· < 0)⟩]

section

variable (rt : Runtime) (table : DigitTable)

/-- `int(part) if part.isdigit() else 0`. -/
def partNumber (part : List Char) : Except Failure Nat :=
  if table.allDigits part then intOf rt table part else .ok 0

/-- `str(n)`, with its `ValueError`. -/
def strOf (n : Nat) : Except Failure String := (strOfNat n).mapError .value

/-- `f"{major}.0.0"`. -/
def majorRelease (major : Nat) : Except Failure String := do
  .ok ((← strOf major) ++ ".0.0")

/-- `f"{major}.{minor}.0"`. -/
def minorRelease (major minor : Nat) : Except Failure String := do
  .ok ((← strOf major) ++ "." ++ (← strOf minor) ++ ".0")

/-- Whether a version is at least `low` and below `high`; `high` is only formed if it is. -/
def inRange (version : String) (low high : Except Failure String) : Except Failure Bool := do
  if 0 ≤ (← compareSemver rt table version (← low)) then
    .ok (decide ((← compareSemver rt table version (← high)) < 0))
  else .ok false

/-- `compare_semver(version, base) >= 0`. -/
def atLeast (version : String) (base : List Char) : Except Failure Bool := do
  .ok (decide (0 ≤ (← compareSemver rt table version (.ofList base))))

/-- `_satisfies_constraint`, of a constraint without white space around it. -/
def satisfiesStripped (version : String) (constraint : List Char) : Except Failure Bool :=
  if constraint = ['*'] then .ok true
  else
    match constraint with
    | '^' :: rest =>
        let base := strip rt.chars.isSpace rest
        match base.splitOn '.' with
        | first :: _ :: _ => do
            let major ← partNumber rt table first
            inRange rt table version (majorRelease major) (majorRelease (major + 1))
        | _ => atLeast rt table version base
    | '~' :: rest =>
        let base := strip rt.chars.isSpace rest
        match base.splitOn '.' with
        | first :: second :: _ :: _ => do
            let major ← partNumber rt table first
            let minor ← partNumber rt table second
            inRange rt table version (minorRelease major minor) (minorRelease major (minor + 1))
        | _ => atLeast rt table version base
    | _ =>
        match operators.find? (·.text.isPrefixOf constraint) with
        | some op => do
            let target := strip rt.chars.isSpace (constraint.drop op.text.length)
            .ok (op.holds (← compareSemver rt table version (.ofList target)))
        | none => do .ok (decide ((← compareSemver rt table version (.ofList constraint)) = 0))

/-- `_satisfies_constraint`. -/
def satisfiesConstraint (version constraint : String) : Except Failure Bool :=
  satisfiesStripped rt table version (strip rt.chars.isSpace constraint.toList)

/-- Whether a text is parsed as a version. -/
def ParsesAs (text : String) (version : Version) : Prop :=
  (∃ parsed, parseSemver rt table text = .ok (some parsed)) ∧
    versionOf rt table text = some version

/-- Whether a text is no version. -/
def Unparsable (text : String) : Prop := parseSemver rt table text = .ok none

end

section

variable {rt : Runtime} {table : DigitTable} {v b : String} {vv bv : Version}
variable {part text : List Char} {major minor : Nat} {answer : Bool}

/-- A text that is parsed has the groups of a match, each number short enough for `int`. -/
theorem ParsesAs.groups (h : ParsesAs rt table b bv) :
    ∃ groups, semverGroups rt table b = some groups ∧ groups.version table = bv ∧
      parseSemver rt table b = .ok ((semverGroups rt table b).map (·.parsed table)) ∧
      ∀ part ∈ [groups.major, groups.minor, groups.patch], part.length ≤ intMaxStrDigits := by
  obtain ⟨⟨parsed, hparse⟩, hversion⟩ := h
  obtain ⟨heq, hshort⟩ := parse_semver_ok hparse
  obtain ⟨groups, hgroups, hsame⟩ := Option.map_eq_some_iff.mp hversion
  exact ⟨groups, hgroups, hsame, by rw [hparse, heq], hshort groups hgroups⟩

theorem value_writable (h : part.length ≤ intMaxStrDigits) :
    (Nat.repr (table.value part)).length ≤ intMaxStrDigits := by
  rw [Nat.length_repr_le_iff (by decide)]
  exact Nat.lt_of_lt_of_le (value_lt part) (Nat.pow_le_pow_right (by omega) h)

/-- The release of three numbers, as a version of the specification. -/
def plainRelease (major minor patch : Nat) : SemVer := ⟨major, minor, patch, [], []⟩

theorem repr_length (n : Nat) : (Nat.repr n).length = (Nat.toDigits 10 n).length := by
  rw [Nat.repr_eq_ofList_toDigits, String.length_ofList]

theorem plain_release_groups (major minor : Nat) :
    semverGroups rt table (plainRelease major minor 0).text =
      some ⟨Nat.toDigits 10 major, Nat.toDigits 10 minor, Nat.toDigits 10 0, none, none⟩ :=
  (semver_groups_text _).trans (semver_match_spell _)

theorem plain_release_bounded (hmajor : (Nat.repr major).length ≤ intMaxStrDigits)
    (hminor : (Nat.repr minor).length ≤ intMaxStrDigits) :
    BoundedFields rt table (plainRelease major minor 0).text := by
  intro found hfound part hpart
  rw [plain_release_groups] at hfound
  obtain rfl := Option.some.inj hfound
  simp only [SemverGroups.numerals, Option.elim, List.filter_nil, List.append_nil,
    List.mem_cons, List.not_mem_nil, or_false] at hpart
  rcases hpart with rfl | rfl | rfl
  · rwa [← repr_length]
  · rwa [← repr_length]
  · decide

/-- A parsed version is compared with a release by precedence. -/
theorem compare_release (hv : ParsesAs rt table v vv)
    (hmajor : (Nat.repr major).length ≤ intMaxStrDigits)
    (hminor : (Nat.repr minor).length ≤ intMaxStrDigits) :
    compareSemver rt table v (plainRelease major minor 0).text =
      .ok (sign (vv.order (.release major minor 0))) := by
  obtain ⟨groups, hgroups, hversion, hparse, -⟩ := hv.groups
  have hread : versionOf rt table (plainRelease major minor 0).text =
      some (.release major minor 0) := version_of_text _
  rw [compare_semver_parsed hparse (parse_semver_eq (plain_release_bounded hmajor hminor)),
    semverOrder, orderBy, hv.2, hread]
  intro paGroups _ pbGroups hpb paPre _ pbPre hpbPre
  rw [plain_release_groups] at hpb
  obtain rfl := Option.some.inj hpb
  cases hpbPre

/-- What a range answers, of which the upper bound may be too long to write. -/
theorem in_range_ok_iff {low high : Except Failure String} (nextMajor nextMinor : Nat)
    (writable : Bool) (hv : ParsesAs rt table v vv)
    (hmajor : (Nat.repr major).length ≤ intMaxStrDigits)
    (hminor : (Nat.repr minor).length ≤ intMaxStrDigits)
    (hlow : low = .ok (plainRelease major minor 0).text)
    (hhigh : if writable then (Nat.repr nextMajor).length ≤ intMaxStrDigits ∧
        (Nat.repr nextMinor).length ≤ intMaxStrDigits ∧
        high = .ok (plainRelease nextMajor nextMinor 0).text
      else ∃ failure, high = .error failure) :
    inRange rt table v low high = .ok answer ↔
      if vv.lt (.release major minor 0) then answer = false
      else writable = true ∧ answer = decide (vv.lt (.release nextMajor nextMinor 0)) := by
  have hsign : (0 ≤ sign (vv.order (.release major minor 0))) ↔
      ¬ vv.lt (.release major minor 0) := by
    rw [Version.lt, ← sign_lt_zero_iff]
    omega
  subst hlow
  by_cases hbelow : vv.lt (.release major minor 0)
  · simp [inRange, bind, Except.bind, compare_release hv hmajor hminor, hsign, hbelow, eq_comm]
  · cases writable with
    | false =>
        obtain ⟨failure, rfl⟩ := hhigh
        simp [inRange, bind, Except.bind, compare_release hv hmajor hminor, hsign, hbelow]
    | true =>
        obtain ⟨hnextMajor, hnextMinor, rfl⟩ := hhigh
        have hnext : (sign (vv.order (.release nextMajor nextMinor 0)) < 0) ↔
            vv.lt (.release nextMajor nextMinor 0) := sign_lt_zero_iff _
        simp [inRange, bind, Except.bind, compare_release hv hmajor hminor, hsign, hbelow,
          compare_release hv hnextMajor hnextMinor, hnext, eq_comm]

theorem str_of_ok {n : Nat} (h : (Nat.repr n).length ≤ intMaxStrDigits) :
    strOf n = .ok (Nat.repr n) := by
  rw [strOf, strOfNat, if_pos h]
  rfl

theorem str_of_error {n : Nat} (h : ¬ (Nat.repr n).length ≤ intMaxStrDigits) :
    ∃ failure, strOf n = .error failure := by
  rw [strOf, strOfNat, if_neg h]
  exact ⟨_, rfl⟩

theorem plain_release_text (major minor : Nat) :
    (plainRelease major minor 0).text = Nat.repr major ++ "." ++ Nat.repr minor ++ ".0" := by
  apply String.toList_inj.mp
  simp [SemVer.text, SemVer.spell, plainRelease, SemVer.prereleaseText, SemVer.buildText,
    Nat.repr_eq_ofList_toDigits]

theorem major_release_text (major : Nat) :
    (plainRelease major 0 0).text = Nat.repr major ++ ".0.0" := by
  apply String.toList_inj.mp
  simp [SemVer.text, SemVer.spell, plainRelease, SemVer.prereleaseText, SemVer.buildText,
    Nat.repr_eq_ofList_toDigits]

/-- The number of a base is written with at most 4300 digits. -/
def Writable (n : Nat) : Prop := (Nat.repr n).length ≤ intMaxStrDigits

instance (n : Nat) : Decidable (Writable n) := inferInstanceAs (Decidable (_ ≤ _))

theorem in_major_range_iff (hv : ParsesAs rt table v vv) (hmajor : Writable major) :
    inRange rt table v (majorRelease major) (majorRelease (major + 1)) = .ok answer ↔
      if vv.lt (.release major 0 0) then answer = false
      else Writable (major + 1) ∧ answer = decide (vv.lt (.release (major + 1) 0 0)) := by
  have hok : ∀ n, Writable n → majorRelease n = .ok (plainRelease n 0 0).text := fun n hn => by
    rw [majorRelease, str_of_ok hn, major_release_text]
    rfl
  rw [in_range_ok_iff (major + 1) 0 (decide (Writable (major + 1))) hv hmajor (by decide)
    (hok major hmajor), decide_eq_true_iff]
  split
  · rename_i hnext
    have hnext := of_decide_eq_true hnext
    exact ⟨hnext, by decide, hok _ hnext⟩
  · rename_i hnext
    obtain ⟨failure, hfailure⟩ := str_of_error fun h => hnext (decide_eq_true h)
    exact ⟨failure, by rw [majorRelease, hfailure]; rfl⟩

theorem in_minor_range_iff (hv : ParsesAs rt table v vv) (hmajor : Writable major)
    (hminor : Writable minor) :
    inRange rt table v (minorRelease major minor) (minorRelease major (minor + 1)) = .ok answer ↔
      if vv.lt (.release major minor 0) then answer = false
      else Writable (minor + 1) ∧ answer = decide (vv.lt (.release major (minor + 1) 0)) := by
  have hok : ∀ n, Writable n → minorRelease major n = .ok (plainRelease major n 0).text :=
    fun n hn => by
      rw [minorRelease, str_of_ok hmajor, str_of_ok hn, plain_release_text]
      rfl
  rw [in_range_ok_iff major (minor + 1) (decide (Writable (minor + 1))) hv hmajor hminor
    (hok minor hminor), decide_eq_true_iff]
  split
  · rename_i hnext
    have hnext := of_decide_eq_true hnext
    exact ⟨hmajor, hnext, hok _ hnext⟩
  · rename_i hnext
    obtain ⟨failure, hfailure⟩ := str_of_error fun h => hnext (decide_eq_true h)
    exact ⟨failure, by rw [minorRelease, str_of_ok hmajor, hfailure]; rfl⟩

theorem strip_rstrip (chars : Char → Bool) (text : List Char) :
    strip chars (rstrip chars text) = strip chars text := by
  have hidem : ∀ text : List Char, rstrip chars (rstrip chars text) = rstrip chars text := by
    intro text
    rw [rstrip, rstrip, List.reverse_reverse, List.dropWhile_idempotent]
  rw [strip, drop_while_rstrip, hidem, ← strip]

/-- White space after an operator and its version goes; what is left is the operator and the text
up to there. -/
theorem strip_operator {op : List Char} (hne : op ≠ []) (h : ∀ c ∈ op, rt.chars.isSpace c = false)
    (text : List Char) :
    strip rt.chars.isSpace (op ++ text) = op ++ rstrip rt.chars.isSpace text := by
  obtain ⟨c, rest, rfl⟩ := List.exists_cons_of_ne_nil hne
  rw [strip, List.cons_append, List.dropWhile_cons_of_neg (by simp [h c List.mem_cons_self]),
    ← List.cons_append, rstrip_append_of_ne_nil hne h]

/-- Whether a version is written with a `v` in front. -/
def marked (rt : Runtime) (b : String) : Bool := (strip rt.chars.isSpace b.toList).head? = some 'v'

theorem literal_spec {c : Char} {rest : List Char} (h : literal c text = some rest) :
    text = c :: rest := by
  cases text with
  | nil => cases h
  | cons d text =>
      by_cases hsame : d = c
      · rw [literal, if_pos hsame] at h
        rw [hsame, Option.some.inj h]
      · rw [literal, if_neg hsame] at h
        cases h

/-- A match begins with its three numbers, none of them empty. -/
theorem semver_match_shape {groups : SemverGroups} (h : semverMatch table text = some groups) :
    groups.major ≠ [] ∧ groups.minor ≠ [] ∧ ∃ rest,
      text = groups.major ++ '.' :: (groups.minor ++ '.' :: (groups.patch ++ rest)) := by
  unfold semverMatch at h
  simp only [Option.bind_eq_bind, Option.bind_eq_some_iff, Prod.exists] at h
  obtain ⟨major, rest, hmajor, rest₁, hdot, minor, rest₂, hminor, rest₃, hnext, patch, rest₄,
    hpatch, h⟩ := h
  split at h
  · cases h
    obtain ⟨hmajorne, -, rfl⟩ := some_of_spec hmajor
    obtain ⟨hminorne, -, rfl⟩ := some_of_spec hminor
    obtain ⟨-, -, rfl⟩ := some_of_spec hpatch
    exact ⟨hmajorne, hminorne, rest₄, by rw [literal_spec hdot, literal_spec hnext]⟩
  · cases h

/-- What a parsed version looks like without the white space around it. -/
theorem stripped_shape {groups : SemverGroups} (h : semverGroups rt table b = some groups) :
    ∃ marks rest, strip rt.chars.isSpace b.toList =
        marks ++ (groups.major ++ '.' :: (groups.minor ++ '.' :: (groups.patch ++ rest))) ∧
      (∀ c ∈ marks, c = 'v') ∧ (marks = [] ↔ marked rt b = false) := by
  obtain ⟨hmajor, -, rest, hrest⟩ := semver_match_shape h
  refine ⟨(strip rt.chars.isSpace b.toList).takeWhile (· = 'v'), rest, ?_, fun c hc => ?_, ?_⟩
  · rw [← hrest, List.takeWhile_append_dropWhile]
  · simpa using List.mem_takeWhile_imp hc
  · unfold marked
    cases strip rt.chars.isSpace b.toList with
    | nil => simp
    | cons c text => by_cases hc : c = 'v' <;> simp [hc]

/-- The numbers of a version hold no full stop. -/
theorem dot_not_decimal (h : ∀ c ∈ part, table.isDecimal c = true) : '.' ∉ part := by
  intro hdot
  have := h '.' hdot
  rw [isDecimal_ascii (by decide)] at this
  cases this

/-- The parts of a parsed version at its full stops: the first two hold its first two numbers, the
first one after its marks. -/
theorem split_version {groups : SemverGroups} (h : semverGroups rt table b = some groups) :
    ∃ marks third more, (strip rt.chars.isSpace b.toList).splitOn '.' =
        (marks ++ groups.major) :: groups.minor :: third :: more ∧
      (∀ c ∈ marks, c = 'v') ∧ (marks = [] ↔ marked rt b = false) := by
  obtain ⟨marks, rest, heq, hmarks, hnone⟩ := stripped_shape h
  have hdecimal := semver_match_decimal h
  have hfirst : '.' ∉ marks ++ groups.major := by
    intro hdot
    rcases List.mem_append.mp hdot with hdot | hdot
    · exact absurd (hmarks '.' hdot) (by decide)
    · exact dot_not_decimal (hdecimal groups.major (by simp)) hdot
  obtain ⟨third, more, hmore⟩ := List.exists_cons_of_ne_nil
    (List.splitOn_ne_nil '.' (groups.patch ++ rest))
  refine ⟨marks, third, more, ?_, hmarks, hnone⟩
  rw [heq, ← List.append_assoc, List.splitOn_append_cons_self_of_not_mem hfirst,
    List.splitOn_append_cons_self_of_not_mem (dot_not_decimal (hdecimal groups.minor (by simp))),
    hmore]

theorem part_number_marked {marks : List Char} (hmarks : ∀ c ∈ marks, c = 'v') (hne : part ≠ [])
    (hpart : ∀ c ∈ part, table.isDecimal c = true) (hshort : part.length ≤ intMaxStrDigits) :
    partNumber rt table (marks ++ part) = .ok (if marks = [] then table.value part else 0) := by
  cases marks with
  | nil =>
      rw [List.nil_append, partNumber, if_pos (all_digits_of_decimal hne hpart), if_pos rfl]
      exact int_of_bounded hpart hshort
  | cons mark marks =>
      have hmark : table.isDigit mark = false := by
        rw [hmarks mark List.mem_cons_self, table.isDigit_ascii _ (by decide)]
        rfl
      have hnot : table.allDigits (mark :: marks ++ part) = false := by
        simp [DigitTable.allDigits, hmark]
      rw [partNumber, hnot]
      rfl

/-- The major number a range is built from. -/
def baseMajor (rt : Runtime) (b : String) (bv : Version) : Nat :=
  if marked rt b then 0 else bv.major

theorem base_major_number {groups : SemverGroups} {marks : List Char}
    (hgroups : semverGroups rt table b = some groups) (hmarks : ∀ c ∈ marks, c = 'v')
    (hnone : marks = [] ↔ marked rt b = false)
    (hshort : ∀ part ∈ [groups.major, groups.minor, groups.patch],
      part.length ≤ intMaxStrDigits) :
    Writable (baseMajor rt b (groups.version table)) ∧
    partNumber rt table (marks ++ groups.major) =
      .ok (baseMajor rt b (groups.version table)) := by
  constructor
  · unfold baseMajor
    split
    · decide
    · exact value_writable (hshort _ (by simp))
  · rw [part_number_marked hmarks (semver_match_shape hgroups).1
      (semver_match_decimal hgroups _ (by simp)) (hshort _ (by simp)), baseMajor]
    cases hmarked : marked rt b with
    | true =>
        have hne : marks ≠ [] := fun h => by simp [hnone.mp h] at hmarked
        rw [if_neg hne, if_pos rfl]
    | false => rw [if_pos (hnone.mpr hmarked)]; rfl

theorem satisfies_caret (version : String) (hb : ParsesAs rt table b bv) :
    Writable (baseMajor rt b bv) ∧
    satisfiesConstraint rt table version ("^" ++ b) =
      inRange rt table version (majorRelease (baseMajor rt b bv))
        (majorRelease (baseMajor rt b bv + 1)) := by
  obtain ⟨groups, hgroups, rfl, -, hshort⟩ := hb.groups
  obtain ⟨marks, third, more, hsplit, hmarks, hnone⟩ := split_version hgroups
  obtain ⟨hwritable, hnumber⟩ := base_major_number hgroups hmarks hnone hshort
  refine ⟨hwritable, ?_⟩
  have hstrip : strip rt.chars.isSpace ("^" ++ b).toList =
      '^' :: rstrip rt.chars.isSpace b.toList := by
    rw [String.toList_append]
    exact strip_operator (by decide)
      (by simp [rt.chars.isSpace_ascii '^' (by decide), isAsciiSpace]) b.toList
  rw [satisfiesConstraint, hstrip, satisfiesStripped, if_neg (by simp)]
  simp only [strip_rstrip, hsplit, hnumber]
  rfl

theorem satisfies_tilde (version : String) (hb : ParsesAs rt table b bv) :
    Writable (baseMajor rt b bv) ∧ Writable bv.minor ∧
    satisfiesConstraint rt table version ("~" ++ b) =
      inRange rt table version (minorRelease (baseMajor rt b bv) bv.minor)
        (minorRelease (baseMajor rt b bv) (bv.minor + 1)) := by
  obtain ⟨groups, hgroups, rfl, -, hshort⟩ := hb.groups
  obtain ⟨marks, third, more, hsplit, hmarks, hnone⟩ := split_version hgroups
  have hdecimal := semver_match_decimal hgroups
  have hminorne := (semver_match_shape hgroups).2.1
  obtain ⟨hwritable, hnumber⟩ := base_major_number hgroups hmarks hnone hshort
  have hminor : partNumber rt table groups.minor = .ok (groups.version table).minor := by
    have hnumber : partNumber rt table ([] ++ groups.minor) =
        .ok (if [] = ([] : List Char) then table.value groups.minor else 0) :=
      part_number_marked (by simp) hminorne (hdecimal _ (by simp)) (hshort _ (by simp))
    rwa [List.nil_append, if_pos rfl] at hnumber
  refine ⟨hwritable, value_writable (hshort _ (by simp)), ?_⟩
  have hstrip : strip rt.chars.isSpace ("~" ++ b).toList =
      '~' :: rstrip rt.chars.isSpace b.toList := by
    rw [String.toList_append]
    exact strip_operator (by decide)
      (by simp [rt.chars.isSpace_ascii '~' (by decide), isAsciiSpace]) b.toList
  rw [satisfiesConstraint, hstrip, satisfiesStripped, if_neg (by simp)]
  simp only [strip_rstrip, hsplit, hnumber, hminor]
  rfl

/-- A parsed version is compared the same with white space around it. -/
theorem compare_stripped (version : String) (hb : ParsesAs rt table b bv) :
    compareSemver rt table version (.ofList (strip rt.chars.isSpace b.toList)) =
      compareSemver rt table version b := by
  have hgroups : semverGroups rt table (.ofList (strip rt.chars.isSpace b.toList)) =
      semverGroups rt table b := by
    obtain ⟨hhead, hlast⟩ := strip_ends rt.chars.isSpace b.toList
    rw [semverGroups, String.toList_ofList, strip_eq_self hhead hlast, semverGroups]
  obtain ⟨⟨parsed, hparse⟩, -⟩ := hb
  have hsame : parseSemver rt table (.ofList (strip rt.chars.isSpace b.toList)) =
      .ok (some parsed) := by
    rw [← hparse, parseSemver, hgroups, parseSemver]
  unfold compareSemver
  rw [hparse, hsame]
  cases parseSemver rt table version with
  | error e => rfl
  | ok pa => cases pa <;> rfl

/-- A constraint that begins with an operator and no further `=` is read by that operator. -/
theorem satisfies_operator (version : String) {op : Operator} (hop : op ∈ operators)
    (htext : text.head? ≠ some '=') :
    satisfiesStripped rt table version (op.text ++ text) =
      (compareSemver rt table version (.ofList (strip rt.chars.isSpace text))).map op.holds := by
  simp only [operators, List.mem_cons, List.not_mem_nil, or_false] at hop
  rcases hop with rfl | rfl | rfl | rfl | rfl
  · simp [satisfiesStripped, operators]
    rfl
  · simp [satisfiesStripped, operators]
    rfl
  · simp [satisfiesStripped, operators]
    rfl
  · cases text with
    | nil => simp [satisfiesStripped, operators]; rfl
    | cons c text =>
        have hne : c ≠ '=' := by simpa using htext
        simp [satisfiesStripped, operators, hne.symm]
        rfl
  · cases text with
    | nil => simp [satisfiesStripped, operators]; rfl
    | cons c text =>
        have hne : c ≠ '=' := by simpa using htext
        simp [satisfiesStripped, operators, hne.symm]
        rfl

theorem satisfies_comparison (version : String) {op : Operator} (hop : op ∈ operators)
    (hb : ParsesAs rt table b bv) :
    satisfiesConstraint rt table version (.ofList op.text ++ b) =
      (compareSemver rt table version b).map op.holds := by
  have hplain : ∀ c ∈ ['>', '<', '='], rt.chars.isSpace c = false := by
    intro c hc
    simp only [List.mem_cons, List.not_mem_nil, or_false] at hc
    rcases hc with rfl | rfl | rfl
    · exact (rt.chars.isSpace_ascii _ (by decide)).trans (by decide)
    · exact (rt.chars.isSpace_ascii _ (by decide)).trans (by decide)
    · exact (rt.chars.isSpace_ascii _ (by decide)).trans (by decide)
  have hchars : op.text ≠ [] ∧ ∀ c ∈ op.text, c ∈ ['>', '<', '='] := by
    simp only [operators, List.mem_cons, List.not_mem_nil, or_false] at hop
    rcases hop with rfl | rfl | rfl | rfl | rfl <;> simp
  -- a version cannot turn `>` into `>=`: its first character is a mark or a digit
  have hhead : (rstrip rt.chars.isSpace b.toList).head? ≠ some '=' := by
    intro hhead
    obtain ⟨groups, hgroups, -⟩ := hb.groups
    obtain ⟨marks, rest, heq, hmarks, -⟩ := stripped_shape hgroups
    obtain ⟨text, htext⟩ := List.head?_eq_some_iff.mp hhead
    have hstrip : strip rt.chars.isSpace b.toList = '=' :: rstrip rt.chars.isSpace text := by
      rw [← strip_rstrip, htext]
      exact strip_operator (List.cons_ne_nil '=' []) (by simpa using hplain '=' (by simp)) text
    rw [hstrip] at heq
    cases marks with
    | nil =>
        obtain ⟨d, major, hmajor⟩ := List.exists_cons_of_ne_nil (semver_match_shape hgroups).1
        rw [hmajor] at heq
        obtain rfl : '=' = d := (List.cons.inj heq).1
        have hdecimal := semver_match_decimal hgroups groups.major (by simp) '=' (by simp [hmajor])
        rw [isDecimal_ascii (by decide)] at hdecimal
        cases hdecimal
    | cons mark marks =>
        have hmark := hmarks mark List.mem_cons_self
        rw [hmark] at heq
        exact absurd (List.cons.inj heq).1 (by decide)
  rw [satisfiesConstraint, String.toList_append, String.toList_ofList,
    strip_operator hchars.1 (fun c hc => hplain c (hchars.2 c hc)),
    satisfies_operator version hop hhead, strip_rstrip, compare_stripped version hb]

/-- When a caret means what it says. Behind a mark the range is that of major number 0. Else, of the
versions with the same major number those below the base are the pre-releases of its first release,
the version is no pre-release of the next major number, and that number can be written. -/
def CaretFits (marked : Bool) (vv bv : Version) : Prop :=
  if marked = true ∧ bv.major ≠ 0 then
    (vv.major = 0 → vv.IsPrereleaseOf 0 0 0) ∧
      (vv.IsPrereleaseOf 1 0 0 ↔ vv.major = bv.major ∧ bv.le vv)
  else
    (vv.major = bv.major → (vv.lt bv ↔ vv.IsPrereleaseOf bv.major 0 0)) ∧
      ¬ vv.IsPrereleaseOf (bv.major + 1) 0 0 ∧
      (vv.lt (.release bv.major 0 0) ∨ Writable (bv.major + 1))

/-- When a tilde means what it says. -/
def TildeFits (marked : Bool) (vv bv : Version) : Prop :=
  if marked = true ∧ bv.major ≠ 0 then
    (vv.major = 0 → vv.minor = bv.minor → vv.IsPrereleaseOf 0 bv.minor 0) ∧
      ¬ vv.IsPrereleaseOf 0 (bv.minor + 1) 0 ∧
      ¬ (vv.major = bv.major ∧ vv.minor = bv.minor ∧ bv.le vv) ∧
      (vv.lt (.release 0 bv.minor 0) ∨ Writable (bv.minor + 1))
  else
    (vv.major = bv.major → vv.minor = bv.minor →
      (vv.lt bv ↔ vv.IsPrereleaseOf bv.major bv.minor 0)) ∧
      ¬ vv.IsPrereleaseOf bv.major (bv.minor + 1) 0 ∧
      (vv.lt (.release bv.major bv.minor 0) ∨ Writable (bv.minor + 1))

section

variable {early line pre next below writable : Prop} [Decidable early] [Decidable line]
variable [Decidable pre] [Decidable next] [Decidable below]

/-- When a range agrees with a line of versions. A version stands before the line, in it or after
it; `pre` are the pre-releases of the line's first release, `next` those of the next line's. -/
theorem line_fits (hpre : pre → line) (hearly : early → ¬ line) (hnext : next → ¬ line ∧ ¬ early) :
    (if early ∨ pre then decide (¬ below ∧ line) = false
      else writable ∧ decide (¬ below ∧ line) = decide (early ∨ line ∨ next)) ↔
    (line → (below ↔ pre)) ∧ ¬ next ∧ ((early ∨ pre) ∨ writable) := by
  by_cases he : early
  · have hnotline := hearly he
    have hnotnext : ¬ next := fun h => (hnext h).2 he
    simp [he, hnotline, hnotnext]
  · by_cases hl : line
    · have hnotnext : ¬ next := fun h => (hnext h).1 hl
      by_cases hp : pre <;> by_cases hb : below <;> simp [he, hl, hnotnext, hp, hb]
    · have hnotpre : ¬ pre := fun h => hl (hpre h)
      simp [he, hl, hnotpre, and_comm]

theorem other_line_fits {own : Prop} [Decidable own] (hpre : pre → line)
    (hearly : early → ¬ line) (hnext : next → ¬ line ∧ ¬ early) (hown : own → ¬ line ∧ ¬ early) :
    (if early ∨ pre then decide (¬ below ∧ own) = false
      else writable ∧ decide (¬ below ∧ own) = decide (early ∨ line ∨ next)) ↔
    (line → pre) ∧ (¬ early → (next ↔ own ∧ ¬ below)) ∧ ((early ∨ pre) ∨ writable) := by
  by_cases he : early
  · have hnotline := hearly he
    have hnotown : ¬ own := fun h => (hown h).2 he
    simp [he, hnotline, hnotown]
  · by_cases hl : line
    · have hnotnext : ¬ next := fun h => (hnext h).1 hl
      have hnotown : ¬ own := fun h => (hown h).1 hl
      by_cases hp : pre <;> simp [he, hl, hnotnext, hp, hnotown]
    · have hnotpre : ¬ pre := fun h => hl (hpre h)
      by_cases hn : next <;> by_cases ho : own <;> by_cases hb : below <;>
        simp [he, hl, hnotpre, hn, ho, hb]

end

/-- The major number a range is built from is the base's, unless a mark stands before it. -/
theorem base_major_eq (hmarked : ¬ (marked rt b = true ∧ bv.major ≠ 0)) :
    baseMajor rt b bv = bv.major := by
  unfold baseMajor
  split
  · rename_i hmark
    exact (Decidable.not_not.mp fun h => hmarked ⟨hmark, h⟩).symm
  · rfl

theorem lt_major_release (vv : Version) (major : Nat) :
    vv.lt (.release major 0 0) ↔ vv.major < major ∨ vv.IsPrereleaseOf major 0 0 := by
  rw [Version.lt_release_iff]
  simp

theorem caret_fits_iff (hv : ParsesAs rt table v vv) (hb : ParsesAs rt table b bv) :
    satisfiesConstraint rt table v ("^" ++ b) =
        .ok (decide (bv.le vv ∧ vv.major = bv.major)) ↔
      CaretFits (marked rt b) vv bv := by
  obtain ⟨hwritable, hsat⟩ := satisfies_caret v hb
  have hupper : ∀ major, vv.lt (.release (major + 1) 0 0) ↔
      vv.major < major ∨ vv.major = major ∨ vv.IsPrereleaseOf (major + 1) 0 0 := by
    intro major
    rw [lt_major_release, Nat.lt_succ_iff_lt_or_eq, or_assoc]
  rw [hsat, in_major_range_iff hv hwritable]
  -- the two bounds cut the versions at the line of the major number
  simp only [lt_major_release vv (baseMajor rt b bv), hupper, Version.le_iff_not_lt]
  unfold CaretFits
  by_cases hmarked : marked rt b = true ∧ bv.major ≠ 0
  · have hbase : baseMajor rt b bv = 0 := by rw [baseMajor, if_pos hmarked.1]
    have hwritten : Writable (0 + 1) := by decide
    rw [if_pos hmarked, hbase, other_line_fits (fun h => h.1) (by omega)
      (fun h => by have := h.1; omega) (fun h => by have := hmarked.2; omega)]
    simp [hwritten, Version.le_iff_not_lt]
  · rw [if_neg hmarked, base_major_eq hmarked, line_fits (fun h => h.1) (by omega)
      (fun h => by have := h.1; omega), lt_major_release]

theorem tilde_fits_iff (hv : ParsesAs rt table v vv) (hb : ParsesAs rt table b bv) :
    satisfiesConstraint rt table v ("~" ++ b) =
        .ok (decide (bv.le vv ∧ vv.major = bv.major ∧ vv.minor = bv.minor)) ↔
      TildeFits (marked rt b) vv bv := by
  obtain ⟨hmajor, hminor, hsat⟩ := satisfies_tilde v hb
  have hlower : ∀ major, vv.lt (.release major bv.minor 0) ↔
      (vv.major < major ∨ vv.major = major ∧ vv.minor < bv.minor) ∨
        vv.IsPrereleaseOf major bv.minor 0 := by
    intro major
    rw [Version.lt_release_iff, or_assoc]
  have hupper : ∀ major, vv.lt (.release major (bv.minor + 1) 0) ↔
      (vv.major < major ∨ vv.major = major ∧ vv.minor < bv.minor) ∨
        (vv.major = major ∧ vv.minor = bv.minor) ∨ vv.IsPrereleaseOf major (bv.minor + 1) 0 := by
    intro major
    rw [Version.lt_release_iff]
    by_cases hnext : vv.IsPrereleaseOf major (bv.minor + 1) 0
    · simp [hnext]
    · simp only [hnext, or_false]
      omega
  rw [hsat, in_minor_range_iff hv hmajor hminor]
  simp only [hlower, hupper, Version.le_iff_not_lt]
  unfold TildeFits
  by_cases hmarked : marked rt b = true ∧ bv.major ≠ 0
  · have hbase : baseMajor rt b bv = 0 := by rw [baseMajor, if_pos hmarked.1]
    rw [if_pos hmarked, hbase, other_line_fits (fun h => ⟨h.1, h.2.1⟩) (by omega)
      (fun h => by have := h.1; have := h.2.1; omega) (fun h => by have := hmarked.2; omega),
      hlower]
    -- the next line of major number 0 and the base's own line have no version in common
    have happart : ¬ (vv.IsPrereleaseOf 0 (bv.minor + 1) 0 ∧ vv.major = bv.major) := fun h => by
      have := h.1.1
      have := hmarked.2
      omega
    have hlate : vv.IsPrereleaseOf 0 (bv.minor + 1) 0 ∨ vv.major = bv.major ∧ vv.minor = bv.minor →
        ¬ (vv.major < 0 ∨ vv.major = 0 ∧ vv.minor < bv.minor) := by
      have := hmarked.2
      rintro (⟨hmajor, hminor, -⟩ | hown)
      · omega
      · omega
    rw [and_imp, Version.le_iff_not_lt]
    refine and_congr_right fun _ => ⟨fun ⟨hagree, hwritten⟩ => ⟨fun hnext => ?_, fun hown => ?_,
      hwritten⟩, fun ⟨hnext, hown, hwritten⟩ => ⟨fun _ => ?_, hwritten⟩⟩
    · exact happart ⟨hnext, ((hagree (hlate (.inl hnext))).mp hnext).1.1⟩
    · have hsame := (hagree (hlate (.inr ⟨hown.1, hown.2.1⟩))).mpr ⟨⟨hown.1, hown.2.1⟩, hown.2.2⟩
      exact happart ⟨hsame, hown.1⟩
    · exact iff_of_false hnext fun h => hown ⟨h.1.1, h.1.2, h.2⟩
  · rw [if_neg hmarked, base_major_eq hmarked, line_fits (fun h => ⟨h.1, h.2.1⟩) (by omega)
      (fun h => by have := h.1; have := h.2.1; omega), hlower]
    simp

/-- Whether a text is parsed at all. -/
def Parses (rt : Runtime) (table : DigitTable) (text : String) : Prop :=
  ∃ parsed, parseSemver rt table text = .ok (some parsed)

/-- What satisfies a constraint, without white space around it, though it is no version: a text
that does not come before a base with too few parts, any text above a version, and a text that an
operator admits against another in the order of texts. -/
def TextAdmits (rt : Runtime) (table : DigitTable) (version : String) : List Char → Prop
  | '^' :: rest =>
      let base := strip rt.chars.isSpace rest
      (base.splitOn '.').length < 2 ∧ ¬ version < .ofList base
  | '~' :: rest =>
      let base := strip rt.chars.isSpace rest
      (base.splitOn '.').length < 3 ∧ ¬ version < .ofList base
  | constraint =>
      match operators.find? (·.text.isPrefixOf constraint) with
      | some op =>
          let target := String.ofList (strip rt.chars.isSpace (constraint.drop op.text.length))
          Parses rt table target ∧ op.holds 1 = true ∨
            Unparsable rt table target ∧ op.holds (sign (compare version target)) = true
      | none => version = .ofList constraint

theorem compare_unparsable_parsed {target : String} (hv : Unparsable rt table v)
    (ht : Parses rt table target) : compareSemver rt table v target = .ok 1 := by
  obtain ⟨parsed, hparse⟩ := ht
  unfold compareSemver
  rw [hv, hparse]
  rfl

theorem compare_unparsable {target : String} (hv : Unparsable rt table v)
    (ht : Unparsable rt table target) :
    compareSemver rt table v target = .ok (sign (compare v target)) := by
  have hsame : compareSemver rt table v target =
      .ok (if v = target then 0 else if v < target then -1 else 1) := by
    unfold compareSemver
    rw [hv, ht]
    rfl
  rw [hsame]
  rcases compare_text_cases v target with ⟨hlt, hcompare⟩ | ⟨rfl, hcompare⟩ | ⟨hgt, hnot, hcompare⟩
  · have hne : v ≠ target := fun heq => String.not_le.mpr hlt (heq ▸ String.le_refl v)
    simp [hlt, hne, hcompare, sign]
  · simp [sign]
  · have hne : v ≠ target := fun heq => String.not_le.mpr hgt (heq ▸ String.le_refl v)
    simp [hnot, hne, hcompare, sign]

/-- A text with fewer than two full stops is no version. -/
theorem unparsable_of_parts {base : List Char}
    (h : ((strip rt.chars.isSpace base).splitOn '.').length < 3) :
    Unparsable rt table (.ofList (strip rt.chars.isSpace base)) := by
  unfold Unparsable parseSemver
  cases hgroups : semverGroups rt table (.ofList (strip rt.chars.isSpace base)) with
  | none => rfl
  | some groups =>
      obtain ⟨marks, third, more, hsplit, -, -⟩ := split_version hgroups
      obtain ⟨hhead, hlast⟩ := strip_ends rt.chars.isSpace base
      rw [String.toList_ofList, strip_eq_self hhead hlast] at hsplit
      rw [hsplit] at h
      simp only [List.length_cons] at h
      omega

theorem at_least_unparsable {base : List Char} (hv : Unparsable rt table v)
    (h : ((strip rt.chars.isSpace base).splitOn '.').length < 3) :
    atLeast rt table v (strip rt.chars.isSpace base) = .ok true ↔
      ¬ v < .ofList (strip rt.chars.isSpace base) := by
  rw [atLeast, compare_unparsable hv (unparsable_of_parts h)]
  rcases compare_text_cases v (.ofList (strip rt.chars.isSpace base)) with
    ⟨hlt, hcompare⟩ | ⟨heq, hcompare⟩ | ⟨hgt, hnot, hcompare⟩
  · simp [bind, Except.bind, hlt, hcompare, sign]
  · have hnot : ¬ v < .ofList (strip rt.chars.isSpace base) := fun h =>
      String.not_le.mpr h (heq ▸ String.le_refl _)
    simp [bind, Except.bind, hnot, hcompare, sign]
  · simp [bind, Except.bind, hnot, hcompare, sign]

/-- No text that is no version lies in a range of releases. -/
theorem in_range_unparsable {low high : Except Failure String} (hv : Unparsable rt table v)
    (hlow : ∀ text, low = .ok text → Parses rt table text)
    (hhigh : ∀ text, high = .ok text → Parses rt table text) :
    inRange rt table v low high ≠ .ok true := by
  cases low with
  | error e => simp [inRange, bind, Except.bind]
  | ok low =>
      have hone := compare_unparsable_parsed hv (hlow low rfl)
      cases high with
      | error e => simp [inRange, bind, Except.bind, hone]
      | ok high =>
          simp [inRange, bind, Except.bind, hone, compare_unparsable_parsed hv (hhigh high rfl)]

theorem str_of_spec {n : Nat} {text : String} (h : strOf n = .ok text) :
    Writable n ∧ text = Nat.repr n := by
  by_cases hn : Writable n
  · rw [str_of_ok hn] at h
    exact ⟨hn, (Except.ok.inj h).symm⟩
  · obtain ⟨failure, hfailure⟩ := str_of_error hn
    rw [hfailure] at h
    cases h

/-- What a range writes is parsed. -/
theorem plain_release_parses {major minor : Nat} (hmajor : Writable major)
    (hminor : Writable minor) : Parses rt table (plainRelease major minor 0).text := by
  have hparse : parseSemver rt table (plainRelease major minor 0).text = _ :=
    parse_semver_eq (plain_release_bounded hmajor hminor)
  rw [plain_release_groups] at hparse
  exact ⟨_, hparse⟩

theorem major_release_parses {major : Nat} {text : String} (h : majorRelease major = .ok text) :
    Parses rt table text := by
  unfold majorRelease at h
  cases hmajor : strOf major with
  | error e => simp [hmajor, bind, Except.bind] at h
  | ok written =>
      obtain ⟨hwritable, rfl⟩ := str_of_spec hmajor
      simp only [hmajor, bind, Except.bind, Except.ok.injEq] at h
      rw [← h, ← major_release_text]
      exact plain_release_parses hwritable (by decide)

theorem minor_release_parses {major minor : Nat} {text : String}
    (h : minorRelease major minor = .ok text) : Parses rt table text := by
  unfold minorRelease at h
  cases hmajor : strOf major with
  | error e => simp [hmajor, bind, Except.bind] at h
  | ok writtenMajor =>
  cases hminor : strOf minor with
  | error e => simp [hmajor, hminor, bind, Except.bind] at h
  | ok writtenMinor =>
      obtain ⟨hmajorwritable, rfl⟩ := str_of_spec hmajor
      obtain ⟨hminorwritable, rfl⟩ := str_of_spec hminor
      simp only [hmajor, hminor, bind, Except.bind, Except.ok.injEq] at h
      rw [← h, ← plain_release_text]
      exact plain_release_parses hmajorwritable hminorwritable

theorem satisfies_text_iff (hv : Unparsable rt table v) (constraint : List Char) :
    satisfiesStripped rt table v constraint = .ok true ↔
      constraint = ['*'] ∨ TextAdmits rt table v constraint := by
  unfold satisfiesStripped
  by_cases hany : constraint = ['*']
  · simp [hany]
  rw [if_neg hany]
  simp only [hany, false_or]
  unfold TextAdmits
  split
  · rename_i rest
    dsimp only
    split
    · rename_i first second more hsplit
      rw [hsplit]
      refine iff_of_false (fun h => ?_) fun h => by
        have := h.1
        simp only [List.length_cons] at this
        omega
      cases hnumber : partNumber rt table first with
      | error e => simp [hnumber, bind, Except.bind] at h
      | ok major =>
          rw [hnumber] at h
          exact in_range_unparsable hv (fun _ => major_release_parses)
            (fun _ => major_release_parses) h
    · rename_i hshort
      have hlength : ((strip rt.chars.isSpace rest).splitOn '.').length < 2 := by
        cases hparts : (strip rt.chars.isSpace rest).splitOn '.' with
        | nil => simp
        | cons first parts =>
            cases parts with
            | nil => simp
            | cons second more => exact absurd hparts (hshort first second more)
      rw [at_least_unparsable hv (by omega), and_iff_right hlength]
  · rename_i rest
    dsimp only
    split
    · rename_i first second third more hsplit
      rw [hsplit]
      refine iff_of_false (fun h => ?_) fun h => by
        have := h.1
        simp only [List.length_cons] at this
        omega
      cases hmajor : partNumber rt table first with
      | error e => simp [hmajor, bind, Except.bind] at h
      | ok major =>
      cases hminor : partNumber rt table second with
      | error e => simp [hmajor, hminor, bind, Except.bind] at h
      | ok minor =>
          rw [hmajor, hminor] at h
          exact in_range_unparsable hv (fun _ => minor_release_parses)
            (fun _ => minor_release_parses) h
    · rename_i hshort
      have hlength : ((strip rt.chars.isSpace rest).splitOn '.').length < 3 := by
        cases hparts : (strip rt.chars.isSpace rest).splitOn '.' with
        | nil => simp
        | cons first parts =>
            cases parts with
            | nil => simp
            | cons second parts =>
                cases parts with
                | nil => simp
                | cons third more => exact absurd hparts (hshort first second third more)
      rw [at_least_unparsable hv (by omega), and_iff_right hlength]
  · cases hfind : operators.find? (·.text.isPrefixOf constraint) with
    | some op =>
        dsimp only
        generalize String.ofList (strip rt.chars.isSpace (constraint.drop op.text.length)) = target
        cases hparse : parseSemver rt table target with
        | error e =>
            have hcompare : compareSemver rt table v target = .error e := by
              unfold compareSemver
              rw [hv, hparse]
              rfl
            simp [hcompare, bind, Except.bind, Parses, Unparsable, hparse]
        | ok parsed =>
            cases parsed with
            | none =>
                simp [compare_unparsable hv hparse, bind, Except.bind, Parses, Unparsable, hparse]
            | some version =>
                simp [compare_unparsable_parsed hv ⟨version, hparse⟩, bind, Except.bind, Parses,
                  Unparsable, hparse]
    | none =>
        dsimp only
        cases hparse : parseSemver rt table (.ofList constraint) with
        | error e =>
            have hcompare : compareSemver rt table v (.ofList constraint) = .error e := by
              unfold compareSemver
              rw [hv, hparse]
              rfl
            have hne : v ≠ .ofList constraint := by
              rintro rfl
              rw [hv] at hparse
              cases hparse
            simp [hcompare, bind, Except.bind, hne]
        | ok parsed =>
            cases parsed with
            | none =>
                rw [compare_unparsable hv hparse]
                rcases compare_text_cases v (.ofList constraint) with
                  ⟨hlt, hcompare⟩ | ⟨heq, hcompare⟩ | ⟨hgt, hnot, hcompare⟩
                · have hne : v ≠ .ofList constraint := fun heq =>
                    String.not_le.mpr hlt (heq ▸ String.le_refl v)
                  simp [bind, Except.bind, hcompare, sign, hne]
                · simp [bind, Except.bind, sign, heq]
                · have hne : v ≠ .ofList constraint := fun heq =>
                    String.not_le.mpr hgt (heq ▸ String.le_refl v)
                  simp [bind, Except.bind, hcompare, sign, hne]
            | some version =>
                have hne : v ≠ .ofList constraint := by
                  rintro rfl
                  rw [hv] at hparse
                  cases hparse
                simp [compare_unparsable_parsed hv ⟨version, hparse⟩, bind, Except.bind, hne]

end

section

variable (rt : Runtime) (table : DigitTable)

/-- A constraint on a parsed base asks a parsed version for what its operator says, and a text that
is no version satisfies no constraint but `*` and itself. -/
def MeansWhatItSays (version constraint : String) : Prop :=
  (∀ base vv bv, ParsesAs rt table version vv → ParsesAs rt table base bv →
    (constraint = "^" ++ base → satisfiesConstraint rt table version constraint =
      .ok (decide (bv.le vv ∧ vv.major = bv.major))) ∧
    (constraint = "~" ++ base → satisfiesConstraint rt table version constraint =
      .ok (decide (bv.le vv ∧ vv.major = bv.major ∧ vv.minor = bv.minor))) ∧
    ∀ op ∈ operators, constraint = .ofList op.text ++ base →
      satisfiesConstraint rt table version constraint =
        (compareSemver rt table version base).map op.holds) ∧
  (Unparsable rt table version → satisfiesConstraint rt table version constraint = .ok true →
    strip rt.chars.isSpace constraint.toList = ['*'] ∨
      .ofList (strip rt.chars.isSpace constraint.toList) = version ∨ constraint = version)

/-- The versions and constraints read as they are meant: a range fits its base, and a text that is
no version is admitted by nothing but `*` and itself. -/
def ReadAsMeant (version constraint : String) : Prop :=
  (∀ base vv bv, ParsesAs rt table version vv → ParsesAs rt table base bv →
    (constraint = "^" ++ base → CaretFits (marked rt base) vv bv) ∧
    (constraint = "~" ++ base → TildeFits (marked rt base) vv bv)) ∧
  (Unparsable rt table version →
    TextAdmits rt table version (strip rt.chars.isSpace constraint.toList) →
    strip rt.chars.isSpace constraint.toList = ['*'] ∨
      .ofList (strip rt.chars.isSpace constraint.toList) = version ∨ constraint = version)

/-- Exactly those constraints mean what they say that are read as they are meant. -/
theorem constraint_means_iff (version constraint : String) :
    MeansWhatItSays rt table version constraint ↔ ReadAsMeant rt table version constraint := by
  refine and_congr ⟨fun h base vv bv hv hb => ⟨?_, ?_⟩, fun h base vv bv hv hb => ⟨?_, ?_, ?_⟩⟩
    (forall_congr' fun hv => ?_)
  · rintro rfl
    exact (caret_fits_iff hv hb).mp ((h base vv bv hv hb).1 rfl)
  · rintro rfl
    exact (tilde_fits_iff hv hb).mp ((h base vv bv hv hb).2.1 rfl)
  · rintro rfl
    exact (caret_fits_iff hv hb).mpr ((h base vv bv hv hb).1 rfl)
  · rintro rfl
    exact (tilde_fits_iff hv hb).mpr ((h base vv bv hv hb).2 rfl)
  · rintro op hop rfl
    exact satisfies_comparison version hop hb
  · rw [satisfiesConstraint, satisfies_text_iff hv]
    constructor
    · exact fun h hadmits => h (.inr hadmits)
    · rintro h (hany | hadmits)
      · exact .inl hany
      · exact h hadmits

end

/-- Version 1.0.0 satisfies `^1.2.3`. -/
theorem constraint_means_iff_counterexample :
    ¬ ∀ version constraint,
      MeansWhatItSays Platform.sample.toRuntime .ascii version constraint := by
  intro h
  have hone : ParsesAs Platform.sample.toRuntime .ascii "1.0.0" ⟨1, 0, 0, none⟩ :=
    ⟨⟨⟨1, 0, 0, none, none⟩, by decide +kernel⟩, by decide +kernel⟩
  have hbase : ParsesAs Platform.sample.toRuntime .ascii "1.2.3" ⟨1, 2, 3, none⟩ :=
    ⟨⟨⟨1, 2, 3, none, none⟩, by decide +kernel⟩, by decide +kernel⟩
  have hmeant := ((h "1.0.0" "^1.2.3").1 "1.2.3" _ _ hone hbase).1 (by decide)
  have hanswer : satisfiesConstraint Platform.sample.toRuntime .ascii "1.0.0" "^1.2.3" =
      .ok true := by
    decide +kernel
  rw [hanswer] at hmeant
  exact absurd (Except.ok.inj hmeant) (by decide)

end Capmesh
