import Capmesh.Model.Platform
import Capmesh.Python.Digits
import Capmesh.Versions.Precedence

/-!
# Versions of capabilities

The version comparison of the registry. `compare_semver_eq` reads it as an order on all texts: a
text that is a version comes before one that is not, versions stand in their precedence, and other
texts in the order of their characters.
-/

namespace Capmesh

open Python Versions

/-- The groups of a match of `_SEMVER_RE`. -/
structure SemverGroups where
  major : List Char
  minor : List Char
  patch : List Char
  prerelease : Option (List Char)
  build : Option (List Char)

/-- A parsed version. -/
structure Semver where
  major : Nat
  minor : Nat
  patch : Nat
  prerelease : Option (List Char)
  build : Option (List Char)
  deriving DecidableEq, Repr

/-- `(x+)` of a pattern, for a class of characters: the run matched and the rest. -/
def someOf (test : Char → Bool) (text : List Char) : Option (List Char × List Char) :=
  if text.takeWhile test = [] then none else some (text.takeWhile test, text.dropWhile test)

/-- A literal character of a pattern. -/
def literal (c : Char) : List Char → Option (List Char)
  | d :: rest => if d = c then some rest else none
  | [] => none

/-- `[0-9A-Za-z.-]`. -/
def isIdentifierChar (c : Char) : Bool := c.isAlphanum || c == '.' || c == '-'

/-- `(?:m([0-9A-Za-z.-]+))?` for a mark `m`: the group and the rest. -/
def markedPart (mark : Char) (text : List Char) : Option (List Char) × List Char :=
  match (literal mark text).bind (someOf isIdentifierChar) with
  | some (part, rest) => (some part, rest)
  | none => (none, text)

variable (rt : Runtime) (table : DigitTable)

/-- `_SEMVER_RE.match(text)`. No character class overlaps with what follows it, so the first way
to match is the only one; `$` also matches before a final line feed. -/
def semverMatch (text : List Char) : Option SemverGroups := do
  let (major, rest) ← someOf table.isDecimal text
  let rest ← literal '.' rest
  let (minor, rest) ← someOf table.isDecimal rest
  let rest ← literal '.' rest
  let (patch, rest) ← someOf table.isDecimal rest
  let (prerelease, rest) := markedPart '-' rest
  let (build, rest) := markedPart '+' rest
  if rest = [] ∨ rest = ['\n'] then some ⟨major, minor, patch, prerelease, build⟩ else none

/-- `_SEMVER_RE.match(version.strip().lstrip("v"))`. -/
def semverGroups (version : String) : Option SemverGroups :=
  semverMatch table ((strip rt.chars.isSpace version.toList).dropWhile (· = 'v'))

/-- `int(text)`, with its `ValueError`. -/
def intOf (text : List Char) : Except Failure Nat :=
  (table.int rt.repr text).mapError .value

/-- `parse_semver`. -/
def parseSemver (version : String) : Except Failure (Option Semver) :=
  match semverGroups rt table version with
  | none => .ok none
  | some groups => do
      let major ← intOf rt table groups.major
      let minor ← intOf rt table groups.minor
      let patch ← intOf rt table groups.patch
      .ok (some ⟨major, minor, patch, groups.prerelease, groups.build⟩)

/-- The loop of `compare_semver` over the release numbers. -/
def compareFields : List (Nat × Nat) → Option Int
  | [] => none
  | (x, y) :: rest => if x < y then some (-1) else if x > y then some 1 else compareFields rest

/-- The loop of `compare_semver` over the identifiers of two pre-releases, and the comparison of
their lengths. -/
def compareIds : List (List Char) → List (List Char) → Except Failure Int
  | [], [] => .ok 0
  | [], _ :: _ => .ok (-1)
  | _ :: _, [] => .ok 1
  | pai :: paIds, pbi :: pbIds =>
      match table.allDigits pai, table.allDigits pbi with
      | true, true => do
          let ia ← intOf rt table pai
          let ib ← intOf rt table pbi
          if ia < ib then .ok (-1) else if ia > ib then .ok 1 else compareIds paIds pbIds
      | true, false => .ok (-1)
      | false, true => .ok 1
      | false, false =>
          if String.ofList pai < String.ofList pbi then .ok (-1)
          else if String.ofList pai > String.ofList pbi then .ok 1
          else compareIds paIds pbIds

/-- `compare_semver`. -/
def compareSemver (a b : String) : Except Failure Int := do
  let pa ← parseSemver rt table a
  let pb ← parseSemver rt table b
  match pa, pb with
  | none, none => .ok (if a = b then 0 else if a < b then -1 else 1)
  | none, some _ => .ok 1
  | some _, none => .ok (-1)
  | some pa, some pb =>
      match compareFields [(pa.major, pb.major), (pa.minor, pb.minor), (pa.patch, pb.patch)] with
      | some result => .ok result
      | none =>
          match pa.prerelease, pb.prerelease with
          | none, none => .ok 0
          | none, some _ => .ok 1
          | some _, none => .ok (-1)
          | some paPre, some pbPre =>
              compareIds rt table (paPre.splitOn '.') (pbPre.splitOn '.')

/-- One identifier of a pre-release, as `compare_semver` takes it. -/
def identifier (part : List Char) : Identifier :=
  if table.allDigits part then .numeric (table.value part) else .text (String.ofList part)

/-- The version the groups of a match stand for. -/
def SemverGroups.version (groups : SemverGroups) : Version :=
  ⟨table.value groups.major, table.value groups.minor, table.value groups.patch,
    groups.prerelease.map fun part => (part.splitOn '.').map (identifier table)⟩

/-- What `parse_semver` makes of the groups of a match, if `int` reads them all. -/
def SemverGroups.parsed (groups : SemverGroups) : Semver :=
  ⟨table.value groups.major, table.value groups.minor, table.value groups.patch,
    groups.prerelease, groups.build⟩

/-- The version a text stands for, if it is one. -/
def versionOf (version : String) : Option Version :=
  (semverGroups rt table version).map (·.version table)

/-- The order of all texts behind `compare_semver`. -/
def semverOrder : String → String → Ordering :=
  orderBy (versionOf rt table) Version.order compare

instance : Std.OrientedCmp (semverOrder rt table) :=
  inferInstanceAs (Std.OrientedCmp (orderBy _ _ _))

instance : Std.TransCmp (semverOrder rt table) :=
  inferInstanceAs (Std.TransCmp (orderBy _ _ _))

/-- The texts of a version that `compare_semver` reads as numbers. -/
def SemverGroups.numerals (groups : SemverGroups) : List (List Char) :=
  [groups.major, groups.minor, groups.patch] ++
    (groups.prerelease.elim [] (·.splitOn '.')).filter table.allDigits

/-- Every numeric field of a text is short enough for `int`. -/
def BoundedFields (version : String) : Prop :=
  ∀ groups ∈ semverGroups rt table version, ∀ part ∈ groups.numerals table,
    part.length ≤ intMaxStrDigits

instance (version : String) : Decidable (BoundedFields rt table version) :=
  decidable_of_iff (∀ groups ∈ (semverGroups rt table version).toList,
    ∀ part ∈ groups.numerals table, part.length ≤ intMaxStrDigits) (by simp [BoundedFields])

section

variable {rt : Runtime} {table : DigitTable} {a b : String} {text part : List Char}

theorem some_of_spec {test : Char → Bool} {rest : List Char}
    (h : someOf test text = some (part, rest)) :
    part ≠ [] ∧ (∀ c ∈ part, test c = true) ∧ text = part ++ rest := by
  unfold someOf at h
  split at h
  · cases h
  · rename_i hne
    cases h
    exact ⟨hne, fun c hc => List.all_eq_true.mp List.all_takeWhile c hc,
      List.takeWhile_append_dropWhile.symm⟩

theorem semver_match_decimal {groups : SemverGroups} (h : semverMatch table text = some groups) :
    ∀ part ∈ [groups.major, groups.minor, groups.patch], ∀ c ∈ part, table.isDecimal c = true := by
  unfold semverMatch at h
  simp only [Option.bind_eq_bind, Option.bind_eq_some_iff, Prod.exists] at h
  obtain ⟨major, rest, hmajor, rest₁, -, minor, rest₂, hminor, rest₃, -, patch, rest₄, hpatch, h⟩ :=
    h
  split at h
  · cases h
    intro part hpart
    simp only [List.mem_cons, List.not_mem_nil, or_false] at hpart
    rcases hpart with rfl | rfl | rfl
    · exact (some_of_spec hmajor).2.1
    · exact (some_of_spec hminor).2.1
    · exact (some_of_spec hpatch).2.1
  · cases h

theorem int_of_bounded (h : ∀ c ∈ part, table.isDecimal c = true)
    (hlength : part.length ≤ intMaxStrDigits) : intOf rt table part = .ok (table.value part) := by
  rw [intOf, int_of_decimal rt.repr h hlength]
  rfl

/-- A text whose release numbers are short is parsed. -/
theorem parse_semver_of_short (h : ∀ groups ∈ semverGroups rt table a,
      ∀ part ∈ [groups.major, groups.minor, groups.patch], part.length ≤ intMaxStrDigits) :
    parseSemver rt table a = .ok ((semverGroups rt table a).map (·.parsed table)) := by
  unfold parseSemver
  cases hgroups : semverGroups rt table a with
  | none => rfl
  | some groups =>
      have hdecimal := semver_match_decimal hgroups
      have hint : ∀ part ∈ [groups.major, groups.minor, groups.patch],
          intOf rt table part = .ok (table.value part) := fun part hpart =>
        int_of_bounded (hdecimal part hpart) (h groups hgroups part hpart)
      simp only [hint groups.major (by simp), hint groups.minor (by simp),
        hint groups.patch (by simp)]
      rfl

theorem parse_semver_eq (h : BoundedFields rt table a) :
    parseSemver rt table a = .ok ((semverGroups rt table a).map (·.parsed table)) :=
  parse_semver_of_short fun groups hgroups part hpart =>
    h groups hgroups part (List.mem_append_left _ hpart)

/-- A number that `int` reads has its value. -/
theorem int_of_ok {n : Nat} (h : ∀ c ∈ part, table.isDecimal c = true)
    (hok : intOf rt table part = .ok n) : n = table.value part ∧ part.length ≤ intMaxStrDigits := by
  by_cases hlength : part.length ≤ intMaxStrDigits
  · rw [int_of_bounded h hlength] at hok
    exact ⟨(Except.ok.inj hok).symm, hlength⟩
  · obtain ⟨hmap, hsame⟩ := map_m_decimal h
    simp only [intOf, DigitTable.int, hmap, hsame, if_neg hlength] at hok
    cases hok

/-- What is parsed is the groups of its match, each number short enough for `int`. -/
theorem parse_semver_ok {parsed : Option Semver} (h : parseSemver rt table a = .ok parsed) :
    parsed = (semverGroups rt table a).map (·.parsed table) ∧
      ∀ groups ∈ semverGroups rt table a, ∀ part ∈ [groups.major, groups.minor, groups.patch],
        part.length ≤ intMaxStrDigits := by
  unfold parseSemver at h
  cases hgroups : semverGroups rt table a with
  | none =>
      rw [hgroups] at h
      cases h
      exact ⟨rfl, by simp⟩
  | some groups =>
      have hdecimal := semver_match_decimal hgroups
      simp only [hgroups] at h
      cases hmajor : intOf rt table groups.major with
      | error e => simp [hmajor, bind, Except.bind] at h
      | ok major =>
      cases hminor : intOf rt table groups.minor with
      | error e => simp [hmajor, hminor, bind, Except.bind] at h
      | ok minor =>
      cases hpatch : intOf rt table groups.patch with
      | error e => simp [hmajor, hminor, hpatch, bind, Except.bind] at h
      | ok patch =>
      simp only [hmajor, hminor, hpatch, bind, Except.bind, Except.ok.injEq] at h
      subst h
      obtain ⟨rfl, hmajorshort⟩ := int_of_ok (hdecimal _ (by simp)) hmajor
      obtain ⟨rfl, hminorshort⟩ := int_of_ok (hdecimal _ (by simp)) hminor
      obtain ⟨rfl, hpatchshort⟩ := int_of_ok (hdecimal _ (by simp)) hpatch
      refine ⟨rfl, fun found hfound part hpart => ?_⟩
      obtain rfl : groups = found := Option.some.inj hfound
      simp only [List.mem_cons, List.not_mem_nil, or_false] at hpart
      rcases hpart with rfl | rfl | rfl
      · exact hmajorshort
      · exact hminorshort
      · exact hpatchshort

/-- The loop over the release numbers decides as far as they differ. -/
theorem compare_fields_ok (fields : List (Nat × Nat)) {o : Ordering} {rest : Except Failure Int}
    (hrest : rest = .ok (sign o)) :
    (match compareFields fields with
      | some result => .ok result
      | none => rest) =
      Except.ok (sign (fields.foldr (fun field o => (compare field.1 field.2).then o) o)) := by
  induction fields with
  | nil => exact hrest
  | cons field fields ih =>
      obtain ⟨x, y⟩ := field
      rcases Nat.lt_trichotomy x y with hlt | rfl | hgt
      · simp [compareFields, hlt, Nat.compare_eq_lt.mpr hlt, sign]
      · simpa [compareFields] using ih
      · have hnot : ¬ x < y := by omega
        simp [compareFields, hnot, hgt, Nat.compare_eq_gt.mpr hgt, sign]

theorem mem_intercalate_of_mem {parts : List (List Char)} {sep c : Char} (hpart : part ∈ parts)
    (hc : c ∈ part) : c ∈ [sep].intercalate parts := by
  induction parts with
  | nil => cases hpart
  | cons first parts ih =>
      cases parts with
      | nil =>
          obtain rfl := List.mem_singleton.mp hpart
          simpa using hc
      | cons next parts =>
          rw [List.intercalate_cons_cons]
          rcases List.mem_cons.mp hpart with rfl | hpart
          · exact List.mem_append_left _ (List.mem_append_left _ hc)
          · exact List.mem_append_right _ (ih hpart)

theorem mem_of_mem_split {sep c : Char} (hpart : part ∈ text.splitOn sep) (hc : c ∈ part) :
    c ∈ text := by
  have hmem : c ∈ [sep].intercalate (text.splitOn sep) := mem_intercalate_of_mem hpart hc
  rwa [List.intercalate_splitOn] at hmem

theorem marked_part_spec {mark : Char} {rest : List Char}
    (h : markedPart mark text = (some part, rest)) : ∀ c ∈ part, isIdentifierChar c = true := by
  unfold markedPart at h
  cases hrun : (literal mark text).bind (someOf isIdentifierChar) with
  | none => simp [hrun] at h
  | some run =>
      obtain ⟨found, after⟩ := run
      simp only [hrun, Prod.mk.injEq, Option.some.injEq] at h
      obtain ⟨rfl, -⟩ := h
      obtain ⟨start, -, hsome⟩ := Option.bind_eq_some_iff.mp hrun
      exact (some_of_spec hsome).2.1

/-- The pre-release of a match has only the characters of its class. -/
theorem semver_match_prerelease {groups : SemverGroups} (h : semverMatch table text = some groups) :
    ∀ part ∈ groups.prerelease, ∀ c ∈ part, isIdentifierChar c = true := by
  unfold semverMatch at h
  simp only [Option.bind_eq_bind, Option.bind_eq_some_iff, Prod.exists] at h
  obtain ⟨major, rest, -, rest₁, -, minor, rest₂, -, rest₃, -, patch, rest₄, -, h⟩ := h
  cases hpre : markedPart '-' rest₄ with
  | mk prerelease rest₅ =>
      rw [hpre] at h
      split at h
      · cases h
        intro part hpart
        obtain rfl : prerelease = some part := hpart
        exact marked_part_spec hpre
      · cases h

theorem identifier_char_code {c : Char} (h : isIdentifierChar c = true) : c.toNat < 128 := by
  have hval : c.val.toNat = c.toNat := rfl
  simp only [isIdentifierChar, Char.isAlphanum, Char.isAlpha, Char.isUpper, Char.isLower,
    Char.isDigit, Bool.or_eq_true, Bool.and_eq_true, decide_eq_true_eq, beq_iff_eq, ge_iff_le,
    UInt32.le_iff_toNat_le] at h
  have hz : 'z'.val.toNat = 122 := rfl
  have hupper : 'Z'.val.toNat = 90 := rfl
  have hnine : '9'.val.toNat = 57 := rfl
  rcases h with (((⟨-, h⟩ | ⟨-, h⟩) | ⟨-, h⟩) | rfl) | rfl
  · omega
  · omega
  · omega
  · decide
  · decide

theorem all_digits_decimal (hchars : ∀ c ∈ part, isIdentifierChar c = true)
    (h : table.allDigits part = true) : ∀ c ∈ part, table.isDecimal c = true := by
  intro c hc
  have hall : part.all table.isDigit = true := (Bool.and_eq_true _ _ ▸ h).2
  have hdigit := List.all_eq_true.mp hall c hc
  have hcode := identifier_char_code (hchars c hc)
  rw [isDecimal_ascii hcode, ← table.isDigit_ascii c hcode, hdigit]

theorem compare_text_cases (s t : String) :
    (s < t ∧ compare s t = .lt) ∨ (s = t ∧ compare s t = .eq) ∨
      (t < s ∧ ¬ s < t ∧ compare s t = .gt) := by
  have hcompare : compare s t = if s < t then .lt else if s = t then .eq else .gt := rfl
  by_cases hlt : s < t
  · exact .inl ⟨hlt, by rw [hcompare, if_pos hlt]⟩
  · by_cases heq : s = t
    · exact .inr (.inl ⟨heq, by rw [hcompare, if_neg hlt, if_pos heq]⟩)
    · have hle : t ≤ s := Decidable.not_not.mp fun h => hlt (String.not_le.mp h)
      have hgt : t < s := String.not_le.mp fun h => heq (String.le_antisymm h hle)
      exact .inr (.inr ⟨hgt, hlt, by rw [hcompare, if_neg hlt, if_neg heq]⟩)

/-- The loop over the identifiers is their lexicographic order. -/
theorem compare_ids_eq {paIds pbIds : List (List Char)}
    (ha : ∀ part ∈ paIds, ∀ c ∈ part, isIdentifierChar c = true)
    (hb : ∀ part ∈ pbIds, ∀ c ∈ part, isIdentifierChar c = true)
    (hashort : ∀ part ∈ paIds, table.allDigits part = true → part.length ≤ intMaxStrDigits)
    (hbshort : ∀ part ∈ pbIds, table.allDigits part = true → part.length ≤ intMaxStrDigits) :
    compareIds rt table paIds pbIds = .ok (sign (List.compareLex Identifier.order
      (paIds.map (identifier table)) (pbIds.map (identifier table)))) := by
  induction paIds generalizing pbIds with
  | nil => cases pbIds <;> rfl
  | cons pai paIds ih =>
      cases pbIds with
      | nil => rfl
      | cons pbi pbIds =>
          obtain ⟨hpai, ha⟩ := List.forall_mem_cons.mp ha
          obtain ⟨hpbi, hb⟩ := List.forall_mem_cons.mp hb
          obtain ⟨hpaishort, hashort⟩ := List.forall_mem_cons.mp hashort
          obtain ⟨hpbishort, hbshort⟩ := List.forall_mem_cons.mp hbshort
          have ih := ih ha hb hashort hbshort
          simp only [List.map_cons, List.compareLex_cons_cons, compareIds, identifier]
          cases hadigits : table.allDigits pai <;> cases hbdigits : table.allDigits pbi
          · simp only [Bool.false_eq_true, if_false, Identifier.order]
            rcases compare_text_cases (String.ofList pai) (String.ofList pbi) with
              ⟨hlt, hcompare⟩ | ⟨heq, hcompare⟩ | ⟨hgt, hnot, hcompare⟩
            · simp [hlt, hcompare, sign]
            · simp [heq, ih]
            · simp [hgt, hnot, hcompare, sign]
          · rfl
          · rfl
          · have hia : intOf rt table pai = .ok (table.value pai) :=
              int_of_bounded (all_digits_decimal hpai hadigits) (hpaishort hadigits)
            have hib : intOf rt table pbi = .ok (table.value pbi) :=
              int_of_bounded (all_digits_decimal hpbi hbdigits) (hpbishort hbdigits)
            simp only [hia, hib, if_true, Identifier.order]
            rcases Nat.lt_trichotomy (table.value pai) (table.value pbi) with hlt | heq | hgt
            · simp [bind, Except.bind, hlt, Nat.compare_eq_lt.mpr hlt, sign]
            · simp [bind, Except.bind, heq, ih]
            · have hnot : ¬ table.value pai < table.value pbi := by omega
              simp [bind, Except.bind, hnot, hgt, Nat.compare_eq_gt.mpr hgt, sign]

theorem compare_prerelease_eq {paGroups pbGroups : SemverGroups} {paPre pbPre : List Char}
    (hpa : semverGroups rt table a = some paGroups) (hpb : semverGroups rt table b = some pbGroups)
    (hpaPre : paGroups.prerelease = some paPre) (hpbPre : pbGroups.prerelease = some pbPre)
    (ha : BoundedFields rt table a) (hb : BoundedFields rt table b) :
    compareIds rt table (paPre.splitOn '.') (pbPre.splitOn '.') =
      .ok (sign (List.compareLex Identifier.order
        ((paPre.splitOn '.').map (identifier table))
        ((pbPre.splitOn '.').map (identifier table)))) := by
  refine compare_ids_eq (fun part hpart c hc => ?_) (fun part hpart c hc => ?_)
    (fun part hpart hdigits => ?_) (fun part hpart hdigits => ?_)
  · exact semver_match_prerelease hpa paPre hpaPre c (mem_of_mem_split hpart hc)
  · exact semver_match_prerelease hpb pbPre hpbPre c (mem_of_mem_split hpart hc)
  · refine ha paGroups hpa part (List.mem_append_right _ ?_)
    exact List.mem_filter.mpr ⟨by simpa [hpaPre] using hpart, hdigits⟩
  · refine hb pbGroups hpb part (List.mem_append_right _ ?_)
    exact List.mem_filter.mpr ⟨by simpa [hpbPre] using hpart, hdigits⟩

/-- Two texts that are parsed are compared by the order of all texts, as far as the identifiers of
their pre-releases are. -/
theorem compare_semver_parsed
    (ha : parseSemver rt table a = .ok ((semverGroups rt table a).map (·.parsed table)))
    (hb : parseSemver rt table b = .ok ((semverGroups rt table b).map (·.parsed table)))
    (hids : ∀ paGroups ∈ semverGroups rt table a, ∀ pbGroups ∈ semverGroups rt table b,
      ∀ paPre ∈ paGroups.prerelease, ∀ pbPre ∈ pbGroups.prerelease,
      compareIds rt table (paPre.splitOn '.') (pbPre.splitOn '.') =
        .ok (sign (List.compareLex Identifier.order
          ((paPre.splitOn '.').map (identifier table))
          ((pbPre.splitOn '.').map (identifier table))))) :
    compareSemver rt table a b = .ok (sign (semverOrder rt table a b)) := by
  unfold compareSemver semverOrder orderBy versionOf
  rw [ha, hb]
  cases hpa : semverGroups rt table a with
  | none =>
      cases hpb : semverGroups rt table b with
      | none =>
          rcases compare_text_cases a b with
            ⟨hlt, hcompare⟩ | ⟨rfl, hcompare⟩ | ⟨hgt, hnot, hcompare⟩
          · have hne : a ≠ b := fun heq => String.not_le.mpr hlt (heq ▸ String.le_refl b)
            simp [bind, Except.bind, hlt, hne, hcompare, sign]
          · simp [bind, Except.bind, sign]
          · have hne : a ≠ b := fun heq => String.not_le.mpr hgt (heq ▸ String.le_refl b)
            simp [bind, Except.bind, hnot, hne, hcompare, sign]
      | some groups => rfl
  | some paGroups =>
      cases hpb : semverGroups rt table b with
      | none => rfl
      | some pbGroups =>
          refine compare_fields_ok
            (o := prereleaseOrder (paGroups.version table).prerelease
              (pbGroups.version table).prerelease) _ ?_
          dsimp only [SemverGroups.version, SemverGroups.parsed]
          cases hpaPre : paGroups.prerelease with
          | none => cases hpbPre : pbGroups.prerelease <;> rfl
          | some paPre =>
              cases hpbPre : pbGroups.prerelease with
              | none => rfl
              | some pbPre => exact hids paGroups hpa pbGroups hpb paPre hpaPre pbPre hpbPre

/-- `compare_semver` is the order of all texts. -/
theorem compare_semver_eq (ha : BoundedFields rt table a) (hb : BoundedFields rt table b) :
    compareSemver rt table a b = .ok (sign (semverOrder rt table a b)) :=
  compare_semver_parsed (parse_semver_eq ha) (parse_semver_eq hb)
    fun _ hpa _ hpb _ hpaPre _ hpbPre => compare_prerelease_eq hpa hpb hpaPre hpbPre ha hb

end

end Capmesh
