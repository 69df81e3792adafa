import Capmesh.Registry.Semver
import Capmesh.Versions.Grammar

/-!
# The version comparison is SemVer precedence

`compare_semver` orders all texts, and on the version texts of SemVer 2.0.0 it is their precedence.
-/

namespace Capmesh

open Python Versions

section

variable {rt : Runtime} {table : DigitTable} {part rest : List Char}

/-- A class takes a run up to a character outside it. -/
theorem some_of_append {test : Char → Bool} (hne : part ≠ []) (hpart : ∀ c ∈ part, test c = true)
    (hrest : ∀ c ∈ rest.head?, test c = false) : someOf test (part ++ rest) = some (part, rest) := by
  have htake : rest.takeWhile test = [] ∧ rest.dropWhile test = rest := by
    cases rest with
    | nil => exact ⟨rfl, rfl⟩
    | cons c rest => simp [hrest c rfl]
  rw [someOf, List.takeWhile_append_of_pos hpart, List.dropWhile_append_of_pos hpart, htake.1,
    htake.2, List.append_nil, if_neg hne]

theorem some_of_number (n : Nat) (hrest : ∀ c ∈ rest.head?, c.toNat < 128 ∧ c.isDigit = false) :
    someOf table.isDecimal (Nat.toDigits 10 n ++ rest) = some (Nat.toDigits 10 n, rest) :=
  some_of_append (to_digits_ne_nil n) (decimal_to_digits n) fun c hc => by
    rw [isDecimal_ascii (hrest c hc).1, (hrest c hc).2]

theorem marked_part_append {mark : Char} (hne : part ≠ [])
    (hpart : ∀ c ∈ part, isIdentifierChar c = true)
    (hrest : ∀ c ∈ rest.head?, isIdentifierChar c = false) :
    markedPart mark (mark :: (part ++ rest)) = (some part, rest) := by
  simp [markedPart, literal, some_of_append hne hpart hrest]

theorem marked_part_absent {mark : Char} {text : List Char} (h : ∀ c ∈ text.head?, c ≠ mark) :
    markedPart mark text = (none, text) := by
  cases text with
  | nil => rfl
  | cons c text => simp [markedPart, literal, h c rfl]

/-- The characters of joined identifiers belong to the class of the pattern. -/
theorem joined_valid {parts : List (List Char)}
    (h : ∀ part ∈ parts, ∀ c ∈ part, Versions.isIdChar c = true) :
    ∀ c ∈ ['.'].intercalate parts, isIdentifierChar c = true := by
  intro c hc
  rcases mem_intercalate hc with rfl | ⟨part, hpart, hc⟩
  · rfl
  · have := h part hpart c hc
    simp only [Versions.isIdChar, Bool.or_eq_true] at this
    rcases this with h | h <;> simp [isIdentifierChar, h]

theorem joined_ne_nil {parts : List (List Char)} (hparts : parts ≠ [])
    (h : ∀ part ∈ parts, part ≠ []) : ['.'].intercalate parts ≠ [] := by
  obtain ⟨part, parts, rfl⟩ := List.exists_cons_of_ne_nil hparts
  obtain ⟨c, part, rfl⟩ := List.exists_cons_of_ne_nil (h part List.mem_cons_self)
  cases parts <;> simp [List.intercalate_cons_cons]

/-- The pre-release of a version, as the pattern matches it. -/
theorem marked_prerelease (v : SemVer) :
    markedPart '-' (v.prereleaseText ++ v.buildText) =
      (if v.prerelease.isEmpty then none
        else some (['.'].intercalate (v.prerelease.map (·.spell))), v.buildText) := by
  have hbuild : ∀ c ∈ v.buildText.head?, c = '+' := by
    intro c hc
    unfold SemVer.buildText at hc
    split at hc
    · cases hc
    · exact (Option.some.inj hc).symm
  unfold SemVer.prereleaseText
  split
  · refine marked_part_absent fun c hc => ?_
    rw [hbuild c hc]
    decide
  · rename_i hne
    refine marked_part_append (joined_ne_nil (by simpa using hne) fun part hpart => ?_)
      (joined_valid fun part hpart => ?_) fun c hc => ?_
    · obtain ⟨identifier, -, rfl⟩ := List.mem_map.mp hpart
      cases identifier with
      | numeric n => exact to_digits_ne_nil n
      | alphanumeric characters _ notNumber =>
          obtain ⟨c, hc, -⟩ := notNumber
          exact List.ne_nil_of_mem hc
    · obtain ⟨identifier, -, rfl⟩ := List.mem_map.mp hpart
      exact identifier.spell_valid
    · rw [hbuild c hc]
      decide

/-- The build metadata of a version, as the pattern matches it. -/
theorem marked_build (v : SemVer) :
    markedPart '+' v.buildText =
      (if v.build.isEmpty then none
        else some (['.'].intercalate (v.build.map (·.characters))), []) := by
  unfold SemVer.buildText
  split
  · rfl
  · rename_i hne
    rw [← List.append_nil (['.'].intercalate _)]
    refine (marked_part_append (joined_ne_nil (by simpa using hne) fun part hpart => ?_)
      (joined_valid fun part hpart => ?_) fun c hc => ?_).trans (by rw [List.append_nil])
    · obtain ⟨identifier, -, rfl⟩ := List.mem_map.mp hpart
      exact identifier.nonempty
    · obtain ⟨identifier, -, rfl⟩ := List.mem_map.mp hpart
      exact identifier.valid
    · cases hc

theorem after_patch_head (v : SemVer) :
    ∀ c ∈ (v.prereleaseText ++ v.buildText).head?, c.toNat < 128 ∧ c.isDigit = false := by
  intro c hc
  unfold SemVer.prereleaseText SemVer.buildText at hc
  split at hc
  · split at hc
    · cases hc
    · obtain rfl : '+' = c := Option.some.inj hc
      decide
  · obtain rfl : '-' = c := Option.some.inj hc
    decide

/-- The pattern matches the text of a version, group by group. -/
theorem semver_match_spell (v : SemVer) :
    semverMatch table v.spell = some ⟨Nat.toDigits 10 v.major, Nat.toDigits 10 v.minor,
      Nat.toDigits 10 v.patch,
      if v.prerelease.isEmpty then none else some (['.'].intercalate (v.prerelease.map (·.spell))),
      if v.build.isEmpty then none
        else some (['.'].intercalate (v.build.map (·.characters)))⟩ := by
  have hdot : ∀ rest : List Char, ∀ c ∈ ('.' :: rest).head?, c.toNat < 128 ∧ c.isDigit = false := by
    intro rest c hc
    obtain rfl : '.' = c := Option.some.inj hc
    decide
  unfold semverMatch SemVer.spell
  simp only [some_of_number _ (hdot _), some_of_number _ (after_patch_head v), Option.bind_eq_bind,
    Option.bind_some, literal, if_true, marked_prerelease, marked_build, true_or]

/-- The characters of a version text. -/
theorem spell_characters (v : SemVer) : ∀ c ∈ v.spell, isIdentifierChar c = true ∨ c = '+' := by
  have hdigits : ∀ n, ∀ c ∈ Nat.toDigits 10 n, isIdentifierChar c = true := by
    intro n c hc
    have hdigit : c.isDigit = true := Nat.isDigit_of_mem_toDigits (by omega) (by omega) hc
    simp [isIdentifierChar, Char.isAlphanum, hdigit]
  have hpre : ∀ c ∈ v.prereleaseText, isIdentifierChar c = true := by
    intro c hc
    unfold SemVer.prereleaseText at hc
    split at hc
    · cases hc
    · rcases List.mem_cons.mp hc with rfl | hc
      · rfl
      · refine joined_valid (fun part hpart => ?_) c hc
        obtain ⟨identifier, -, rfl⟩ := List.mem_map.mp hpart
        exact identifier.spell_valid
  have hbuild : ∀ c ∈ v.buildText, isIdentifierChar c = true ∨ c = '+' := by
    intro c hc
    unfold SemVer.buildText at hc
    split at hc
    · cases hc
    · rcases List.mem_cons.mp hc with rfl | hc
      · exact .inr rfl
      · refine .inl (joined_valid (fun part hpart => ?_) c hc)
        obtain ⟨identifier, -, rfl⟩ := List.mem_map.mp hpart
        exact identifier.valid
  intro c hc
  simp only [SemVer.spell, List.mem_append, List.mem_cons] at hc
  rcases hc with hc | rfl | hc | rfl | hc | hc | hc
  · exact .inl (hdigits _ c hc)
  · exact .inl rfl
  · exact .inl (hdigits _ c hc)
  · exact .inl rfl
  · exact .inl (hdigits _ c hc)
  · exact .inl (hpre c hc)
  · exact hbuild c hc

/-- No character of a version text is white space. -/
theorem spell_no_space (v : SemVer) : ∀ c ∈ v.spell, rt.chars.isSpace c = false := by
  intro c hc
  have hplain : ∀ d : Char, d.toNat < 128 → isAsciiSpace d = false → rt.chars.isSpace d = false :=
    fun d hcode hspace => by rw [rt.chars.isSpace_ascii d hcode, hspace]
  rcases spell_characters v c hc with h | rfl
  · have hcode := identifier_char_code h
    simp only [isIdentifierChar, Bool.or_eq_true, beq_iff_eq] at h
    rcases h with (h | rfl) | rfl
    · by_contra hspace
      have halnum := rt.chars.isAlnum_of_space c (by simpa using hspace)
      rw [rt.chars.isAlnum_ascii c hcode, h] at halnum
      cases halnum
    · exact hplain _ (by decide) (by decide)
    · exact hplain _ (by decide) (by decide)
  · exact hplain _ (by decide) (by decide)

/-- Neither `strip` nor `lstrip("v")` takes anything from a version text. -/
theorem semver_groups_text (v : SemVer) :
    semverGroups rt table v.text = semverMatch table v.spell := by
  have hstrip : strip rt.chars.isSpace v.spell = v.spell :=
    strip_eq_self (fun c hc => spell_no_space v c (List.mem_of_mem_head? hc))
      (fun c hc => spell_no_space v c (List.mem_of_mem_getLast? hc))
  have hmarks : v.spell.dropWhile (· = 'v') = v.spell := by
    obtain ⟨c, rest, hdigits⟩ := List.exists_cons_of_ne_nil (to_digits_ne_nil v.major)
    have hdigit : c.isDigit = true :=
      Nat.isDigit_of_mem_toDigits (b := 10) (n := v.major) (by omega) (by omega) (by simp [hdigits])
    have hne : c ≠ 'v' := by
      rintro rfl
      cases hdigit
    rw [SemVer.spell, hdigits, List.cons_append]
    exact List.dropWhile_cons_of_neg (by simpa using hne)
  rw [semverGroups, SemVer.text, String.toList_ofList, hstrip, hmarks]

/-- An identifier is compared as what the specification takes it for. -/
theorem identifier_spell (part : PreIdentifier) : identifier table part.spell = part.identifier := by
  cases part with
  | numeric n =>
      have hall : table.allDigits (Nat.toDigits 10 n) = true :=
        all_digits_of_decimal (to_digits_ne_nil n) (decimal_to_digits n)
      simp [identifier, PreIdentifier.spell, PreIdentifier.identifier, value_to_digits, hall]
  | alphanumeric characters valid notNumber =>
      have hnot : table.allDigits characters = false := by
        obtain ⟨c, hc, hdigit⟩ := notNumber
        have hcode : c.toNat < 128 := identifier_char_code (by
          have := valid c hc
          simp only [Versions.isIdChar, Bool.or_eq_true] at this
          rcases this with h | h <;> simp [isIdentifierChar, h])
        have hfalse : table.isDigit c = false := (table.isDigit_ascii c hcode).trans hdigit
        rw [DigitTable.allDigits, Bool.and_eq_false_iff]
        exact .inr (List.all_eq_false.mpr ⟨c, hc, by simp [hfalse]⟩)
      simp [identifier, PreIdentifier.spell, PreIdentifier.identifier, hnot]

theorem version_of_text (v : SemVer) : versionOf rt table v.text = some v.version := by
  rw [versionOf, semver_groups_text, semver_match_spell]
  cases hpre : v.prerelease with
  | nil => simp [SemverGroups.version, SemVer.version, hpre, value_to_digits]
  | cons first parts =>
      have hdots : ∀ part ∈ (first :: parts).map (·.spell), '.' ∉ part := by
        intro part hpart hdot
        obtain ⟨identifier, -, rfl⟩ := List.mem_map.mp hpart
        exact absurd (identifier.spell_valid '.' hdot) (by decide)
      have hsplit : (['.'].intercalate ((first :: parts).map (·.spell))).splitOn '.' =
          (first :: parts).map (·.spell) := List.splitOn_intercalate '.' hdots (by simp)
      rw [List.map_cons] at hsplit
      simp [SemverGroups.version, SemVer.version, hpre, value_to_digits, hsplit, identifier_spell]

end

/-- The comparison is antisymmetric and transitive on all texts with numeric fields of bounded
length, and on the version texts of SemVer 2.0.0 it is their precedence. -/
theorem compare_semver_preorder (rt : Runtime) (table : DigitTable) :
    (∀ a b c, BoundedFields rt table a → BoundedFields rt table b → BoundedFields rt table c →
      ∃ ab ba bc ac, compareSemver rt table a b = .ok ab ∧ compareSemver rt table b a = .ok ba ∧
        compareSemver rt table b c = .ok bc ∧ compareSemver rt table a c = .ok ac ∧
        ab = -ba ∧ (ab ≤ 0 → bc ≤ 0 → ac ≤ 0)) ∧
    ∀ v w : SemVer, BoundedFields rt table v.text → BoundedFields rt table w.text →
      compareSemver rt table v.text w.text = .ok (sign (v.precedence w)) := by
  refine ⟨fun a b c ha hb hc => ?_, fun v w hv hw => ?_⟩
  · refine ⟨_, _, _, _, compare_semver_eq ha hb, compare_semver_eq hb ha, compare_semver_eq hb hc,
      compare_semver_eq ha hc, ?_, fun hab hbc => ?_⟩
    · rw [← sign_swap]
      exact congrArg sign Std.OrientedCmp.eq_swap
    · rw [sign_le_zero_iff] at *
      exact Std.TransCmp.isLE_trans hab hbc
  · rw [compare_semver_eq hv hw, semverOrder, orderBy, version_of_text, version_of_text]
    rfl

/-- The first release candidate of 1.0.0. -/
def candidate : SemVer :=
  ⟨1, 0, 0, [.alphanumeric ['r', 'c'] (List.all_eq_true.mp (by decide)) ⟨'r', by decide, by decide⟩, .numeric 1], []⟩

/-- A release candidate comes before its release, whatever their builds. -/
theorem compare_semver_preorder_candidate :
    (∃ ab ba bc ac,
      compareSemver Platform.sample.toRuntime .ascii "1.0.0-rc.1" "1.0.0" = .ok ab ∧
      compareSemver Platform.sample.toRuntime .ascii "1.0.0" "1.0.0-rc.1" = .ok ba ∧
      compareSemver Platform.sample.toRuntime .ascii "1.0.0" "latest" = .ok bc ∧
      compareSemver Platform.sample.toRuntime .ascii "1.0.0-rc.1" "latest" = .ok ac ∧
      ab = -ba ∧ (ab ≤ 0 → bc ≤ 0 → ac ≤ 0)) ∧
    compareSemver Platform.sample.toRuntime .ascii candidate.text
      { candidate with prerelease := [] }.text = .ok (-1) := by
  have hpreorder := compare_semver_preorder Platform.sample.toRuntime .ascii
  exact ⟨hpreorder.1 _ _ _ (by decide +kernel) (by decide +kernel) (by decide +kernel),
    hpreorder.2 _ _ (by decide +kernel) (by decide +kernel)⟩

end Capmesh
