import Capmesh.Discovery.Frontmatter
import Capmesh.Governance.Gates
import Capmesh.Python.Casing
import Capmesh.Python.Lines

/-!
# The two readers of front matter

`parse_frontmatter`, with which discovery describes a skill, and `_frontmatter_fields`, with which
the metadata gate asks for its description. The one groups the lines between the rules into entries
(`data_eq`), the other takes the lines before the next `---` that begin with a name and a colon
(`fields_eq`). `readers_agree_iff` says when the description of the first is one of the second:
`PlainFrontmatter` texts are read alike.
-/

namespace Capmesh

open Python

/-- A line that `parse_frontmatter` reads as an entry. -/
def isEntry (p : Platform) (line : List Char) : Bool :=
  !((strip p.chars.isSpace line).isEmpty || (line.dropWhile p.chars.isSpace).head? = some '#' ||
    !line.contains ':')

/-- The key of an entry. -/
def entryKey (p : Platform) (line : List Char) : String :=
  String.ofList (strip p.chars.isSpace (line.takeWhile (· ≠ ':')))

/-- What an entry has on its own line. -/
def entryText (p : Platform) (line : List Char) : List Char :=
  unquote (strip p.chars.isSpace ((line.dropWhile (· ≠ ':')).drop 1))

/-- The lines that belong to an entry: indented ones behind an empty value, and blank ones as well
behind the mark of a block. -/
def takes (p : Platform) (line next : List Char) : Bool :=
  if (entryText p line).isEmpty then indented next
  else ["|", "|-", ">", ">-"].contains (String.ofList (entryText p line)) &&
    (indented next || (strip p.chars.isSpace next).isEmpty)

/-- The lines of front matter in entries, each with the lines that belong to it. -/
def entries (p : Platform) : Nat → List (List Char) → List (List Char × List (List Char))
  | 0, _ => []
  | _, [] => []
  | fuel + 1, line :: rest =>
      if isEntry p line then
        (line, rest.takeWhile (takes p line)) :: entries p fuel (rest.dropWhile (takes p line))
      else entries p fuel rest

/-- The value of an entry. -/
def entryValue (p : Platform) (line : List Char) (more : List (List Char)) : Json :=
  let stripped := more.map (strip p.chars.isSpace)
  if (entryText p line).isEmpty then
    .str (String.ofList (if stripped.isEmpty then []
      else unquote (strip p.chars.isSpace (List.intercalate [' '] stripped))))
  else if ["|", "|-", ">", ">-"].contains (String.ofList (entryText p line)) then
    .str (String.ofList (strip p.chars.isSpace (List.intercalate ['\n'] stripped)))
  else scalarValue p (entryText p line)

/-- The fields that `_frontmatter_fields` reads off lines, in their order. -/
def fieldsOf (p : Platform) : List (List Char) → List (String × String)
  | [] => []
  | line :: rest =>
      match frontmatterLine p line with
      | some (key, value) =>
          (key, if value = "" then
            continuedValue p ((rest.takeWhile indented).map (p.stripSpace ∘ String.ofList))
          else value) :: fieldsOf p rest
      | none => fieldsOf p rest

/-- The lines between the rules of a text. -/
def linesBetween (p : Platform) (text : String) : List (List Char) :=
  match splitLines text.toList with
  | [] => []
  | first :: rest =>
      if isRule p first && rest.any (isRule p) then rest.takeWhile (!isRule p ·) else []

/-- The lines that the gate looks at. -/
def linesBefore (text : String) : List (List Char) :=
  if startsWith text "---" then
    (((beforeFirst "---".toList (text.toList.drop 3)).map splitLines).getD [])
  else []

/-- The last entry called `description` has text. -/
def EntryDescribed (p : Platform) (text : String) : Prop :=
  ∃ front line more back,
    entries p (linesBetween p text).length (linesBetween p text) = front ++ (line, more) :: back ∧
    entryKey p line = "description" ∧ (∀ other ∈ back, entryKey p other.1 ≠ "description") ∧
    (entryValue p line more).truthy = true

/-- The last of some lines that begins with `description:`, in any case, has text, behind the colon
or on the indented lines behind it. -/
def FieldDescribed (p : Platform) (lines : List (List Char)) : Prop :=
  ∃ front line back value, lines = front ++ line :: back ∧
    frontmatterLine p line = some ("description", value) ∧
    (∀ other ∈ back, ∀ value, frontmatterLine p other ≠ some ("description", value)) ∧
    (value ≠ "" ∨
      continuedValue p ((back.takeWhile indented).map (p.stripSpace ∘ String.ofList)) ≠ "")

/-- Discovery and the metadata gate read the same front matter, and no skill that discovery finds a
description for misses it at the gate. -/
structure ReadersAgree (p : Platform) (text : String) : Prop where
  described : Dict.truthy (parseFrontmatter p text).1 "description" = true →
    (parseFrontmatter p text).1 ≠ [] →
    ((frontmatterFields p text).lookup "description").getD "" ≠ ""
  found : frontmatterFields p text = [] → (parseFrontmatter p text).1 = []
  passes : Dict.truthy (parseFrontmatter p text).1 "description" = true →
    ∀ cap, "frontmatter.description" ∉ missingMarkdown p cap text

/-- What the gate looks at keeps what discovery finds: a field, where a line between the rules is an
entry, and a description with text, where the last entry of that name has text. -/
structure FieldsKept (p : Platform) (text : String) : Prop where
  described : EntryDescribed p text → FieldDescribed p (linesBefore text)
  found : (∃ line ∈ linesBetween p text, isEntry p line = true) →
    ∃ line ∈ linesBefore text, (frontmatterLine p line).isSome = true

/-- Front matter that both readers read alike: the text begins with its first rule, no line between
the rules has a `---` in it, and every entry begins with a name at the first column, which is not
`description` in another case. -/
structure PlainFrontmatter (p : Platform) (text : String) : Prop where
  head : startsWith text "---" = true
  unruled : ∀ line ∈ linesBetween p text, beforeFirst "---".toList line = none
  named : ∀ entry ∈ entries p (linesBetween p text).length (linesBetween p text),
    (frontmatterLine p entry.1).isSome = true
  lower : ∀ entry ∈ entries p (linesBetween p text).length (linesBetween p text),
    ∀ value, frontmatterLine p entry.1 = some ("description", value) →
      entryKey p entry.1 = "description"

section

variable {p : Platform} {line : List Char} {lines : List (List Char)}

theorem takes_wrapped (h : (entryText p line).isEmpty = true) : takes p line = indented := by
  funext next
  unfold takes
  rw [if_pos h]

theorem takes_block (h : ¬ (entryText p line).isEmpty = true)
    (hblock : ["|", "|-", ">", ">-"].contains (String.ofList (entryText p line)) = true) :
    takes p line = fun next => indented next || (strip p.chars.isSpace next).isEmpty := by
  funext next
  unfold takes
  rw [if_neg h, hblock, Bool.true_and]

theorem takes_scalar (h : ¬ (entryText p line).isEmpty = true)
    (hblock : ¬ ["|", "|-", ">", ">-"].contains (String.ofList (entryText p line)) = true) :
    takes p line = fun _ => false := by
  funext next
  unfold takes
  rw [if_neg h, Bool.eq_false_iff.mpr hblock, Bool.false_and]

/-- The data of front matter are the values of its entries, the last one for a key. -/
theorem data_eq (fuel : Nat) (lines : List (List Char)) (data : Dict) :
    frontmatterData p fuel lines data = (entries p fuel lines).foldl
      (fun data entry => data.set (entryKey p entry.1) (entryValue p entry.1 entry.2)) data := by
  induction fuel generalizing lines data with
  | zero => rfl
  | succ fuel ih =>
      cases lines with
      | nil => rfl
      | cons line rest =>
          unfold frontmatterData entries isEntry
          dsimp only
          split
          · rename_i hskip
            rw [hskip, Bool.not_true, if_neg (by simp)]
            exact ih rest data
          · rename_i hentry
            rw [Bool.not_eq_true] at hentry
            rw [hentry, Bool.not_false, if_pos rfl, List.foldl_cons, ← ih]
            unfold entryValue
            by_cases hempty : (entryText p line).isEmpty = true
            · rw [takes_wrapped hempty, if_pos hempty]
              exact if_pos hempty
            · rw [if_neg hempty]
              by_cases hblock :
                  ["|", "|-", ">", ">-"].contains (String.ofList (entryText p line)) = true
              · rw [takes_block hempty hblock, if_pos hblock]
                exact (if_neg hempty).trans (if_pos hblock)
              · rw [takes_scalar hempty hblock, if_neg hblock]
                have hdrop : rest.dropWhile (fun _ => false) = rest := by
                  cases rest <;> rfl
                rw [hdrop]
                exact (if_neg hempty).trans (if_neg hblock)

/-- The lines that continue a value are the same for both readers. -/
theorem indented_eq (line : List Char) :
    (line.head? = some ' ' || line.head? = some '\t') = indented line := by
  unfold indented
  cases line.head? with
  | none => simp
  | some c => simp

theorem field_line_cases {key value : String} (h : frontmatterLine p line = some (key, value)) :
    ∃ first name back, line = first :: (name ++ ':' :: back) ∧ first.isAlpha = true ∧
      (∀ c ∈ name, (c.isAlphanum || c = '_' || c = '-') = true) ∧
      key = p.lower (String.ofList (first :: name)) ∧ value = p.stripSpace (String.ofList back) := by
  cases line with
  | nil => cases h
  | cons first rest =>
      unfold frontmatterLine at h
      dsimp only at h
      split at h
      · rename_i back hback
        split at h
        · rename_i hfirst
          obtain ⟨rfl, rfl⟩ := Prod.mk.inj (Option.some.inj h)
          refine ⟨first, _, back, ?_, hfirst, fun c hc => by simpa using List.mem_takeWhile_imp hc,
            rfl, rfl⟩
          rw [← hback, List.takeWhile_append_dropWhile]
        · cases h
      · cases h

theorem not_indented_of_field (h : (frontmatterLine p line).isSome = true) :
    indented line = false := by
  obtain ⟨⟨key, value⟩, hfield⟩ := Option.isSome_iff_exists.mp h
  obtain ⟨first, name, back, rfl, hfirst, -⟩ := field_line_cases hfield
  unfold indented
  simp only [List.head?_cons, Bool.or_eq_false_iff, decide_eq_false_iff_not]
  refine ⟨fun hsame => ?_, fun hsame => ?_⟩
  · rw [hsame] at hfirst
    exact absurd hfirst (by decide)
  · rw [hsame] at hfirst
    exact absurd hfirst (by decide)

/-- The fields the gate collects, the last first, are those of the lines. -/
theorem fields_eq (lines : List (List Char)) (fields : List (String × String)) :
    closeField p (lines.foldl (readField p) (none, fields)) =
      (fieldsOf p lines).reverse ++ fields ∧
    ∀ key parts, closeField p (lines.foldl (readField p) (some (key, parts), fields)) =
      (fieldsOf p lines).reverse ++ (key, continuedValue p (parts ++
        (lines.takeWhile indented).map (p.stripSpace ∘ String.ofList))) :: fields := by
  induction lines generalizing fields with
  | nil => exact ⟨rfl, fun key parts => by simp [closeField, fieldsOf]⟩
  | cons line rest ih =>
      -- A line that does not continue a value is read as a new one.
      have hnew : ∀ fields, closeField p
          (rest.foldl (readField p) (readField.newField p fields line)) =
            (fieldsOf p (line :: rest)).reverse ++ fields := by
        intro fields
        unfold readField.newField fieldsOf
        cases hfield : frontmatterLine p line with
        | none => exact (ih fields).1
        | some field =>
            obtain ⟨key, value⟩ := field
            dsimp only
            by_cases hvalue : value = ""
            · rw [if_pos hvalue, if_pos hvalue, (ih fields).2 key []]
              simp
            · rw [if_neg hvalue, if_neg hvalue, (ih ((key, value) :: fields)).1]
              simp
      refine ⟨hnew fields, fun key parts => ?_⟩
      rw [List.foldl_cons]
      by_cases hindented : indented line = true
      · have hread : readField p (some (key, parts), fields) line =
            (some (key, parts ++ [p.stripSpace (String.ofList line)]), fields) :=
          if_pos ((indented_eq line).trans hindented)
        have hnone : frontmatterLine p line = none := by
          by_contra hsome
          have := not_indented_of_field (p := p) (Option.isSome_iff_ne_none.mpr hsome)
          rw [hindented] at this
          cases this
        rw [hread, (ih fields).2, fieldsOf, hnone, List.takeWhile_cons_of_pos hindented]
        simp
      · have hread : readField p (some (key, parts), fields) line =
            readField.newField p ((key, continuedValue p parts) :: fields) line :=
          if_neg fun hhead => hindented ((indented_eq line).symm.trans hhead)
        rw [hread, hnew, List.takeWhile_cons_of_neg hindented]
        simp

/-- The fields of a text are those of the lines before its next `---`. -/
theorem frontmatter_fields_eq (text : String) :
    frontmatterFields p text = (fieldsOf p (linesBefore text)).reverse := by
  unfold frontmatterFields linesBefore
  split
  · cases beforeFirst "---".toList (text.toList.drop 3) with
    | none => rfl
    | some body =>
        show closeField p ((splitLines body).foldl (readField p) (none, [])) = _
        rw [(fields_eq (splitLines body) []).1, List.append_nil]
        rfl
  · rfl

theorem parse_frontmatter_eq (text : String) :
    (parseFrontmatter p text).1 =
      (entries p (linesBetween p text).length (linesBetween p text)).foldl
        (fun (data : Dict) entry => data.set (entryKey p entry.1) (entryValue p entry.1 entry.2))
        [] := by
  unfold parseFrontmatter linesBetween
  cases splitLines text.toList with
  | nil => rfl
  | cons first rest =>
      dsimp only
      by_cases hfirst : isRule p first = true
      · cases hbody : rest.dropWhile (!isRule p ·) with
        | nil =>
            have hnone : rest.any (isRule p) = false := by
              rw [List.any_eq_false]
              intro line hline
              simpa using List.dropWhile_eq_nil_iff.mp hbody line hline
            rw [hfirst, hnone]
            rfl
        | cons rule body =>
            have hany : rest.any (isRule p) = true := by
              rw [List.any_eq_true]
              refine ⟨rule, (List.dropWhile_sublist _).subset (hbody ▸ List.mem_cons_self), ?_⟩
              have hhead := List.head?_dropWhile_not (!isRule p ·) rest
              rw [hbody] at hhead
              simpa using hhead
            rw [hfirst, hany, Bool.not_true, if_neg (by simp), Bool.and_self, if_pos rfl]
            exact data_eq _ _ _
      · rw [Bool.not_eq_true] at hfirst
        rw [hfirst]
        rfl

theorem entry_value_ne_null (line : List Char) (more : List (List Char)) :
    entryValue p line more ≠ .null := by
  unfold entryValue scalarValue
  dsimp only
  split_ifs <;> simp

theorem data_get_of_ne {key : String} {found : List (List Char × List (List Char))}
    (h : ∀ entry ∈ found, entryKey p entry.1 ≠ key) (data : Dict) :
    Dict.get? (found.foldl (fun (data : Dict) entry =>
      data.set (entryKey p entry.1) (entryValue p entry.1 entry.2)) data) key =
        Dict.get? data key := by
  induction found generalizing data with
  | nil => rfl
  | cons entry found ih =>
      obtain ⟨hentry, hfound⟩ := List.forall_mem_cons.mp h
      rw [List.foldl_cons, ih hfound, Dict.get?_set_of_ne _ _ hentry]

theorem data_get_last (front : List (List Char × List (List Char)))
    {back : List (List Char × List (List Char))} (more : List (List Char))
    (hback : ∀ other ∈ back, entryKey p other.1 ≠ entryKey p line) (data : Dict) :
    Dict.get? ((front ++ (line, more) :: back).foldl (fun (data : Dict) entry =>
      data.set (entryKey p entry.1) (entryValue p entry.1 entry.2)) data) (entryKey p line) =
        some (entryValue p line more) := by
  rw [List.foldl_append, List.foldl_cons, data_get_of_ne hback,
    Dict.get?_set _ _ (entry_value_ne_null line more)]

theorem entry_described_iff (text : String) :
    Dict.truthy (parseFrontmatter p text).1 "description" = true ↔ EntryDescribed p text := by
  rw [parse_frontmatter_eq]
  unfold EntryDescribed Dict.truthy
  generalize entries p (linesBetween p text).length (linesBetween p text) = found
  constructor
  · intro h
    by_cases hnamed : ∃ entry ∈ found, entryKey p entry.1 = "description"
    · obtain ⟨front, ⟨line, more⟩, back, rfl, hkey, hback⟩ := last_split hnamed
      have hget := data_get_last front more
        (fun other hother => hkey.symm ▸ hback other hother) []
      rw [hkey] at hget
      rw [hget] at h
      exact ⟨front, line, more, back, rfl, hkey, hback, h⟩
    · rw [data_get_of_ne fun entry hentry hkey => hnamed ⟨entry, hentry, hkey⟩] at h
      cases h
  · rintro ⟨front, line, more, back, rfl, hkey, hback, htext⟩
    have hget := data_get_last front more
      (fun other hother => hkey.symm ▸ hback other hother) []
    rw [hkey] at hget
    rw [hget]
    exact htext

theorem lookup_fields_none (h : ∀ line ∈ lines, ∀ value, frontmatterLine p line ≠ some
    ("description", value)) :
    (fieldsOf p lines).reverse.lookup "description" = none := by
  rw [List.lookup_eq_none_iff]
  intro field hfield
  induction lines with
  | nil => cases List.mem_reverse.mp hfield
  | cons line rest ih =>
      obtain ⟨hline, hrest⟩ := List.forall_mem_cons.mp h
      unfold fieldsOf at hfield
      cases hread : frontmatterLine p line with
      | none =>
          rw [hread] at hfield
          exact ih hrest hfield
      | some read =>
          obtain ⟨key, value⟩ := read
          rw [hread] at hfield
          simp only [List.mem_reverse, List.mem_cons] at hfield
          rcases hfield with rfl | hfield
          · have hkey : key ≠ "description" := fun hkey => hline value (hkey ▸ hread)
            simpa using hkey.symm
          · exact ih hrest (List.mem_reverse.mpr hfield)

theorem lookup_fields_last {front back : List (List Char)} {value : String}
    (hline : frontmatterLine p line = some ("description", value))
    (hback : ∀ other ∈ back, ∀ value, frontmatterLine p other ≠ some ("description", value)) :
    (fieldsOf p (front ++ line :: back)).reverse.lookup "description" =
      some (if value = "" then
        continuedValue p ((back.takeWhile indented).map (p.stripSpace ∘ String.ofList))
      else value) := by
  induction front with
  | nil =>
      rw [List.nil_append, fieldsOf, hline]
      simp only [List.reverse_cons, List.lookup_append, lookup_fields_none hback]
      simp
  | cons first front ih =>
      rw [List.cons_append, fieldsOf]
      cases frontmatterLine p first with
      | none => exact ih
      | some read => simp only [List.reverse_cons, List.lookup_append, ih, Option.some_or]

theorem field_described_iff (lines : List (List Char)) :
    ((fieldsOf p lines).reverse.lookup "description").getD "" ≠ "" ↔ FieldDescribed p lines := by
  constructor
  · intro h
    by_cases hnamed : ∃ line ∈ lines, ∃ value,
        frontmatterLine p line = some ("description", value)
    · obtain ⟨front, line, back, rfl, ⟨value, hline⟩, hback⟩ := last_split hnamed
      have hnone : ∀ other ∈ back, ∀ value,
          frontmatterLine p other ≠ some ("description", value) :=
        fun other hother value hother' => hback other hother ⟨value, hother'⟩
      rw [lookup_fields_last hline hnone, Option.getD_some] at h
      refine ⟨front, line, back, value, rfl, hline, hnone, ?_⟩
      by_cases hvalue : value = ""
      · rw [if_pos hvalue] at h
        exact .inr h
      · exact .inl hvalue
    · rw [lookup_fields_none fun line hline value hread => hnamed ⟨line, hline, value, hread⟩] at h
      exact absurd rfl h
  · rintro ⟨front, line, back, value, rfl, hline, hback, htext⟩
    rw [lookup_fields_last hline hback, Option.getD_some]
    split
    · rename_i hvalue
      exact htext.resolve_left fun hne => hne hvalue
    · exact ‹value ≠ ""›

theorem fields_of_ne_nil :
    fieldsOf p lines ≠ [] ↔ ∃ line ∈ lines, (frontmatterLine p line).isSome = true := by
  induction lines with
  | nil => simp [fieldsOf]
  | cons line rest ih =>
      unfold fieldsOf
      cases hread : frontmatterLine p line with
      | none => simpa [hread] using ih
      | some read => simp [hread]

theorem entries_ne_nil {fuel : Nat} (hfuel : lines.length ≤ fuel) :
    entries p fuel lines ≠ [] ↔ ∃ line ∈ lines, isEntry p line = true := by
  induction fuel generalizing lines with
  | zero =>
      rw [List.length_eq_zero_iff.mp (Nat.le_zero.mp hfuel)]
      simp [entries]
  | succ fuel ih =>
      cases lines with
      | nil => simp [entries]
      | cons line rest =>
          unfold entries
          by_cases hentry : isEntry p line = true
          · simp [hentry]
          · rw [if_neg hentry, ih (Nat.le_of_succ_le_succ hfuel)]
            simp [hentry]

theorem data_eq_nil_iff (text : String) : (parseFrontmatter p text).1 = [] ↔
    ¬ ∃ line ∈ linesBetween p text, isEntry p line = true := by
  rw [parse_frontmatter_eq, ← entries_ne_nil (Nat.le_refl _), not_not]
  generalize entries p (linesBetween p text).length (linesBetween p text) = found
  constructor
  · intro h
    rcases found.eq_nil_or_concat with rfl | ⟨front, last, rfl⟩
    · rfl
    · rw [List.concat_eq_append, List.foldl_append, List.foldl_cons, List.foldl_nil] at h
      unfold Dict.set at h
      split at h
      · rename_i hhas
        rw [List.map_eq_nil_iff.mp h] at hhas
        cases hhas
      · simp at h
  · intro h
    rw [h]
    rfl

/-- The readers agree on a text exactly when the gate's lines keep what discovery finds. -/
theorem agree_iff_kept (text : String) : ReadersAgree p text ↔ FieldsKept p text := by
  have hlookup : ((frontmatterFields p text).lookup "description").getD "" ≠ "" ↔
      FieldDescribed p (linesBefore text) := by
    rw [frontmatter_fields_eq]
    exact field_described_iff _
  have hfields : frontmatterFields p text = [] ↔
      ¬ ∃ line ∈ linesBefore text, (frontmatterLine p line).isSome = true := by
    rw [frontmatter_fields_eq, List.reverse_eq_nil_iff, ← fields_of_ne_nil, not_not]
  have hdata : ∀ key, Dict.truthy (parseFrontmatter p text).1 key = true →
      (parseFrontmatter p text).1 ≠ [] := by
    intro key htruthy hnil
    rw [hnil] at htruthy
    cases htruthy
  constructor
  · rintro ⟨hdescribed, hfound, -⟩
    refine ⟨fun hentry => ?_, fun hentry => ?_⟩
    · have htruthy := (entry_described_iff text).mpr hentry
      exact hlookup.mp (hdescribed htruthy (hdata _ htruthy))
    · by_contra hnone
      exact (data_eq_nil_iff text).mp (hfound (hfields.mpr hnone)) hentry
  · rintro ⟨hdescribed, hfound⟩
    have hread : Dict.truthy (parseFrontmatter p text).1 "description" = true →
        ((frontmatterFields p text).lookup "description").getD "" ≠ "" :=
      fun htruthy => hlookup.mpr (hdescribed ((entry_described_iff text).mp htruthy))
    refine ⟨fun htruthy _ => hread htruthy, fun hnone => ?_, fun htruthy cap => ?_⟩
    · exact (data_eq_nil_iff text).mpr fun hentry => hfields.mp hnone (hfound hentry)
    · unfold missingMarkdown
      dsimp only
      split
      · split <;> simp
      · simp [hread htruthy]

theorem ascii_of_alphanum {c : Char} (h : c.isAlphanum = true) : c.toNat < 128 := by
  have hval : c.val.toNat = c.toNat := rfl
  simp only [Char.isAlphanum, Char.isAlpha, Char.isUpper, Char.isLower, Char.isDigit, ge_iff_le,
    UInt32.le_iff_toNat_le, Bool.or_eq_true, Bool.and_eq_true, decide_eq_true_eq] at h
  simp at h
  omega

/-- A line with a field is an entry under the same name, with the same text behind the colon. -/
theorem entry_of_field {key value : String} (h : frontmatterLine p line = some (key, value)) :
    isEntry p line = true ∧ key = p.lower (entryKey p line) ∧
      value = p.stripSpace (String.ofList ((line.dropWhile (· ≠ ':')).drop 1)) := by
  obtain ⟨first, name, back, rfl, hfirst, hname, rfl, rfl⟩ := field_line_cases h
  have hcolon : ∀ c ∈ first :: name, c ≠ ':' := by
    rintro c hc rfl
    rcases List.mem_cons.mp hc with rfl | hc
    · exact absurd hfirst (by decide)
    · exact absurd (hname _ hc) (by decide)
  have hspace : ∀ c ∈ first :: name, p.chars.isSpace c = false := by
    intro c hc
    have hword : (c.isAlphanum || c = '_' || c = '-') = true := by
      rcases List.mem_cons.mp hc with rfl | hc
      · simp [Char.isAlphanum, hfirst]
      · exact hname c hc
    rcases Bool.or_eq_true_iff.mp hword with hword | hdash
    · rcases Bool.or_eq_true_iff.mp hword with halnum | hunder
      · by_contra hspace
        have hnone := p.chars.isAlnum_of_space c (by simpa using hspace)
        rw [p.chars.isAlnum_ascii c (ascii_of_alphanum halnum), halnum] at hnone
        cases hnone
      · rw [of_decide_eq_true hunder]
        exact p.chars.isSpace_ascii _ (by decide)
    · rw [of_decide_eq_true hdash]
      exact p.chars.isSpace_ascii _ (by decide)
  have hfirstSpace := hspace first List.mem_cons_self
  have hpass : ∀ c ∈ first :: name, decide (c ≠ ':') = true := fun c hc =>
    decide_eq_true (hcolon c hc)
  have htake : (first :: (name ++ ':' :: back)).takeWhile (· ≠ ':') = first :: name :=
    take_while_append_cons hpass (decide_eq_false (not_not.mpr rfl))
  have hdrop : (first :: (name ++ ':' :: back)).dropWhile (· ≠ ':') = ':' :: back := by
    rw [← List.cons_append, List.dropWhile_append_of_pos hpass,
      List.dropWhile_cons_of_neg (by simp)]
  have hkey : strip p.chars.isSpace (first :: name) = first :: name := by
    refine strip_eq_self (fun d hd => ?_) fun d hd => ?_
    · exact hspace d (List.mem_of_mem_head? hd)
    · exact hspace d (List.mem_of_mem_getLast? hd)
  refine ⟨?_, ?_, ?_⟩
  · have hne : (strip p.chars.isSpace (first :: (name ++ ':' :: back))).isEmpty = false := by
      rw [List.isEmpty_eq_false_iff_exists_mem]
      exact ⟨first, mem_strip_of_not List.mem_cons_self hfirstSpace⟩
    have hhash : first ≠ '#' := by
      rintro rfl
      exact absurd hfirst (by decide)
    unfold isEntry
    rw [hne, List.dropWhile_cons_of_neg (by simp [hfirstSpace])]
    simp [hhash]
  · rw [entryKey, htake, hkey]
  · rw [hdrop]
    rfl

theorem not_takes_of_field {other : List Char} (h : (frontmatterLine p other).isSome = true) :
    takes p line other = false := by
  have hindented := not_indented_of_field h
  obtain ⟨⟨key, value⟩, hfield⟩ := Option.isSome_iff_exists.mp h
  obtain ⟨hentry, -, -⟩ := entry_of_field hfield
  have hblank : (strip p.chars.isSpace other).isEmpty = false := by
    unfold isEntry at hentry
    simp only [Bool.not_or, Bool.and_eq_true, Bool.not_eq_true'] at hentry
    exact hentry.1.1
  unfold takes
  rw [hindented, hblank]
  simp

/-- An entry of some lines, in its place. -/
theorem entries_split {fuel : Nat} {front back : List (List Char × List (List Char))} {more : List
    (List Char)}
    (hfuel : lines.length ≤ fuel) (h : entries p fuel lines = front ++ (line, more) :: back) :
    ∃ before rest fuel', lines = before ++ line :: rest ∧ more = rest.takeWhile (takes p line) ∧
      back = entries p fuel' (rest.dropWhile (takes p line)) ∧
      (rest.dropWhile (takes p line)).length ≤ fuel' := by
  induction fuel generalizing lines front with
  | zero => simp [entries] at h
  | succ fuel ih =>
      cases lines with
      | nil => simp [entries] at h
      | cons first rest =>
          have hrest : rest.length ≤ fuel := Nat.le_of_succ_le_succ hfuel
          have hdrop : (rest.dropWhile (takes p first)).length ≤ fuel :=
            (List.dropWhile_sublist _).length_le.trans hrest
          unfold entries at h
          split at h
          · cases front with
            | nil =>
                obtain ⟨hentry, hback⟩ := List.cons.inj h
                obtain ⟨rfl, rfl⟩ := Prod.mk.inj hentry
                exact ⟨[], rest, fuel, rfl, rfl, hback.symm, hdrop⟩
            | cons entry front =>
                obtain ⟨before, rest', fuel', hlines, hmore⟩ := ih hdrop (List.cons.inj h).2
                refine ⟨first :: (rest.takeWhile (takes p first) ++ before), rest', fuel', ?_, hmore⟩
                rw [List.cons_append, List.append_assoc, ← hlines, List.takeWhile_append_dropWhile]
          · obtain ⟨before, rest', fuel', hlines, hmore⟩ := ih hrest h
            exact ⟨first :: before, rest', fuel', by rw [hlines]; rfl, hmore⟩

theorem entry_of_mem {fuel : Nat} (hfuel : lines.length ≤ fuel) {other : List Char}
    (hother : other ∈ lines) (hfield : (frontmatterLine p other).isSome = true) :
    ∃ entry ∈ entries p fuel lines, entry.1 = other := by
  induction fuel generalizing lines with
  | zero =>
      rw [List.length_eq_zero_iff.mp (Nat.le_zero.mp hfuel)] at hother
      cases hother
  | succ fuel ih =>
      cases lines with
      | nil => cases hother
      | cons first rest =>
          have hrest : rest.length ≤ fuel := Nat.le_of_succ_le_succ hfuel
          unfold entries
          by_cases hentry : isEntry p first = true
          · rw [if_pos hentry]
            rcases List.mem_cons.mp hother with rfl | hother
            · exact ⟨_, List.mem_cons_self, rfl⟩
            · -- The lines that the first entry takes have no field.
              rw [← List.takeWhile_append_dropWhile (p := takes p first) (l := rest)] at hother
              rcases List.mem_append.mp hother with htaken | hleft
              · have htakes := List.mem_takeWhile_imp htaken
                rw [not_takes_of_field hfield] at htakes
                cases htakes
              · obtain ⟨entry, hmem, hsame⟩ :=
                  ih ((List.dropWhile_sublist _).length_le.trans hrest) hleft
                exact ⟨entry, List.mem_cons_of_mem _ hmem, hsame⟩
          · rw [if_neg hentry]
            rcases List.mem_cons.mp hother with rfl | hother
            · obtain ⟨⟨key, value⟩, hread⟩ := Option.isSome_iff_exists.mp hfield
              exact absurd (entry_of_field hread).1 hentry
            · exact ih hrest hother

theorem no_field_of_blank (h : ∀ c ∈ line, p.chars.isSpace c = true) :
    frontmatterLine p line = none := by
  by_contra hsome
  obtain ⟨⟨key, value⟩, hread⟩ := Option.ne_none_iff_exists'.mp hsome
  have hentry := (entry_of_field hread).1
  have hempty : (strip p.chars.isSpace line).isEmpty = true := by
    rw [List.isEmpty_iff]
    by_contra hne
    obtain ⟨c, rest, hstrip⟩ := List.exists_cons_of_ne_nil hne
    have hc := (strip_ends p.chars.isSpace line).1 c (by rw [hstrip]; rfl)
    rw [h c (mem_of_mem_strip (hstrip ▸ List.mem_cons_self))] at hc
    cases hc
  unfold isEntry at hentry
  rw [hempty] at hentry
  cases hentry

/-- A rule is the mark between white space. -/
theorem rule_parts (h : isRule p line = true) :
    ∃ left right, line = left ++ "---".toList ++ right ∧
      (∀ c ∈ left, p.chars.isSpace c = true) ∧ ∀ c ∈ right, p.chars.isSpace c = true := by
  obtain ⟨left, right, hline, hleft, hright⟩ := strip_spec p.chars.isSpace line
  rw [show strip p.chars.isSpace line = "---".toList from of_decide_eq_true h] at hline
  exact ⟨left, right, hline, hleft, hright⟩

theorem dash_not_space : p.chars.isSpace '-' = false := p.chars.isSpace_ascii _ (by decide)

theorem dash_not_mem {blank : List Char} (h : ∀ c ∈ blank, p.chars.isSpace c = true) :
    '-' ∉ blank := by
  intro hdash
  have hspace := h '-' hdash
  rw [dash_not_space] at hspace
  cases hspace

/-- The lines before the next `---`, where the text begins with its first rule and has no `---`
between the rules. -/
theorem lines_before_eq {text : String} (h : PlainFrontmatter p text)
    (hsome : linesBetween p text ≠ []) :
    ∃ opening closing, linesBefore text = opening :: (linesBetween p text ++ closing) ∧
      (∀ c ∈ opening, p.chars.isSpace c = true) ∧
      (closing = [] ∨ ∃ blank, closing = [blank] ∧ ∀ c ∈ blank, p.chars.isSpace c = true) := by
  obtain ⟨rest, hrest⟩ : ∃ rest, text.toList = "---".toList ++ rest := by
    obtain ⟨rest, hrest⟩ := List.isPrefixOf_iff_prefix.mp h.head
    exact ⟨rest, hrest.symm⟩
  have hplain : ∀ c ∈ "---".toList, isLineBreak c = false := by
    intro c hc
    have hdash : c = '-' := by simpa using hc
    rw [hdash]
    simp [isLineBreak]
  have hmarker : "---".toList ≠ [] := by decide
  have hlines := split_lines_append hmarker hplain rest
  have hunruled := h.unruled
  unfold linesBetween at hsome hunruled ⊢
  rw [hrest, hlines] at hsome hunruled ⊢
  dsimp only at hsome hunruled ⊢
  by_cases hruled : (isRule p ("---".toList ++ (splitLines rest).headD []) &&
      (splitLines rest).tail.any (isRule p)) = true
  · rw [if_pos hruled] at hunruled ⊢
    obtain ⟨hfirst, hany⟩ := Bool.and_eq_true_iff.mp hruled
    obtain ⟨opening, lines, hsplit⟩ : ∃ opening lines, splitLines rest = opening :: lines := by
      cases hsplit : splitLines rest with
      | nil =>
          rw [hsplit] at hany
          cases hany
      | cons opening lines => exact ⟨opening, lines, rfl⟩
    rw [hsplit, List.headD_cons] at hfirst
    rw [hsplit, List.tail_cons] at hany hunruled ⊢
    -- What stands behind the mark of the first rule is white space.
    have hopening : ∀ c ∈ opening, p.chars.isSpace c = true := by
      obtain ⟨left, right, hparts, hleft, hright⟩ := rule_parts hfirst
      have hnone : left = [] := by
        by_contra hne
        obtain ⟨c, left, rfl⟩ := List.exists_cons_of_ne_nil hne
        have hdash : '-' = c := (List.cons.inj hparts).1
        exact dash_not_mem hleft (hdash ▸ List.mem_cons_self)
      rw [hnone, List.nil_append] at hparts
      rw [List.append_cancel_left hparts]
      exact hright
    have hunmarked : beforeFirst "---".toList opening = none := by
      by_contra hmarked
      obtain ⟨part, hpart⟩ := Option.ne_none_iff_exists'.mp hmarked
      exact dash_not_mem hopening (mem_of_before_first List.mem_cons_self hpart)
    obtain ⟨rule, body, hrule, hbody⟩ : ∃ rule body, isRule p rule = true ∧
        lines = lines.takeWhile (!isRule p ·) ++ rule :: body := by
      cases hdrop : lines.dropWhile (!isRule p ·) with
      | nil =>
          obtain ⟨line, hline, hruleLine⟩ := List.any_eq_true.mp hany
          have hnot := List.dropWhile_eq_nil_iff.mp hdrop line hline
          rw [hruleLine] at hnot
          cases hnot
      | cons rule body =>
          have hhead := List.head?_dropWhile_not (!isRule p ·) lines
          rw [hdrop] at hhead
          exact ⟨rule, body, by simpa using hhead, by
            rw [← hdrop, List.takeWhile_append_dropWhile]⟩
    obtain ⟨left, right, hparts, hleft, -⟩ := rule_parts hrule
    have hbefore : beforeFirst "---".toList rule = some left := by
      rw [hparts]
      exact before_first_append (dash_not_mem hleft) right
    have hsplitRest : splitLines rest =
        (opening :: lines.takeWhile (!isRule p ·)) ++ rule :: body := by
      rw [hsplit, List.cons_append, ← hbody]
    obtain ⟨kept, hkept, hkeptLines⟩ := split_lines_before hmarker hplain hsplitRest
      (List.forall_mem_cons.mpr ⟨hunmarked, hunruled⟩) hbefore
    refine ⟨opening, if left = [] then [] else [left], ?_, hopening, ?_⟩
    · unfold linesBefore
      rw [if_pos h.head, hrest]
      have hdrop : ("---".toList ++ rest).drop 3 = rest := rfl
      rw [hdrop, hkept]
      exact hkeptLines
    · by_cases hempty : left = []
      · exact .inl (if_pos hempty)
      · exact .inr ⟨left, if_neg hempty, hleft⟩
  · rw [if_neg hruled] at hsome
    exact absurd rfl hsome

theorem lower_description : p.lower "description" = "description" := by
  have hplain : ∀ c ∈ "description".toList, c.toNat < 128 ∧ c.toLower = c := by
    simp
  unfold Runtime.lower
  rw [p.chars.lower_from_small [] hplain, String.ofList_toList]

/-- A wrapped value that discovery reads is one of the gate's, also with a blank line behind it. -/
theorem continued_of_wrapped {more closing : List (List Char)} (hmore : more ≠ [])
    (hclosing : closing = [] ∨
      ∃ blank, closing = [blank] ∧ ∀ c ∈ blank, p.chars.isSpace c = true) :
    continuedValue p ((more ++ closing).map (p.stripSpace ∘ String.ofList)) =
      String.ofList (unquote (strip p.chars.isSpace
        (List.intercalate [' '] (more.map (strip p.chars.isSpace))))) := by
  have hspace : p.chars.isSpace ' ' = true := p.chars.isSpace_ascii _ (by decide)
  have hparts : ∀ lines : List (List Char), (join " "
      (lines.map (p.stripSpace ∘ String.ofList))).toList =
        List.intercalate [' '] (lines.map (strip p.chars.isSpace)) := by
    intro lines
    rw [join_to_list, List.map_map]
    refine congrArg (List.intercalate [' ']) (List.map_congr_left fun line _ => ?_)
    simp [Runtime.stripSpace]
  have hstripped : strip p.chars.isSpace (List.intercalate [' ']
      ((more ++ closing).map (strip p.chars.isSpace))) =
        strip p.chars.isSpace (List.intercalate [' '] (more.map (strip p.chars.isSpace))) := by
    rcases hclosing with rfl | ⟨blank, rfl, hblank⟩
    · rw [List.append_nil]
    · have hnone : strip p.chars.isSpace blank = [] := by
        by_contra hne
        obtain ⟨c, rest, hstrip⟩ := List.exists_cons_of_ne_nil hne
        have hc := (strip_ends p.chars.isSpace blank).1 c (by rw [hstrip]; rfl)
        rw [hblank c (mem_of_mem_strip (hstrip ▸ List.mem_cons_self))] at hc
        cases hc
      rw [List.map_append, List.map_singleton, hnone]
      have hsnoc : ∀ parts : List (List Char), parts ≠ [] →
          [' '].intercalate (parts ++ [[]]) = [' '].intercalate parts ++ [' '] := by
        intro parts hparts
        induction parts with
        | nil => exact absurd rfl hparts
        | cons part parts ih =>
            cases parts with
            | nil => simp
            | cons next parts =>
                rw [List.cons_append, List.cons_append, List.intercalate_cons_cons,
                  ← List.cons_append, ih (by simp), List.intercalate_cons_cons]
                simp
      rw [hsnoc _ (by simpa using hmore), strip_append_singleton hspace]
  have hquote : ∀ (code : Nat) (quote : Char), quote.toNat = code →
      (fun c : Char => decide (c.toNat = code)) = fun c => decide (c = quote) := by
    rintro code quote rfl
    funext c
    exact decide_eq_decide.mpr ⟨Char.toNat_inj.mp, congrArg Char.toNat⟩
  unfold continuedValue unquote
  dsimp only
  rw [hquote 39 '\'' rfl, hquote 34 '"' rfl, Runtime.stripSpace, String.toList_ofList, hparts,
    hstripped]

theorem continued_ne_of_wrapped {rest closing : List (List Char)}
    (hwrapped : (entryText p line).isEmpty = true)
    (htext : (entryValue p line (rest.takeWhile indented)).truthy = true)
    (hclosing : closing = [] ∨
      ∃ blank, closing = [blank] ∧ ∀ c ∈ blank, p.chars.isSpace c = true) :
    continuedValue p (((rest ++ closing).takeWhile indented).map
      (p.stripSpace ∘ String.ofList)) ≠ "" := by
  obtain ⟨closing', htake, hclosing'⟩ : ∃ closing', (rest ++ closing).takeWhile indented =
      rest.takeWhile indented ++ closing' ∧ (closing' = [] ∨
        ∃ blank, closing' = [blank] ∧ ∀ c ∈ blank, p.chars.isSpace c = true) := by
    rw [List.takeWhile_append]
    split
    · rename_i hall
      have hrest : rest.takeWhile indented = rest :=
        (List.takeWhile_prefix _).eq_of_length hall
      refine ⟨closing.takeWhile indented, by rw [hrest], ?_⟩
      rcases hclosing with rfl | ⟨blank, rfl, hblank⟩
      · exact .inl rfl
      · by_cases hindented : indented blank = true
        · exact .inr ⟨blank, List.takeWhile_cons_of_pos hindented, hblank⟩
        · exact .inl (List.takeWhile_cons_of_neg hindented)
    · exact ⟨[], (List.append_nil _).symm, .inl rfl⟩
  unfold entryValue at htext
  rw [if_pos hwrapped] at htext
  by_cases hmore : rest.takeWhile indented = []
  · rw [hmore] at htext
    simp [Json.truthy] at htext
  · rw [htake, continued_of_wrapped hmore hclosing']
    simpa [Json.truthy, hmore] using htext

theorem plain_kept {text : String} (h : PlainFrontmatter p text) : FieldsKept p text := by
  have hfuel := Nat.le_refl (linesBetween p text).length
  by_cases hsome : linesBetween p text = []
  · refine ⟨?_, ?_⟩
    · rintro ⟨front, line, more, back, hsplit, -⟩
      rw [hsome] at hsplit
      simp [entries] at hsplit
    · rintro ⟨line, hline, -⟩
      rw [hsome] at hline
      cases hline
  obtain ⟨opening, closing, hlines, hopening, hclosing⟩ := lines_before_eq h hsome
  refine ⟨?_, fun hentry => ?_⟩
  · rintro ⟨front, line, more, back, hsplit, hkey, hback, htext⟩
    obtain ⟨before, rest, fuel, hbetween, rfl, hrest, hrestFuel⟩ := entries_split hfuel hsplit
    have hmem : (line, rest.takeWhile (takes p line)) ∈
        entries p (linesBetween p text).length (linesBetween p text) := by
      rw [hsplit]
      simp
    obtain ⟨⟨key, value⟩, hread⟩ := Option.isSome_iff_exists.mp (h.named _ hmem)
    obtain ⟨-, hname, hvalue⟩ := entry_of_field hread
    rw [hkey, lower_description] at hname
    refine ⟨opening :: before, line, rest ++ closing, value, ?_, hname ▸ hread, ?_, ?_⟩
    · rw [hlines, hbetween]
      simp
    · intro other hother value' hread'
      have hfield : (frontmatterLine p other).isSome = true := by rw [hread']; rfl
      rcases List.mem_append.mp hother with hother | hother
      · -- A line with a field behind the entry heads a later entry.
        rw [← List.takeWhile_append_dropWhile (p := takes p line) (l := rest)] at hother
        rcases List.mem_append.mp hother with htaken | hleft
        · have htakes := List.mem_takeWhile_imp htaken
          rw [not_takes_of_field hfield] at htakes
          cases htakes
        · obtain ⟨entry, hentry, rfl⟩ := entry_of_mem hrestFuel hleft hfield
          rw [← hrest] at hentry
          refine hback entry hentry (h.lower entry ?_ value' hread')
          rw [hsplit]
          exact List.mem_append_right _ (List.mem_cons_of_mem _ hentry)
      · rcases hclosing with rfl | ⟨blank, rfl, hblank⟩
        · cases hother
        · rw [List.mem_singleton.mp hother, no_field_of_blank hblank] at hfield
          cases hfield
    · by_cases hempty : value = ""
      · right
        have hblank : strip p.chars.isSpace ((line.dropWhile (· ≠ ':')).drop 1) = [] := by
          rw [hvalue, Runtime.stripSpace, String.toList_ofList] at hempty
          simpa using hempty
        have hwrapped : (entryText p line).isEmpty = true := by
          rw [entryText, hblank]
          rfl
        rw [takes_wrapped hwrapped] at htext
        exact continued_ne_of_wrapped hwrapped htext hclosing
      · exact .inl hempty
  · obtain ⟨entry, back, hentries⟩ :=
      List.exists_cons_of_ne_nil ((entries_ne_nil hfuel).mpr hentry)
    have hmem : entry ∈ entries p (linesBetween p text).length (linesBetween p text) := by
      rw [hentries]
      exact List.mem_cons_self
    have hfirst : entries p (linesBetween p text).length (linesBetween p text) =
        [] ++ (entry.1, entry.2) :: back := hentries
    obtain ⟨before, rest, -, hbetween, -⟩ := entries_split hfuel hfirst
    refine ⟨entry.1, ?_, h.named entry hmem⟩
    rw [hlines, hbetween]
    simp

/-- **Discovery and the metadata gate read the same front matter exactly when the lines before the
next `---` keep a field for the entries and a description with text for the last one; they do where
the front matter is plain.** -/
theorem readers_agree_iff (text : String) :
    (ReadersAgree p text ↔ FieldsKept p text) ∧ (PlainFrontmatter p text → FieldsKept p text) :=
  ⟨agree_iff_kept text, plain_kept⟩

end

/-- A skill whose name has a `---` in it. -/
def dashedSkill : String := "---\nname: x---y\ndescription: Notes.\n---\n"

/-- The gate stops reading at the `---` in the name. -/
theorem readers_agree_counterexample :
    ¬ ∀ (p : Platform) (text : String), ReadersAgree p text := by
  intro hclaim
  have hreads : Dict.truthy (parseFrontmatter .sample dashedSkill).1 "description" = true ∧
      (parseFrontmatter .sample dashedSkill).1 ≠ [] ∧
      ((frontmatterFields .sample dashedSkill).lookup "description").getD "" = "" := by
    decide +kernel
  exact (hclaim .sample dashedSkill).described hreads.1 hreads.2.1 hreads.2.2

end Capmesh
