import Mathlib.Data.Bool.AllAny
import Mathlib.Data.List.Nodup
import Capmesh.Python.Canonical
import Capmesh.Python.Patterns

/-!
# Metadata for rendering

`sanitize_metadata` of `router.py` takes control characters out of the texts of a record before a
model reads them. An escape sequence is removed as a whole, and what is left of the C0 controls
character by character. Its filter lets every character above `~` pass before it comes to the branch
for the C1 controls; `sanitize_metadata_iff` says which records are clean all the same.
-/

namespace Capmesh

open Python

/-- The length of a match of `\x1b\[[0-9;]*[a-zA-Z]`. -/
def csiLength : List Char → Option Nat
  | '\x1b' :: '[' :: text =>
      let arguments := text.takeWhile fun c => c.isDigit || c = ';'
      match text.drop arguments.length with
      | letter :: _ => if letter.isAlpha then some (arguments.length + 3) else none
      | [] => none
  | _ => none

/-- The length of a match of `\x1b\][^\x07\x1b]*?(\x07|\x1b\\)`. -/
def oscLength : List Char → Option Nat
  | '\x1b' :: ']' :: text =>
      let content := text.takeWhile fun c => c ≠ '\x07' && c ≠ '\x1b'
      match text.drop content.length with
      | '\x07' :: _ => some (content.length + 3)
      | '\x1b' :: '\\' :: _ => some (content.length + 4)
      | _ => none
  | _ => none

/-- Whether the loop of `strip_control_sequences` keeps a character. -/
def isKept (c : Char) : Bool :=
  let cp := c.toNat
  if cp = 0x09 || cp = 0x0A || cp = 0x0D || cp = 0x20 then true
  else if cp > 0x7E then true
  else if cp < 0x20 then false
  else if cp ≥ 0x80 && cp ≤ 0x9F then false
  else true

/-- `strip_control_sequences`. -/
def stripControlSequences (value : String) : String :=
  let cleaned := removeMatches csiLength value.toList
  let cleaned := removeMatches oscLength cleaned
  String.ofList (cleaned.filter isKept)

/-- `_METADATA_TEXT_FIELDS`. -/
def metadataTextFields : List String :=
  ["description", "title", "summary", "instructions", "system-prompt", "sourceSystem"]

/-- `_METADATA_FIELD_MAX`. -/
def metadataFieldMax : Nat := 4000

/-- `_wrap_free_text`. -/
def wrapFreeText (value : String) : String :=
  let escaped := stripControlSequences value
  if escaped.length > metadataFieldMax then
    String.ofList (escaped.toList.take metadataFieldMax) ++ "... [truncated]"
  else escaped

/-- The result of `to_record()`: a dictionary has each of its keys once. -/
@[ext] structure MetadataRecord where
  fields : Dict
  distinct : (fields.map Prod.fst).Nodup

/-- A value of `sanitize_metadata` under its key. -/
def sanitizeField (key : String) : Json → Json
  | .str value =>
      let stripped := stripControlSequences value
      .str (if metadataTextFields.contains key then wrapFreeText stripped else stripped)
  | value => value

/-- An item of the keywords. -/
def sanitizeKeyword : Json → Json
  | .str keyword => .str (wrapFreeText (stripControlSequences keyword))
  | keyword => keyword

/-- The fields of `sanitize_metadata`. -/
def sanitizedFields (record : Dict) : Dict :=
  let sanitized := record.map fun field => (field.1, sanitizeField field.1 field.2)
  match record.get? "keywords" with
  | some (.arr keywords) => Dict.set sanitized "keywords" (.arr (keywords.map sanitizeKeyword))
  | _ => sanitized

/-- A value of the result from the value of the record. -/
def sanitizedValue (key : String) : Json → Json
  | .arr keywords => .arr (if key = "keywords" then keywords.map sanitizeKeyword else keywords)
  | value => sanitizeField key value

section

variable {key : String} {value : Json} {record : Dict} {c : Char} {text : List Char}

theorem holds_of_distinct (hdistinct : (record.map Prod.fst).Nodup) (hmem : (key, value) ∈ record) :
    Dict.Holds record key value where
  has := List.any_eq_true.mpr ⟨_, hmem, by simp⟩
  only field hfield hkey :=
    congrArg Prod.snd (List.inj_on_of_nodup_map hdistinct hfield hmem hkey)

theorem get?_of_holds (h : Dict.Holds record key value) {found : Json}
    (hfound : Dict.get? record key = some found) : found = value := by
  by_cases hnull : value = .null
  · obtain ⟨field, hfield, hkey⟩ := List.any_eq_true.mp h.has
    have hlast : ∀ field, record.find? (fun field => field.1 = key) = some field →
        field.2 = .null := by
      intro field hfind
      rw [h.only field (List.mem_of_find?_eq_some hfind) (by simpa using List.find?_some hfind), hnull]
    unfold Dict.get? at hfound
    split at hfound
    · exact nomatch hfound
    · rename_i name other hvalue hfind
      exact absurd (hlast _ hfind) hvalue
    · exact nomatch hfound
  · rw [h.get? hnull] at hfound
    exact (Option.some.inj hfound).symm

theorem sanitized_fields_eq (hdistinct : (record.map Prod.fst).Nodup) :
    sanitizedFields record = record.map fun field => (field.1, sanitizedValue field.1 field.2) := by
  unfold sanitizedFields
  split
  · rename_i keywords hkeywords
    have hhas : Dict.has (record.map fun field => (field.1, sanitizeField field.1 field.2))
        "keywords" = true := by
      unfold Dict.get? at hkeywords
      split at hkeywords
      · cases hkeywords
      · rename_i name other hvalue hfind
        refine List.any_eq_true.mpr ⟨_, List.mem_map_of_mem (List.mem_of_find?_eq_some hfind), ?_⟩
        simpa using List.find?_some hfind
      · cases hkeywords
    rw [Dict.set, if_pos hhas, List.map_map]
    refine List.map_congr_left fun field hfield => ?_
    obtain ⟨key, value⟩ := field
    by_cases hkey : key = "keywords"
    · subst hkey
      obtain rfl := get?_of_holds (holds_of_distinct hdistinct hfield) hkeywords
      simp [sanitizedValue]
    · cases value <;> simp [sanitizedValue, sanitizeField, hkey]
  · rename_i hother
    refine List.map_congr_left fun field hfield => ?_
    obtain ⟨key, value⟩ := field
    cases value with
    | arr keywords =>
        by_cases hkey : key = "keywords"
        · subst hkey
          exact absurd ((holds_of_distinct hdistinct hfield).get? fun h => by cases h) (hother keywords)
        · simp [sanitizedValue, sanitizeField, hkey]
    | null | bool | int | float | str | obj => rfl

/-- `sanitize_metadata`. -/
def sanitizeMetadata (record : MetadataRecord) : MetadataRecord where
  fields := sanitizedFields record.fields
  distinct := by
    rw [sanitized_fields_eq record.distinct, List.map_map]
    exact record.distinct

end

/-- A C0 control other than a tab, a newline and a carriage return. -/
def IsC0 (c : Char) : Prop := c.toNat < 0x20 ∧ c.toNat ≠ 0x09 ∧ c.toNat ≠ 0x0A ∧ c.toNat ≠ 0x0D

/-- DEL or a C1 control. -/
def IsLate (c : Char) : Prop := 0x7F ≤ c.toNat ∧ c.toNat ≤ 0x9F

instance : DecidablePred IsC0 := fun _ => inferInstanceAs (Decidable (_ ∧ _))

instance : DecidablePred IsLate := fun _ => inferInstanceAs (Decidable (_ ∧ _))

/-- The text outside the escape sequences of a value, without its C0 controls. -/
def outsideText (value : String) : List Char :=
  (removeMatches oscLength (removeMatches csiLength value.toList)).filter fun c => ¬ IsC0 c

/-- No DEL and no C1 control stands outside the escape sequences of a text; of a free text only what
the cap leaves counts. -/
def FreeOfLate (free : Bool) (value : String) : Prop :=
  ∀ c ∈ if free then (outsideText value).take metadataFieldMax else outsideText value, ¬ IsLate c

/-- The text of a keyword. -/
def keywordText : Json → Option String
  | .str keyword => some keyword
  | _ => none

/-- The texts under a key that are sanitized, each with whether it is a free text. -/
def renderedTexts (key : String) : Json → List (Bool × String)
  | .str value => [(metadataTextFields.contains key, value)]
  | .arr keywords =>
      if key = "keywords" then (keywords.filterMap keywordText).map (true, ·) else []
  | _ => []

/-- Characters were deleted from a text, and a free text may have been cut at the cap. -/
def Erased (free : Bool) (before after : String) : Prop :=
  after.toList.Sublist before.toList ∨ free = true ∧ ∃ kept : List Char,
    kept.Sublist before.toList ∧ metadataFieldMax < kept.length ∧
      after = String.ofList (kept.take metadataFieldMax) ++ "... [truncated]"

/-- What became of a keyword. -/
inductive ErasedKeyword : Json → Json → Prop
  | text {before after : String} (h : Erased true before after) :
      ErasedKeyword (.str before) (.str after)
  | other {keyword : Json} (h : keywordText keyword = none) : ErasedKeyword keyword keyword

/-- What became of the value of a key. -/
inductive ErasedValue (key : String) : Json → Json → Prop
  | text {before after : String} (h : Erased (metadataTextFields.contains key) before after) :
      ErasedValue key (.str before) (.str after)
  | keywords {before after : List Json} (hkey : key = "keywords")
      (h : List.Forall₂ ErasedKeyword before after) : ErasedValue key (.arr before) (.arr after)
  | other {value : Json} (htext : keywordText value = none)
      (hlist : key = "keywords" → ∀ keywords, value ≠ .arr keywords) : ErasedValue key value value

/-- A record fit to be rendered, made of another one by deleting. -/
structure Sanitized (record result : MetadataRecord) : Prop where
  clean : ∀ field ∈ result.fields, ∀ entry ∈ renderedTexts field.1 field.2,
    ∀ c ∈ entry.2.toList, ¬ IsC0 c ∧ ¬ IsLate c
  erased : List.Forall₂ (fun before after => after.1 = before.1 ∧
    ErasedValue before.1 before.2 after.2) record.fields result.fields
  again : sanitizeMetadata result = result

/-- What a text is replaced with. -/
def sanitizeText (free : Bool) (value : String) : String :=
  if free then wrapFreeText (stripControlSequences value) else stripControlSequences value

/-- The cap of `_wrap_free_text`. -/
def capText (value : String) : String :=
  if value.length > metadataFieldMax then
    String.ofList (value.toList.take metadataFieldMax) ++ "... [truncated]"
  else value

section

variable {value : String} {free : Bool} {c : Char}

theorem is_kept_iff : isKept c = true ↔ ¬ IsC0 c := by
  unfold isKept IsC0
  grind

theorem strip_to_list (value : String) :
    (stripControlSequences value).toList = outsideText value := by
  unfold stripControlSequences outsideText
  rw [String.toList_ofList]
  refine List.filter_congr fun c _ => ?_
  rw [Bool.eq_iff_iff, is_kept_iff]
  simp

theorem not_c0_of_outside (h : c ∈ outsideText value) : ¬ IsC0 c := by
  simpa using (List.mem_filter.mp h).2

/-- Every escape sequence begins with ESC, so a text without controls has none. -/
theorem strip_control_eq_self (h : ∀ c ∈ value.toList, ¬ IsC0 c) : stripControlSequences value = value := by
  have hescape : '\x1b' ∉ value.toList := fun hmem => h _ hmem (by decide)
  have hcsi : ∀ c text, c ≠ '\x1b' → csiLength (c :: text) = none := by
    intro c text hc
    unfold csiLength
    split
    · exact absurd (List.cons.inj ‹_›).1 hc
    · rfl
  have hosc : ∀ c text, c ≠ '\x1b' → oscLength (c :: text) = none := by
    intro c text hc
    unfold oscLength
    split
    · exact absurd (List.cons.inj ‹_›).1 hc
    · rfl
  rw [← String.toList_inj, strip_to_list, outsideText, remove_matches_eq_self hcsi hescape,
    remove_matches_eq_self hosc hescape, List.filter_eq_self]
  exact fun c hc => by simpa using h c hc

theorem strip_not_c0 (value : String) : ∀ c ∈ (stripControlSequences value).toList, ¬ IsC0 c := by
  rw [strip_to_list]
  exact fun c => not_c0_of_outside

theorem wrap_free_text_eq (value : String) :
    wrapFreeText value = capText (stripControlSequences value) := rfl

/-- The second pass over a free text has nothing to remove. -/
theorem sanitize_text_eq (free : Bool) (value : String) : sanitizeText free value =
    if free then capText (stripControlSequences value) else stripControlSequences value := by
  unfold sanitizeText
  rw [wrap_free_text_eq, strip_control_eq_self (strip_not_c0 value)]

theorem cap_text_to_list (value : String) : (capText value).toList =
    if value.toList.length > metadataFieldMax then
      value.toList.take metadataFieldMax ++ "... [truncated]".toList
    else value.toList := by
  unfold capText
  rw [← String.length_toList]
  split
  · rw [String.toList_append, String.toList_ofList]
  · rfl

theorem cap_text_not_c0 (h : ∀ c ∈ value.toList, ¬ IsC0 c) :
    ∀ c ∈ (capText value).toList, ¬ IsC0 c := by
  intro c hc
  rw [cap_text_to_list] at hc
  split at hc
  · rcases List.mem_append.mp hc with hc | hc
    · exact h c (List.mem_of_mem_take hc)
    · have hmarker : ∀ c ∈ "... [truncated]".toList, ¬ IsC0 c :=
        List.all_iff_forall_prop.mp (by decide +kernel)
      exact hmarker c hc
  · exact h c hc

/-- The cap leaves a capped text alone: the marker makes it longer than the cap again. -/
theorem cap_text_cap_text (value : String) : capText (capText value) = capText value := by
  rw [← String.toList_inj, cap_text_to_list (capText value), cap_text_to_list]
  by_cases hlong : value.toList.length > metadataFieldMax
  · have hcut : (value.toList.take metadataFieldMax).length = metadataFieldMax := by
      rw [List.length_take]
      omega
    rw [if_pos hlong, if_pos, List.take_append_of_le_length (Nat.le_of_eq hcut.symm), List.take_take,
      Nat.min_self]
    rw [List.length_append, hcut]
    exact Nat.lt_add_of_pos_right (by decide +kernel)
  · rw [if_neg hlong, if_neg hlong]

theorem sanitize_text_again (free : Bool) (value : String) :
    sanitizeText free (sanitizeText free value) = sanitizeText free value := by
  rw [sanitize_text_eq free (sanitizeText free value), sanitize_text_eq]
  cases free with
  | false => exact strip_control_eq_self (strip_not_c0 value)
  | true =>
      simp only [if_true]
      rw [strip_control_eq_self (cap_text_not_c0 (strip_not_c0 value)), cap_text_cap_text]

theorem erased_sanitize_text (free : Bool) (value : String) :
    Erased free value (sanitizeText free value) := by
  have hsublist : (stripControlSequences value).toList.Sublist value.toList := by
    rw [strip_to_list]
    exact List.filter_sublist.trans
      ((remove_matches_sublist _).trans (remove_matches_sublist _))
  rw [sanitize_text_eq]
  cases free with
  | false => exact .inl hsublist
  | true =>
      simp only [if_true, capText]
      split
      · rename_i hlong
        rw [← String.length_toList] at hlong
        exact .inr ⟨rfl, _, hsublist, hlong, rfl⟩
      · exact .inl hsublist

/-- A text comes out clean when nothing outside its escape sequences is a DEL or a C1 control. -/
theorem sanitize_text_clean_iff : (∀ c ∈ (sanitizeText free value).toList, ¬ IsC0 c ∧ ¬ IsLate c) ↔
    FreeOfLate free value := by
  rw [sanitize_text_eq]
  unfold FreeOfLate
  cases free with
  | false =>
      simp only [Bool.false_eq_true, if_false, strip_to_list]
      exact forall₂_congr fun c hc => and_iff_right (not_c0_of_outside hc)
  | true =>
      simp only [if_true, cap_text_to_list, strip_to_list]
      split
      · have hmarker : ∀ c ∈ "... [truncated]".toList, ¬ IsC0 c ∧ ¬ IsLate c :=
          List.all_iff_forall_prop.mp (by decide +kernel)
        constructor
        · exact fun h c hc => (h c (List.mem_append_left _ hc)).2
        · intro h c hc
          rcases List.mem_append.mp hc with hc | hc
          · exact ⟨not_c0_of_outside (List.mem_of_mem_take hc), h c hc⟩
          · exact hmarker c hc
      · rename_i hshort
        rw [List.take_of_length_le (Nat.not_lt.mp hshort)]
        exact forall₂_congr fun c hc => and_iff_right (not_c0_of_outside hc)

@[simp] theorem sanitized_value_str (key value : String) : sanitizedValue key (.str value) =
    .str (sanitizeText (metadataTextFields.contains key) value) := by
  simp only [sanitizedValue, sanitizeField, sanitizeText]

@[simp] theorem sanitize_keyword_str (keyword : String) :
    sanitizeKeyword (.str keyword) = .str (sanitizeText true keyword) := by
  simp only [sanitizeKeyword, sanitizeText, if_true]

theorem keyword_text_sanitized (keyword : Json) :
    keywordText (sanitizeKeyword keyword) = (keywordText keyword).map (sanitizeText true) := by
  cases keyword with
  | str keyword => simp [keywordText]
  | null | bool | int | float | arr | obj => rfl

theorem rendered_texts_sanitized (key : String) (value : Json) :
    renderedTexts key (sanitizedValue key value) =
      (renderedTexts key value).map fun entry => (entry.1, sanitizeText entry.1 entry.2) := by
  cases value with
  | str value => simp [renderedTexts]
  | arr keywords =>
      by_cases hkey : key = "keywords"
      · have htexts : (keywords.map sanitizeKeyword).filterMap keywordText =
            (keywords.filterMap keywordText).map (sanitizeText true) := by
          rw [List.filterMap_map, List.map_filterMap]
          exact congrArg (List.filterMap · keywords) (funext keyword_text_sanitized)
        simp [renderedTexts, sanitizedValue, hkey, htexts]
      · simp [renderedTexts, sanitizedValue, hkey]
  | null | bool | int | float | obj => rfl

theorem erased_keyword_sanitized (keyword : Json) :
    ErasedKeyword keyword (sanitizeKeyword keyword) := by
  cases keyword with
  | str keyword =>
      rw [sanitize_keyword_str]
      exact .text (erased_sanitize_text true keyword)
  | null | bool | int | float | arr | obj => exact .other rfl

theorem erased_value_sanitized (key : String) (value : Json) :
    ErasedValue key value (sanitizedValue key value) := by
  cases value with
  | str value =>
      rw [sanitized_value_str]
      exact .text (erased_sanitize_text _ value)
  | arr keywords =>
      by_cases hkey : key = "keywords"
      · simp only [sanitizedValue, if_pos hkey]
        refine .keywords hkey ?_
        rw [List.forall₂_map_right_iff, List.forall₂_same]
        exact fun keyword _ => erased_keyword_sanitized keyword
      · simp only [sanitizedValue, if_neg hkey]
        exact .other rfl fun h => absurd h hkey
  | null | bool | int | float | obj => exact .other rfl nofun

theorem sanitized_value_again (key : String) (value : Json) :
    sanitizedValue key (sanitizedValue key value) = sanitizedValue key value := by
  cases value with
  | str value => simp [sanitize_text_again]
  | arr keywords =>
      have hkeyword : ∀ keyword,
          sanitizeKeyword (sanitizeKeyword keyword) = sanitizeKeyword keyword := by
        intro keyword
        cases keyword with
        | str keyword => simp [sanitize_text_again]
        | null | bool | int | float | arr | obj => rfl
      by_cases hkey : key = "keywords"
      · simp [sanitizedValue, hkey, hkeyword]
      · simp [sanitizedValue, hkey]
  | null | bool | int | float | obj => rfl

end

theorem sanitize_metadata_fields (record : MetadataRecord) : (sanitizeMetadata record).fields =
    record.fields.map fun field => (field.1, sanitizedValue field.1 field.2) :=
  sanitized_fields_eq record.distinct

/-- Sanitized metadata carries no control characters, is made of the record by deleting, and stays
as it is: exactly for the records in which no DEL and no C1 control stands outside the escape
sequences of a text. -/
theorem sanitize_metadata_iff (record : MetadataRecord) :
    Sanitized record (sanitizeMetadata record) ↔
      ∀ field ∈ record.fields, ∀ entry ∈ renderedTexts field.1 field.2,
        FreeOfLate entry.1 entry.2 := by
  constructor
  · intro h field hfield entry hentry
    rw [← sanitize_text_clean_iff]
    refine h.clean (field.1, sanitizedValue field.1 field.2) ?_
      (entry.1, sanitizeText entry.1 entry.2) ?_
    · rw [sanitize_metadata_fields]
      exact List.mem_map_of_mem hfield
    · rw [rendered_texts_sanitized]
      exact List.mem_map_of_mem hentry
  · intro hfree
    have hfields := sanitize_metadata_fields record
    refine ⟨?_, ?_, ?_⟩
    · rw [hfields, List.forall_mem_map]
      intro field hfield
      simp only [rendered_texts_sanitized, List.forall_mem_map]
      exact fun entry hentry => sanitize_text_clean_iff.mpr (hfree field hfield entry hentry)
    · rw [hfields, List.forall₂_map_right_iff, List.forall₂_same]
      exact fun field _ => ⟨rfl, erased_value_sanitized field.1 field.2⟩
    · refine MetadataRecord.ext ?_
      rw [sanitize_metadata_fields (sanitizeMetadata record), hfields, List.map_map]
      refine List.map_congr_left fun field _ => ?_
      exact congrArg (Prod.mk field.1) (sanitized_value_again field.1 field.2)

/-- DEL is kept: the branch for the characters above `~` lets it pass. -/
theorem sanitize_metadata_counterexample :
    ¬ ∀ record : MetadataRecord, Sanitized record (sanitizeMetadata record) := by
  intro hclaim
  let record : MetadataRecord := ⟨[("name", .str "notes\x7f")], by simp⟩
  have hfields : (sanitizeMetadata record).fields = [("name", .str "notes\x7f")] := by
    decide +kernel
  have hclean := (hclaim record).clean ("name", .str "notes\x7f") (by rw [hfields]; exact .head _)
    (false, "notes\x7f") (by decide +kernel) '\x7f' (by decide +kernel)
  exact absurd hclean.2 (by decide)

end Capmesh
