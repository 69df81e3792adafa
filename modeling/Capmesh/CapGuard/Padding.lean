import Capmesh.CapGuard.Scanning
import Capmesh.Python.Ascii
import Capmesh.Python.Casing

/-!
# The injection scan under padding

White space and zero-width characters are the padding that `scan_prompt_injection` is to see
through. A phrase is found exactly when it stands, without its spaces, in the folded content without
white space (`mem_scan_iff`). Padding leaves that view as it is but for the form of a sigma, which no
phrase has: `scan_prompt_injection_padded`.
-/

namespace Capmesh

open Python

/-- White space or a zero-width character. -/
def isPad (p : Platform) (c : Char) : Bool := p.chars.isSpace c || zeroWidth.contains c.toNat

/-- A text with padding inserted at any positions. -/
inductive PaddedText (p : Platform) : List Char → List Char → Prop
  | nil : PaddedText p [] []
  | keep {c : Char} {text padded : List Char} (h : PaddedText p text padded) :
      PaddedText p (c :: text) (c :: padded)
  | insert {c : Char} {text padded : List Char} (hpad : isPad p c = true)
      (h : PaddedText p text padded) : PaddedText p text (c :: padded)

/-- The NFKC form of one character. -/
def nfkcChar (p : Platform) (c : Char) : List Char := (p.nfkc (String.singleton c)).toList

/-- NFKC takes the characters of a text one at a time. -/
def NfkcByChar (p : Platform) (content : String) : Prop :=
  (p.nfkc content).toList = content.toList.flatMap (nfkcChar p)

/-- What the Unicode tables say of padding, of the look-alike letters and of sigma. -/
structure PadTables (p : Platform) : Prop where
  nfkc_space : ∀ c, p.chars.isSpace c = true → ∀ d ∈ nfkcChar p c, p.chars.isSpace d = true
  nfkc_zero_width : ∀ c, zeroWidth.contains c.toNat = true → nfkcChar p c = [c]
  lower_space : ∀ c, p.chars.isSpace c = true → p.chars.lower c = [c]
  letters : ∀ c ∈ homoglyphs.map Prod.fst ++ ['Σ', 'σ', 'ς'], p.chars.isSpace c = false
  /-- A table that knows no Greek letters has no lower case for one. -/
  lower_sigma : p.chars.lower 'Σ' = ['σ'] ∨ p.chars.lower 'Σ' = ['Σ']

/-- A phrase without its spaces. -/
def despaced (phrase : String) : List Char := phrase.toList.filter (· ≠ ' ')

/-- The folded content without white space. -/
def compactView (p : Platform) (content : String) : List Char :=
  (foldContent p content).filter fun c => !p.chars.isSpace c

/-- A look-alike replaced with its Latin letter. -/
def latinOf (c : Char) : Char := (homoglyphs.lookup c).getD c

/-- The forms of sigma taken for one. -/
def blurSigma (c : Char) : Char := if ['Σ', 'σ', 'ς'].contains c then 'σ' else c

/-- What one character of a content leaves in the view, sigma blurred. -/
def blurredView (p : Platform) (c : Char) : List Char :=
  ((((nfkcChar p c).filter fun c => !zeroWidth.contains c.toNat).flatMap p.chars.lower).map
    fun c => latinOf (blurSigma c)).filter fun c => !p.chars.isSpace c

section

variable {p : Platform} {content padded phrase : String} {text part : List Char} {c : Char}

theorem injection_phrase_char : ∀ phrase ∈ injectionPhrases, ∀ c ∈ phrase.toList,
    c.toNat < 128 ∧ isAsciiSpace c = (c = ' ') := by
  have hphrases : (injectionPhrases.all fun phrase => (fastChars phrase).all fun c =>
      c.toNat < 128 && isAsciiSpace c = decide (c = ' ')) = true := by
    decide +kernel
  simp only [fast_chars_eq, List.all_eq_true, Bool.and_eq_true, decide_eq_true_eq] at hphrases
  intro phrase hphrase c hc
  obtain ⟨hascii, hspace⟩ := hphrases phrase hphrase c hc
  exact ⟨hascii, by simp [hspace]⟩

theorem despaced_eq (hphrase : phrase ∈ injectionPhrases) :
    phrase.toList.filter (fun c => !p.chars.isSpace c) = despaced phrase := by
  refine List.filter_congr fun c hc => ?_
  obtain ⟨hascii, hspace⟩ := injection_phrase_char phrase hphrase c hc
  rw [p.chars.isSpace_ascii c hascii]
  by_cases hc : c = ' ' <;> simp [hc] at hspace ⊢ <;> simpa using hspace

/-- Collapsing white space leaves the other characters. -/
theorem filter_collapse (text : List Char) :
    (collapseSpace p text).filter (fun c => !p.chars.isSpace c) =
      text.filter fun c => !p.chars.isSpace c := by
  have hblank : p.chars.isSpace ' ' = true := by
    rw [p.chars.isSpace_ascii ' ' (by decide)]
    rfl
  induction text with
  | nil => rfl
  | cons c text ih =>
      unfold collapseSpace
      by_cases hc : p.chars.isSpace c = true
      · rw [if_pos hc]
        cases text with
        | nil => simp [hc, hblank]
        | cons d rest =>
            by_cases hd : p.chars.isSpace d = true
            · dsimp only
              rw [if_pos hd, ih]
              simp [hc]
            · dsimp only
              rw [if_neg hd, List.filter_cons, ih]
              simp [hc, hblank]
      · rw [if_neg hc, List.filter_cons, List.filter_cons, ih]

theorem mem_scan_iff : phrase ∈ scanPromptInjection p content ↔
    phrase ∈ injectionPhrases ∧ despaced phrase <:+: compactView p content := by
  unfold scanPromptInjection
  rw [List.mem_filter]
  refine and_congr_right fun hphrase => ?_
  rw [Bool.or_eq_true, contains_iff, contains_iff]
  refine ⟨fun h => h.elim (fun hcollapsed => ?_) id, .inr⟩
  -- a match in the collapsed view is one in the compact view
  have hfiltered := hcollapsed.filter fun c => !p.chars.isSpace c
  rwa [despaced_eq hphrase, filter_collapse] at hfiltered

theorem sigma_cases (c : Char) : c ∈ ['Σ', 'σ', 'ς'] ∧ blurSigma c = 'σ' ∨
    c ∉ ['Σ', 'σ', 'ς'] ∧ blurSigma c = c := by
  unfold blurSigma
  by_cases hc : c ∈ ['Σ', 'σ', 'ς']
  · exact .inl ⟨hc, if_pos (by simpa using hc)⟩
  · exact .inr ⟨hc, if_neg (by simpa using hc)⟩

/-- A part without sigma stands in a text where it stands in the blurred one. -/
theorem infix_blur_iff (hpart : ∀ c ∈ part, c.toNat < 128) :
    part <:+: text.map blurSigma ↔ part <:+: text := by
  have hgreek : ∀ c ∈ ['Σ', 'σ', 'ς'], ¬ c.toNat < 128 := by simp
  constructor
  · rintro ⟨front, back, hsplit⟩
    obtain ⟨left, rest, rfl, hleft, -⟩ := List.map_eq_append_iff.mp hsplit.symm
    obtain ⟨found, middle, rfl, -, hmiddle⟩ := List.map_eq_append_iff.mp hleft
    have hsame : middle.map blurSigma = middle.map id := by
      refine List.map_congr_left fun c hc => ?_
      rcases sigma_cases c with ⟨-, hblur⟩ | ⟨-, hblur⟩
      · have hmem : 'σ' ∈ part := hmiddle ▸ hblur ▸ List.mem_map_of_mem hc
        exact absurd (hpart 'σ' hmem) (by decide)
      · exact hblur
    rw [← hmiddle, hsame, List.map_id]
    exact ⟨found, rest, rfl⟩
  · intro hinfix
    have hsame : part.map blurSigma = part.map id := by
      refine List.map_congr_left fun c hc => ?_
      rcases sigma_cases c with ⟨hsigma, -⟩ | ⟨-, hblur⟩
      · exact absurd (hpart c hc) (hgreek c hsigma)
      · exact hblur
    have hmapped := hinfix.map blurSigma
    rwa [hsame, List.map_id] at hmapped

/-- No look-alike is taken for a sigma. -/
theorem blur_latin (c : Char) : blurSigma (latinOf c) = latinOf (blurSigma c) := by
  have hletters : ∀ pair ∈ homoglyphs, blurSigma pair.2 = pair.2 := by decide
  have hgreek : ['Σ', 'σ', 'ς'].all (fun c => latinOf c = c) = true := by decide
  have hsigma : latinOf 'σ' = 'σ' ∧ ∀ c ∈ ['Σ', 'σ', 'ς'], latinOf c = c :=
    ⟨by decide, by simpa using hgreek⟩
  rcases sigma_cases c with ⟨hc, hblur⟩ | ⟨hc, hblur⟩
  · rw [hblur, hsigma.1, hsigma.2 c hc, hblur]
  · rw [hblur]
    unfold latinOf
    cases hlookup : homoglyphs.lookup c with
    | none => exact hblur
    | some letter =>
        obtain ⟨front, back, hsplit, -⟩ := List.lookup_eq_some_iff.mp hlookup
        exact hletters (c, letter) (by simp [hsplit])

/-- The lower case of a text is that of its characters, the forms of sigma aside. -/
theorem blur_lower (tables : PadTables p) (before text : List Char) :
    (p.chars.lowerFrom before text).map blurSigma =
      (text.flatMap p.chars.lower).map blurSigma := by
  have hsmall : (p.chars.lower 'Σ').map blurSigma = ['σ'] := by
    rcases tables.lower_sigma with h | h
    · rw [h]
      rfl
    · rw [h]
      rfl
  induction text generalizing before with
  | nil => rfl
  | cons c text ih =>
      have hunfold : p.chars.lowerFrom before (c :: text) =
          p.chars.lowerAt before c text ++ p.chars.lowerFrom (c :: before) text := rfl
      rw [hunfold, List.flatMap_cons, List.map_append, List.map_append, ih]
      rcases CharTable.lower_at_cases p.chars before c text with hlower | ⟨rfl, -, hlower⟩
      · rw [hlower]
      · rw [hlower, hsmall]
        rfl

theorem is_space_blur (tables : PadTables p) (c : Char) :
    p.chars.isSpace (blurSigma c) = p.chars.isSpace c := by
  have hletter : ∀ c ∈ ['Σ', 'σ', 'ς'], p.chars.isSpace c = false := fun c hc =>
    tables.letters c (List.mem_append_right _ hc)
  rcases sigma_cases c with ⟨hc, hblur⟩ | ⟨-, hblur⟩
  · rw [hblur, hletter c hc, hletter 'σ' (by simp)]
  · rw [hblur]

/-- The blurred view is made character by character. -/
theorem blur_compact (tables : PadTables p) (hnfkc : NfkcByChar p content) :
    (compactView p content).map blurSigma = content.toList.flatMap (blurredView p) := by
  let stripped := (p.nfkc content).toList.filter fun c => !zeroWidth.contains c.toNat
  have hfolded : (foldContent p content).map blurSigma =
      (stripped.flatMap p.chars.lower).map fun c => latinOf (blurSigma c) := by
    have hlatin : (fun c => blurSigma (latinOf c)) = fun c => latinOf (blurSigma c) :=
      funext blur_latin
    calc (foldContent p content).map blurSigma
        = (p.chars.lowerFrom [] stripped).map fun c => blurSigma (latinOf c) := List.map_map ..
      _ = ((p.chars.lowerFrom [] stripped).map blurSigma).map latinOf := by
          rw [hlatin, List.map_map]
          rfl
      _ = _ := by
          rw [blur_lower tables, List.map_map]
          rfl
  have hspace : (compactView p content).map blurSigma =
      ((foldContent p content).map blurSigma).filter fun c => !p.chars.isSpace c := by
    rw [List.filter_map]
    simp only [compactView, Function.comp_def, is_space_blur tables]
  rw [hspace, hfolded]
  simp only [stripped, NfkcByChar] at hnfkc ⊢
  rw [hnfkc]
  generalize content.toList = text
  induction text with
  | nil => rfl
  | cons c text ih =>
      rw [List.flatMap_cons, List.flatMap_cons, List.filter_append, List.flatMap_append,
        List.map_append, List.filter_append, ih]
      rfl

/-- Padding leaves nothing in the view. -/
theorem blurred_view_pad (tables : PadTables p) (hpad : isPad p c = true) : blurredView p c = [] := by
  unfold blurredView
  by_cases hzero : zeroWidth.contains c.toNat = true
  · rw [tables.nfkc_zero_width c hzero, List.filter_cons_of_neg (by simp only [hzero]; decide)]
    rfl
  · have hspace : p.chars.isSpace c = true :=
      (Bool.or_eq_true _ _ ▸ hpad).resolve_right hzero
    have hkept : ∀ d, p.chars.isSpace d = true → latinOf (blurSigma d) = d := by
      intro d hd
      have hletter : ∀ e ∈ homoglyphs.map Prod.fst ++ ['Σ', 'σ', 'ς'], d ≠ e := by
        rintro e he rfl
        rw [tables.letters d he] at hd
        cases hd
      have hblur : blurSigma d = d := by
        rcases sigma_cases d with ⟨hsigma, -⟩ | ⟨-, hblur⟩
        · exact absurd rfl (hletter d (List.mem_append_right _ hsigma))
        · exact hblur
      have hlookup : homoglyphs.lookup d = none := by
        rw [List.lookup_eq_none_iff]
        intro pair hpair
        simpa using hletter pair.1 (List.mem_append_left _ (List.mem_map_of_mem hpair))
      rw [hblur, latinOf, hlookup, Option.getD_none]
    rw [List.filter_eq_nil_iff]
    intro e he
    obtain ⟨d, hd, rfl⟩ := List.mem_map.mp he
    obtain ⟨origin, horigin, hlower⟩ := List.mem_flatMap.mp hd
    have hblank := tables.nfkc_space c hspace origin (List.mem_filter.mp horigin).1
    rw [tables.lower_space origin hblank, List.mem_singleton] at hlower
    subst hlower
    simp [hkept d hblank, hblank]

theorem flat_map_padded (tables : PadTables p) (h : PaddedText p text part) :
    part.flatMap (blurredView p) = text.flatMap (blurredView p) := by
  induction h with
  | nil => rfl
  | keep h ih => rw [List.flatMap_cons, List.flatMap_cons, ih]
  | insert hpad h ih => rw [List.flatMap_cons, blurred_view_pad tables hpad, List.nil_append, ih]

end

/-- Padding changes nothing in what the scan reports, and it reports the phrases that stand, without
their spaces, in the folded content without white space. -/
theorem scan_prompt_injection_padded (p : Platform) (tables : PadTables p)
    (content padded : String) (hpadded : PaddedText p content.toList padded.toList)
    (hcontent : NfkcByChar p content) (hnfkc : NfkcByChar p padded) :
    scanPromptInjection p padded = scanPromptInjection p content ∧
      ∀ phrase, phrase ∈ scanPromptInjection p content ↔
        phrase ∈ injectionPhrases ∧ despaced phrase <:+: compactView p content := by
  have hview : (compactView p padded).map blurSigma = (compactView p content).map blurSigma := by
    rw [blur_compact tables hcontent, blur_compact tables hnfkc, flat_map_padded tables hpadded]
  have hsame : ∀ phrase, phrase ∈ scanPromptInjection p padded ↔
      phrase ∈ scanPromptInjection p content := by
    intro phrase
    rw [mem_scan_iff, mem_scan_iff]
    refine and_congr_right fun hphrase => ?_
    have hascii : ∀ c ∈ despaced phrase, c.toNat < 128 := fun c hc =>
      (injection_phrase_char phrase hphrase c (List.mem_filter.mp hc).1).1
    rw [← infix_blur_iff hascii, hview, infix_blur_iff hascii]
  refine ⟨?_, fun phrase => mem_scan_iff⟩
  unfold scanPromptInjection at hsame ⊢
  refine List.filter_congr fun phrase hphrase => ?_
  have hreported := hsame phrase
  rw [List.mem_filter, List.mem_filter, and_congr_right_iff] at hreported
  exact Bool.eq_iff_iff.mpr (hreported hphrase)

theorem nfkc_char_sample (c : Char) : nfkcChar .sample c = [c] := by
  simp [nfkcChar, Platform.sample, Platform.ascii]

/-- The tables of the development deployment. -/
theorem sample_pad_tables : PadTables .sample where
  nfkc_space c hc d hd := by
    rw [nfkc_char_sample, List.mem_singleton] at hd
    rw [hd, hc]
  nfkc_zero_width c _ := nfkc_char_sample c
  lower_space c hc := by
    have hcode : c.toNat ≤ 32 := by
      have hspace : isAsciiSpace c = true := hc
      simp only [isAsciiSpace, List.contains_eq_mem, List.mem_cons, List.not_mem_nil, or_false,
        decide_eq_true_eq] at hspace
      omega
    have hupper : c.isUpper = false := by
      have hval : c.val.toNat = c.toNat := rfl
      simp only [Char.isUpper, ge_iff_le, UInt32.le_iff_toNat_le, decide_eq_false_iff_not]
      rw [hval]
      show ¬ (65 ≤ c.toNat ∧ c.toNat ≤ 90)
      omega
    exact congrArg (· :: []) (to_lower_of_not_upper hupper)
  letters := by
    have hletters : (homoglyphs.map Prod.fst ++ ['Σ', 'σ', 'ς']).all (fun c =>
        !Platform.sample.chars.isSpace c) = true := by decide
    simpa only [List.all_eq_true, Bool.not_eq_true'] using hletters
  lower_sigma := .inr (by decide)

/-- A phrase is found with a line break and a zero-width space in it. -/
theorem scan_prompt_injection_padded_act :
    scanPromptInjection .sample "ac\n\u200bt as" = scanPromptInjection .sample "act as" ∧
      ∀ phrase, phrase ∈ scanPromptInjection .sample "act as" ↔
        phrase ∈ injectionPhrases ∧ despaced phrase <:+: compactView .sample "act as" := by
  have hpadded : PaddedText .sample "act as".toList "ac\n\u200bt as".toList := by
    have htext : "act as".toList = ['a', 'c', 't', ' ', 'a', 's'] ∧ "ac\n\u200bt as".toList =
        ['a', 'c', '\n', '\u200b', 't', ' ', 'a', 's'] := by decide +kernel
    rw [htext.1, htext.2]
    exact .keep <| .keep <| .insert (by decide) <| .insert (by decide) <| .keep <| .keep <|
      .keep <| .keep .nil
  have hnfkc : ∀ content, NfkcByChar .sample content := by
    intro content
    unfold NfkcByChar
    rw [funext nfkc_char_sample]
    simp [Platform.sample, Platform.ascii]
  exact scan_prompt_injection_padded .sample sample_pad_tables "act as" "ac\n\u200bt as" hpadded
    (hnfkc _) (hnfkc _)

end Capmesh
