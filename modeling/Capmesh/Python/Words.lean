import Mathlib.Data.List.TakeWhile
import Capmesh.Python.Text

/-!
# Texts as hyphenated words

A slug keeps the words of a text and writes one separator between them. Read
`squeeze_strip_spell` first: stripping and squeezing a text in which every other character
became a separator joins its words. The joined text determines the words
(`intercalate_inj`), so two texts have one slug exactly when they have the same words.
-/

namespace Python

/-- The words of a text: its maximal runs of characters that satisfy `keep`. -/
def words (keep : Char → Bool) (text : List Char) : List (List Char) :=
  (text.splitOnP (!keep ·)).filter (· ≠ [])

/-- A text with each kept character folded and every other one replaced by the separator. -/
def spell (sep : Char) (keep : Char → Bool) (fold : Char → List Char) (text : List Char) :
    List Char :=
  text.flatMap fun c => if keep c then fold c else [sep]

section

variable {sep : Char} {chars keep : Char → Bool} {fold : Char → List Char}
variable {text rest : List Char} {parts others : List (List Char)} {c : Char}

theorem squeeze_cons_of_ne (h : c ≠ sep) (text : List Char) :
    squeeze sep (c :: text) = c :: squeeze sep text := by
  cases text with
  | nil => rfl
  | cons d text => simp [squeeze, h]

theorem squeeze_cons_sep (text : List Char) :
    squeeze sep (sep :: text) = sep :: squeeze sep (text.dropWhile (· = sep)) := by
  induction text with
  | nil => rfl
  | cons d text ih =>
      by_cases hd : d = sep
      · subst hd
        rw [List.dropWhile_cons_of_pos (by simp), ← ih]
        simp [squeeze]
      · rw [List.dropWhile_cons_of_neg (by simpa using hd)]
        simp [squeeze, hd]

/-- A text without the separator passes through a squeeze. -/
theorem squeeze_append_of_not_mem (h : sep ∉ text) (rest : List Char) :
    squeeze sep (text ++ rest) = text ++ squeeze sep rest := by
  induction text with
  | nil => rfl
  | cons d text ih =>
      obtain ⟨hd, htext⟩ := not_or.mp (mt List.mem_cons.mpr h)
      rw [List.cons_append, squeeze_cons_of_ne (Ne.symm hd), ih htext, List.cons_append]

/-- A squeeze looks at nothing but the character in front of a squeezed text. -/
theorem squeeze_cons (c : Char) (text : List Char) :
    squeeze sep (c :: text) =
      if c = sep ∧ (squeeze sep text).head? = some sep then squeeze sep text
      else c :: squeeze sep text := by
  have hhead : ∀ text : List Char, (squeeze sep text).head? = text.head? := by
    intro text
    induction text with
    | nil => rfl
    | cons d text ih =>
        cases text with
        | nil => rfl
        | cons e text =>
            unfold squeeze
            split
            · rename_i hboth
              rw [ih, List.head?_cons, List.head?_cons, hboth.1, hboth.2]
            · rfl
  rw [hhead]
  cases text with
  | nil => simp [squeeze]
  | cons d text => simp [squeeze]

theorem squeeze_append_congr {others : List Char} (h : squeeze sep rest = squeeze sep others)
    (text : List Char) : squeeze sep (text ++ rest) = squeeze sep (text ++ others) := by
  induction text with
  | nil => exact h
  | cons c text ih => rw [List.cons_append, List.cons_append, squeeze_cons, squeeze_cons, ih]

/-- A run of separators counts as one. -/
theorem squeeze_run (hne : text ≠ []) (h : ∀ d ∈ text, d = sep) (rest : List Char) :
    squeeze sep (text ++ rest) = squeeze sep (sep :: rest) := by
  induction text with
  | nil => exact absurd rfl hne
  | cons c text ih =>
      obtain ⟨rfl, htext⟩ := List.forall_mem_cons.mp h
      by_cases hnil : text = []
      · rw [hnil]
        rfl
      · rw [List.cons_append, squeeze_cons, ih hnil htext, squeeze_cons_sep]
        simp

theorem squeeze_flat_map_congr {other : Char → List Char}
    (h : ∀ c ∈ text, ∀ rest, squeeze sep (fold c ++ rest) = squeeze sep (other c ++ rest)) :
    squeeze sep (text.flatMap fold) = squeeze sep (text.flatMap other) := by
  induction text with
  | nil => rfl
  | cons c text ih =>
      obtain ⟨hc, htext⟩ := List.forall_mem_cons.mp h
      rw [List.flatMap_cons, List.flatMap_cons, squeeze_append_congr (ih htext), hc]

theorem squeeze_append_cons (h : c ≠ sep) (text rest : List Char) :
    squeeze sep (text ++ c :: rest) = squeeze sep text ++ c :: squeeze sep rest := by
  induction text with
  | nil => exact squeeze_cons_of_ne h rest
  | cons d text ih =>
      rw [List.cons_append, squeeze_cons, squeeze_cons d text, ih]
      cases hsqueezed : squeeze sep text with
      | nil => simp [h]
      | cons e others =>
          by_cases hboth : d = sep ∧ e = sep
          · simp [hboth]
          · simp [hboth]

/-- A squeeze keeps every character that is not the separator. -/
theorem filter_squeeze {test : Char → Bool} (hsep : test sep = false) (text : List Char) :
    (squeeze sep text).filter test = text.filter test := by
  induction text with
  | nil => rfl
  | cons d text ih =>
      rw [squeeze_cons]
      split
      · rename_i hboth
        rw [ih, List.filter_cons_of_neg (by simp [hboth.1, hsep])]
      · rw [List.filter_cons, List.filter_cons, ih]

theorem mem_squeeze_of_ne (h : c ∈ text) (hne : c ≠ sep) : c ∈ squeeze sep text := by
  have hkept : (squeeze sep text).filter (· ≠ sep) = text.filter (· ≠ sep) :=
    filter_squeeze (by simp) text
  exact (List.mem_filter.mp (hkept ▸ List.mem_filter.mpr ⟨h, by simpa using hne⟩)).1

theorem mem_squeeze (h : c ∈ squeeze sep text) : c ∈ text := by
  induction text with
  | nil => exact h
  | cons d text ih =>
      cases text with
      | nil => exact h
      | cons e text =>
          unfold squeeze at h
          split at h
          · exact List.mem_cons_of_mem _ (ih h)
          · rcases List.mem_cons.mp h with rfl | h
            · exact List.mem_cons_self
            · exact List.mem_cons_of_mem _ (ih h)

/-- Stripping on the right stops at a character that stays. -/
theorem rstrip_append_cons (h : chars c = false) (text rest : List Char) :
    rstrip chars (text ++ c :: rest) = text ++ c :: rstrip chars rest := by
  unfold rstrip
  rw [List.reverse_append, List.reverse_cons]
  rw [List.append_assoc, List.dropWhile_append]
  split
  · rename_i hempty
    rw [List.isEmpty_iff.mp hempty, List.singleton_append, List.dropWhile_cons_of_neg (by simp [h])]
    simp
  · simp

theorem rstrip_cons (c : Char) (text : List Char) :
    rstrip chars (c :: text) =
      if rstrip chars text = [] ∧ chars c = true then [] else c :: rstrip chars text := by
  unfold rstrip
  rw [List.reverse_cons, List.dropWhile_append]
  by_cases hempty : (text.reverse.dropWhile chars) = []
  · cases hc : chars c <;> simp [hempty, hc]
  · simp [hempty]

/-- Stripping on the right keeps a text that ends with a character that stays. -/
theorem rstrip_append_of_ne_nil (hne : text ≠ []) (h : ∀ c ∈ text, chars c = false)
    (rest : List Char) : rstrip chars (text ++ rest) = text ++ rstrip chars rest := by
  obtain ⟨front, last, rfl⟩ := text.eq_nil_or_concat.resolve_left hne
  rw [List.concat_eq_append, List.append_assoc, List.singleton_append,
    rstrip_append_cons (h last (by simp)), List.append_assoc, List.singleton_append]

theorem not_sep_of_not_mem (h : sep ∉ text) : ∀ c ∈ text, decide (c = sep) = false := by
  intro c hc
  have hne : c ≠ sep := fun hsep => h (hsep ▸ hc)
  simpa using hne

theorem rstrip_sep_append (hne : text ≠ []) (h : sep ∉ text) (rest : List Char) :
    rstrip (· = sep) (sep :: (text ++ rest)) = sep :: (text ++ rstrip (· = sep) rest) := by
  rw [rstrip_cons, rstrip_append_of_ne_nil hne (not_sep_of_not_mem h), if_neg]
  simp [hne]

theorem squeeze_sep_append (hne : text ≠ []) (h : sep ∉ text) (rest : List Char) :
    squeeze sep (sep :: (text ++ rest)) = sep :: (text ++ squeeze sep rest) := by
  have hdrop : (text ++ rest).dropWhile (· = sep) = text ++ rest := by
    obtain ⟨c, tail, rfl⟩ := List.exists_cons_of_ne_nil hne
    exact List.dropWhile_cons_of_neg (by simpa using not_sep_of_not_mem h c List.mem_cons_self)
  rw [squeeze_cons_sep, hdrop, squeeze_append_of_not_mem h]

/-- Stripping on the right leaves of a text with a leading separator nothing, or that separator
in front. -/
theorem rstrip_sep_cases (sep : Char) (text : List Char) :
    rstrip (· = sep) (sep :: text) = [] ∨ ∃ tail, rstrip (· = sep) (sep :: text) = sep :: tail := by
  rw [rstrip_cons]
  split
  · exact .inl rfl
  · exact .inr ⟨_, rfl⟩

/-- Behind a leading separator, stripping on the right and squeezing drops the empty parts. -/
theorem squeeze_rstrip_intercalate (hne : parts ≠ []) (hparts : ∀ part ∈ parts, sep ∉ part) :
    squeeze sep (rstrip (· = sep) (sep :: [sep].intercalate parts)) =
      if parts.filter (· ≠ []) = [] then []
      else sep :: [sep].intercalate (parts.filter (· ≠ [])) := by
  induction parts with
  | nil => exact absurd rfl hne
  | cons part parts ih =>
      have hfree : sep ∉ part := hparts part List.mem_cons_self
      by_cases hnil : parts = []
      · subst hnil
        by_cases hempty : part = []
        · subst hempty
          simp [rstrip, squeeze]
        · have hstrip := rstrip_sep_append hempty hfree []
          have hsqueeze := squeeze_sep_append hempty hfree []
          simp only [rstrip, List.append_nil, List.reverse_nil, List.dropWhile_nil] at hstrip
          simp only [squeeze, List.append_nil] at hsqueeze
          rw [List.intercalate_singleton, rstrip, hstrip, hsqueeze]
          simp [hempty]
      · have ih := ih hnil fun other hother => hparts other (List.mem_cons_of_mem _ hother)
        rw [List.intercalate_cons_of_ne_nil hnil, List.append_assoc, List.singleton_append]
        by_cases hempty : part = []
        · -- Two separators in a row count as one.
          subst hempty
          rw [List.nil_append, List.filter_cons_of_neg (by simp), ← ih, rstrip_cons]
          rcases rstrip_sep_cases sep ([sep].intercalate parts) with hrest | ⟨tail, hrest⟩
          · simp [hrest]
          · simp [hrest, squeeze]
        · rw [rstrip_sep_append hempty hfree, squeeze_sep_append hempty hfree, ih,
            List.filter_cons_of_pos (by simpa using hempty), if_neg (List.cons_ne_nil part _)]
          split
          · rename_i hnone
            rw [hnone, List.intercalate_singleton, List.append_nil]
          · rename_i hsome
            rw [List.intercalate_cons_of_ne_nil hsome, List.append_assoc, List.singleton_append]

/-- Stripping and squeezing joined parts drops the empty ones. -/
theorem squeeze_strip_intercalate (hne : parts ≠ []) (hparts : ∀ part ∈ parts, sep ∉ part) :
    squeeze sep (strip (· = sep) ([sep].intercalate parts)) =
      [sep].intercalate (parts.filter (· ≠ [])) := by
  have hall := squeeze_rstrip_intercalate hne hparts
  have hlead : ∀ text : List Char, squeeze sep (rstrip (· = sep) (sep :: text)) =
      if rstrip (· = sep) (text.dropWhile (· = sep)) = [] then []
      else sep :: squeeze sep (rstrip (· = sep) (text.dropWhile (· = sep))) := by
    intro text
    induction text with
    | nil => simp [rstrip, squeeze]
    | cons c text ih =>
        by_cases hc : c = sep
        · subst hc
          rw [List.dropWhile_cons_of_pos (by simp), ← ih, rstrip_cons]
          rcases rstrip_sep_cases c text with hrest | ⟨tail, hrest⟩
          · simp [hrest]
          · simp [hrest, squeeze]
        · have hkeep : rstrip (· = sep) (c :: text) = c :: rstrip (· = sep) text :=
            rstrip_append_cons (by simpa using hc) [] text
          rw [List.dropWhile_cons_of_neg (by simpa using hc), rstrip_cons, hkeep]
          simp [squeeze, hc]
  rw [hlead] at hall
  unfold strip
  split at hall
  · rename_i hnone
    rw [hnone]
    split at hall
    · rename_i hparts
      rw [hparts]
      rfl
    · cases hall
  · split at hall
    · cases hall
    · exact (List.cons.inj hall).2

theorem spell_eq_intercalate (text : List Char) :
    spell sep keep fold text =
      [sep].intercalate ((text.splitOnP (!keep ·)).map (·.flatMap fold)) := by
  induction text with
  | nil => simp [spell]
  | cons c text ih =>
      obtain ⟨part, parts, hsplit⟩ := List.exists_cons_of_ne_nil (List.splitOnP_ne_nil (!keep ·) text)
      rw [hsplit, List.map_cons] at ih
      show (if keep c then fold c else [sep]) ++ spell sep keep fold text = _
      rw [ih, List.splitOnP_cons_eq_if_modifyHead, hsplit]
      cases hc : keep c with
      | true =>
          cases parts with
          | nil => simp
          | cons next parts => simp [List.intercalate_cons_cons]
      | false => simp [List.intercalate_cons_cons]

theorem split_kept (keep : Char → Bool) (text : List Char) :
    ∀ part ∈ text.splitOnP (!keep ·), ∀ c ∈ part, keep c = true := by
  induction text with
  | nil => simp
  | cons c text ih =>
      obtain ⟨part, parts, hsplit⟩ := List.exists_cons_of_ne_nil (List.splitOnP_ne_nil (!keep ·) text)
      rw [hsplit] at ih
      rw [List.splitOnP_cons_eq_if_modifyHead, hsplit]
      cases hc : keep c with
      | true =>
          intro other hother d hd
          rcases List.mem_cons.mp (by simpa using hother) with rfl | hother
          · rcases List.mem_cons.mp hd with rfl | hd
            · exact hc
            · exact ih part List.mem_cons_self d hd
          · exact ih other (List.mem_cons_of_mem _ hother) d hd
      | false =>
          intro other hother d hd
          rcases List.mem_cons.mp hother with rfl | hother
          · cases hd
          · exact ih other hother d hd

/-- A word is not empty, and it has kept characters only. -/
theorem mem_words {word : List Char} (h : word ∈ words keep text) :
    word ≠ [] ∧ ∀ c ∈ word, keep c = true := by
  obtain ⟨hmem, hne⟩ := List.mem_filter.mp h
  exact ⟨by simpa using hne, split_kept keep text word hmem⟩

theorem squeeze_strip_spell (hfold : ∀ c, keep c = true → fold c ≠ [] ∧ sep ∉ fold c)
    (text : List Char) :
    squeeze sep (strip (· = sep) (spell sep keep fold text)) =
      [sep].intercalate ((words keep text).map (·.flatMap fold)) := by
  have hkept := split_kept keep text
  rw [spell_eq_intercalate, squeeze_strip_intercalate (by simp [List.splitOnP_ne_nil])]
  · congr 1
    rw [words, List.filter_map]
    congr 1
    refine List.filter_congr fun part hpart => ?_
    cases part with
    | nil => rfl
    | cons c part =>
        have hne : fold c ≠ [] := (hfold c (hkept _ hpart c List.mem_cons_self)).1
        simp [hne]
  · intro part hpart hsep
    obtain ⟨original, horiginal, rfl⟩ := List.mem_map.mp hpart
    obtain ⟨c, hc, hsep⟩ := List.mem_flatMap.mp hsep
    exact (hfold c (hkept original horiginal c hc)).2 hsep

theorem mem_intercalate (h : c ∈ [sep].intercalate parts) : c = sep ∨ ∃ part ∈ parts, c ∈ part := by
  induction parts with
  | nil => cases h
  | cons part parts ih =>
      cases parts with
      | nil =>
          rw [List.intercalate_singleton] at h
          exact .inr ⟨part, List.mem_cons_self, h⟩
      | cons next parts =>
          rw [List.intercalate_cons_cons, List.mem_append, List.mem_append] at h
          rcases h with (h | h) | h
          · exact .inr ⟨part, List.mem_cons_self, h⟩
          · exact .inl (List.mem_singleton.mp h)
          · refine (ih h).imp_right fun ⟨other, hother, hc⟩ => ?_
            exact ⟨other, List.mem_cons_of_mem _ hother, hc⟩

/-- Joined words determine the words. -/
theorem intercalate_inj (hparts : ∀ part ∈ parts, part ≠ [] ∧ sep ∉ part)
    (hothers : ∀ part ∈ others, part ≠ [] ∧ sep ∉ part)
    (h : [sep].intercalate parts = [sep].intercalate others) : parts = others := by
  have hnil : ∀ ws : List (List Char), (∀ part ∈ ws, part ≠ [] ∧ sep ∉ part) →
      [sep].intercalate ws = [] → ws = [] := by
    intro ws hws hempty
    cases ws with
    | nil => rfl
    | cons w ws =>
        have hw := (hws w List.mem_cons_self).1
        cases ws with
        | nil => exact absurd (by simpa using hempty) hw
        | cons next ws => simp [List.intercalate_cons_cons, hw] at hempty
  by_cases hempty : parts = []
  · subst hempty
    exact (hnil others hothers h.symm).symm
  · have hsome : others ≠ [] := by
      intro hnone
      subst hnone
      exact hempty (hnil parts hparts h)
    rw [← List.splitOn_intercalate sep (fun part hpart => (hparts part hpart).2) hempty, h,
      List.splitOn_intercalate sep (fun part hpart => (hothers part hpart).2) hsome]

theorem join_to_list (sep : String) (parts : List String) :
    (join sep parts).toList = sep.toList.intercalate (parts.map String.toList) := by
  induction parts with
  | nil => rfl
  | cons part parts ih =>
      cases parts with
      | nil => simp [join]
      | cons next parts =>
          have hjoin : join sep (part :: next :: parts) = part ++ sep ++ join sep (next :: parts) := rfl
          rw [hjoin, String.toList_append, String.toList_append, ih]
          simp [List.intercalate_cons_cons]

/-- A list cut at the last element with a property. -/
theorem last_split {α : Type} {holds : α → Prop} {as : List α} (h : ∃ a ∈ as, holds a) :
    ∃ front a back, as = front ++ a :: back ∧ holds a ∧ ∀ b ∈ back, ¬ holds b := by
  induction as with
  | nil => simp at h
  | cons first as ih =>
      by_cases hrest : ∃ a ∈ as, holds a
      · obtain ⟨front, a, back, rfl, ha, hback⟩ := ih hrest
        exact ⟨first :: front, a, back, rfl, ha, hback⟩
      · obtain ⟨a, ha, hholds⟩ := h
        rcases List.mem_cons.mp ha with rfl | ha
        · exact ⟨[], a, as, rfl, hholds, fun b hb hbholds => hrest ⟨b, hb, hbholds⟩⟩
        · exact absurd ⟨a, ha, hholds⟩ hrest

/-- Two lists cut at their first separator. -/
theorem append_cons_inj_of_not_mem {α : Type} {sep : α} {front front' back back' : List α}
    (h : sep ∉ front) (h' : sep ∉ front') (heq : front ++ sep :: back = front' ++ sep :: back') :
    front = front' ∧ back = back' := by
  induction front generalizing front' with
  | nil =>
      cases front' with
      | nil => exact ⟨rfl, (List.cons.inj heq).2⟩
      | cons c front' => exact absurd ((List.cons.inj heq).1 ▸ List.mem_cons_self) h'
  | cons c front ih =>
      cases front' with
      | nil => exact absurd ((List.cons.inj heq).1 ▸ List.mem_cons_self) h
      | cons c' front' =>
          obtain ⟨hc, hrest⟩ := List.cons.inj heq
          obtain ⟨hfront, hback⟩ :=
            ih (mt (List.mem_cons_of_mem _) h) (mt (List.mem_cons_of_mem _) h') hrest
          exact ⟨by rw [hc, hfront], hback⟩

/-- The characters before the first one that is refused. -/
theorem take_while_append_cons {back : List Char} (h : ∀ d ∈ text, chars d = true)
    (hc : chars c = false) : (text ++ c :: back).takeWhile chars = text := by
  rw [List.takeWhile_append_of_pos h, List.takeWhile_cons_of_neg (by simp [hc]), List.append_nil]

/-- Two texts cut at their last separator. -/
theorem append_cons_inj_last {front front' back back' : List Char} (h : sep ∉ back)
    (h' : sep ∉ back') (heq : front ++ sep :: back = front' ++ sep :: back') :
    front = front' ∧ back = back' := by
  have hreverse := congrArg List.reverse heq
  simp only [List.reverse_append, List.reverse_cons, List.append_assoc, List.singleton_append]
    at hreverse
  obtain ⟨hback, hfront⟩ := append_cons_inj_of_not_mem (by simpa using h) (by simpa using h') hreverse
  exact ⟨List.reverse_injective hfront, List.reverse_injective hback⟩

/-- Stripping takes away a last character that does not stay. -/
theorem strip_append_singleton (hc : chars c = true) (text : List Char) :
    strip chars (text ++ [c]) = strip chars text := by
  unfold strip rstrip
  rw [List.dropWhile_append]
  split
  · rename_i hempty
    rw [List.isEmpty_iff.mp hempty, List.dropWhile_cons_of_pos hc]
    rfl
  · rw [List.reverse_append, List.reverse_singleton, List.singleton_append,
      List.dropWhile_cons_of_pos hc]

/-- Stripping on both sides keeps what lies between two characters that stay. -/
theorem strip_between {left right : List Char} (hleft : ∃ d ∈ left, chars d = false)
    (hright : ∃ d ∈ right, chars d = false) :
    strip chars (left ++ text ++ right) =
      left.dropWhile chars ++ text ++ rstrip chars right := by
  have hfront : (left ++ text ++ right).dropWhile chars = left.dropWhile chars ++ text ++ right := by
    obtain ⟨d, hd, hdchars⟩ := hleft
    rw [List.append_assoc, List.dropWhile_append, if_neg, List.append_assoc]
    rw [List.isEmpty_iff, List.dropWhile_eq_nil_iff]
    intro hall
    rw [hall d hd] at hdchars
    cases hdchars
  unfold strip
  rw [hfront]
  obtain ⟨d, hd, hdchars⟩ := hright
  obtain ⟨front, back, rfl⟩ := List.append_of_mem hd
  rw [← List.append_assoc, rstrip_append_cons hdchars, rstrip_append_cons hdchars,
    List.append_assoc]

/-- A text is what stripping leaves, between two texts that it takes away. -/
theorem strip_spec (chars : Char → Bool) (text : List Char) :
    ∃ left right, text = left ++ strip chars text ++ right ∧ (∀ c ∈ left, chars c = true) ∧
      ∀ c ∈ right, chars c = true := by
  refine ⟨text.takeWhile chars, ((text.dropWhile chars).reverse.takeWhile chars).reverse, ?_,
    fun c hc => List.mem_takeWhile_imp hc,
    fun c hc => List.mem_takeWhile_imp (List.mem_reverse.mp hc)⟩
  rw [strip, rstrip, List.append_assoc, ← List.reverse_append, List.takeWhile_append_dropWhile,
    List.reverse_reverse, List.takeWhile_append_dropWhile]

theorem mem_of_mem_strip (h : c ∈ strip chars text) : c ∈ text := by
  obtain ⟨left, right, heq, -, -⟩ := strip_spec chars text
  rw [heq]
  simp [h]

theorem mem_strip_of_not (h : c ∈ text) (hc : chars c = false) : c ∈ strip chars text := by
  obtain ⟨left, right, heq, hleft, hright⟩ := strip_spec chars text
  rw [heq, List.mem_append, List.mem_append] at h
  rcases h with (h | h) | h
  · rw [hleft c h] at hc
    cases hc
  · exact h
  · rw [hright c h] at hc
    cases hc

theorem drop_while_flat_map
    (hstay : ∀ c, keep c = true → fold c ≠ [] ∧ ∀ d ∈ fold c, chars d = false)
    (hgo : ∀ c, keep c = false → ∀ d ∈ fold c, chars d = true) (text : List Char) :
    (text.flatMap fold).dropWhile chars = (text.dropWhile (!keep ·)).flatMap fold := by
  induction text with
  | nil => rfl
  | cons c text ih =>
      rw [List.flatMap_cons]
      cases hc : keep c with
      | true =>
          obtain ⟨d, tail, hfold⟩ := List.exists_cons_of_ne_nil (hstay c hc).1
          have hd : chars d = false := (hstay c hc).2 d (by simp [hfold])
          simp [hc, hfold, hd]
      | false =>
          rw [List.dropWhile_append_of_pos (hgo c hc), ih]
          simp [hc]

/-- Stripping commutes with a rewrite that keeps apart what is stripped and what stays. -/
theorem strip_flat_map
    (hstay : ∀ c, keep c = true → fold c ≠ [] ∧ ∀ d ∈ fold c, chars d = false)
    (hgo : ∀ c, keep c = false → ∀ d ∈ fold c, chars d = true) (text : List Char) :
    strip chars (text.flatMap fold) = (strip (!keep ·) text).flatMap fold := by
  have hback : ∀ text : List Char, (text.flatMap fun c => (fold c).reverse).dropWhile chars =
      (text.dropWhile (!keep ·)).flatMap fun c => (fold c).reverse :=
    drop_while_flat_map (fun c hc => by simpa using hstay c hc) (fun c hc => by simpa using hgo c hc)
  rw [strip, drop_while_flat_map hstay hgo, rstrip, List.reverse_flatMap]
  rw [show (List.reverse ∘ fold) = fun c => (fold c).reverse from rfl, hback]
  simp [strip, rstrip, List.reverse_flatMap, Function.comp_def]

/-- Stripping on the left and on the right may be done in either order. -/
theorem drop_while_rstrip (chars : Char → Bool) (text : List Char) :
    (rstrip chars text).dropWhile chars = rstrip chars (text.dropWhile chars) := by
  induction text with
  | nil => rfl
  | cons c text ih =>
      rw [rstrip_cons]
      cases hc : chars c with
      | true =>
          rw [List.dropWhile_cons_of_pos hc, ← ih]
          split
          · rename_i hboth
            rw [hboth.1]
          · rw [List.dropWhile_cons_of_pos hc]
      | false =>
          rw [List.dropWhile_cons_of_neg (by simp [hc]), rstrip_cons]
          simp [hc]

/-- What stripping takes away may be left out before a squeeze. -/
theorem strip_squeeze_outer {left right : List Char} (hsep : chars sep = true)
    (hleft : ∀ d ∈ left, chars d = true) (hright : ∀ d ∈ right, chars d = true)
    (text : List Char) :
    strip chars (squeeze sep (left ++ text ++ right)) = strip chars (squeeze sep text) := by
  have hfront : ∀ text : List Char, (squeeze sep (left ++ text)).dropWhile chars =
      (squeeze sep text).dropWhile chars := by
    intro text
    induction left with
    | nil => rfl
    | cons d left ih =>
        obtain ⟨hd, hleft⟩ := List.forall_mem_cons.mp hleft
        rw [List.cons_append, squeeze_cons]
        split
        · exact ih hleft
        · rw [List.dropWhile_cons_of_pos hd, ih hleft]
  have hnone : rstrip chars (squeeze sep right) = [] := by
    rw [rstrip, List.reverse_eq_nil_iff, List.dropWhile_eq_nil_iff]
    exact fun d hd => hright d (mem_squeeze (List.mem_reverse.mp hd))
  have hback : ∀ text : List Char, rstrip chars (squeeze sep (text ++ right)) =
      rstrip chars (squeeze sep text) := by
    intro text
    induction text with
    | nil => exact hnone
    | cons d text ih =>
        cases text with
        | nil =>
            rw [List.cons_append, List.nil_append, squeeze_cons]
            split
            · rename_i hboth
              rw [hnone, hboth.1]
              simp [squeeze, rstrip, hsep]
            · rw [rstrip_cons, hnone]
              cases hd : chars d <;> simp [squeeze, rstrip, hd]
        | cons e text =>
            show rstrip chars (squeeze sep (d :: e :: (text ++ right))) = _
            rw [squeeze, squeeze]
            split
            · exact ih
            · rw [rstrip_cons, rstrip_cons]
              rw [show squeeze sep (e :: (text ++ right)) = squeeze sep (e :: text ++ right) from rfl, ih]
  rw [strip, List.append_assoc, hfront, ← drop_while_rstrip, hback, drop_while_rstrip]
  rfl

/-- A text that begins and ends with characters that stay is left alone. -/
theorem strip_eq_self (hhead : ∀ d ∈ text.head?, chars d = false)
    (hlast : ∀ d ∈ text.getLast?, chars d = false) : strip chars text = text := by
  have hdrop : ∀ text : List Char, (∀ d ∈ text.head?, chars d = false) →
      text.dropWhile chars = text := by
    intro text hhead
    cases text with
    | nil => rfl
    | cons d text => exact List.dropWhile_cons_of_neg (by simp [hhead d rfl])
  rw [strip, hdrop text hhead, rstrip, hdrop, List.reverse_reverse]
  rw [List.head?_reverse]
  exact hlast

/-- What stripping leaves begins and ends with characters that stay. -/
theorem strip_ends (chars : Char → Bool) (text : List Char) :
    (∀ d ∈ (strip chars text).head?, chars d = false) ∧
      ∀ d ∈ (strip chars text).getLast?, chars d = false := by
  have hhead : ∀ text : List Char, ∀ d ∈ (text.dropWhile chars).head?, chars d = false := by
    intro text d hd
    have := List.head?_dropWhile_not chars text
    rw [Option.mem_def.mp hd] at this
    simpa using this
  constructor
  · rw [strip, ← drop_while_rstrip]
    exact hhead _
  · rw [strip, rstrip, List.getLast?_reverse]
    exact hhead _

theorem filter_strip {test : Char → Bool} (h : ∀ d, chars d = true → test d = false)
    (text : List Char) : (strip chars text).filter test = text.filter test := by
  obtain ⟨left, right, heq, hleft, hright⟩ := strip_spec chars text
  have hnone : ∀ part : List Char, (∀ d ∈ part, chars d = true) → part.filter test = [] := by
    intro part hpart
    rw [List.filter_eq_nil_iff]
    intro d hd
    simp [h d (hpart d hd)]
  conv_rhs => rw [heq, List.filter_append, List.filter_append, hnone left hleft, hnone right hright]
  simp

theorem squeeze_sublist (sep : Char) (text : List Char) : (squeeze sep text).Sublist text := by
  induction text with
  | nil => exact List.Sublist.refl _
  | cons c text ih =>
      rw [squeeze_cons]
      split
      · exact ih.cons c
      · exact ih.cons_cons c

/-- A squeeze changes a text exactly when the text has two separators in a row. -/
theorem squeeze_eq_self_iff : squeeze sep text = text ↔ ¬ [sep, sep] <:+: text := by
  induction text with
  | nil => simp [squeeze]
  | cons c text ih =>
      rw [List.infix_cons_iff, not_or, ← ih, squeeze_cons]
      constructor
      · intro h
        split at h
        · have hlong := congrArg List.length h
          have hle := (squeeze_sublist sep text).length_le
          rw [List.length_cons] at hlong
          omega
        · rename_i hnot
          have htext := (List.cons.inj h).2
          refine ⟨fun hprefix => hnot ?_, htext⟩
          obtain ⟨hc, hrest⟩ := List.cons_prefix_cons.mp hprefix
          obtain ⟨tail, hcons⟩ := hrest
          rw [htext, ← hcons]
          exact ⟨hc.symm, rfl⟩
      · rintro ⟨hnot, htext⟩
        rw [if_neg, htext]
        rintro ⟨rfl, hhead⟩
        rw [htext] at hhead
        obtain ⟨tail, rfl⟩ : ∃ tail, text = c :: tail := by
          cases text with
          | nil => cases hhead
          | cons d tail => exact ⟨tail, by rw [Option.some.inj hhead]⟩
        exact hnot ⟨tail, rfl⟩

theorem length_strip_le (chars : Char → Bool) (text : List Char) :
    (strip chars text).length ≤ text.length := by
  obtain ⟨left, right, heq, -, -⟩ := strip_spec chars text
  have hlength := congrArg List.length heq
  simp only [List.length_append] at hlength
  omega

/-- A text is all that stripping leaves when it is as long. -/
theorem strip_eq_of_length (h : (strip chars text).length = text.length) :
    strip chars text = text := by
  obtain ⟨left, right, heq, -, -⟩ := strip_spec chars text
  have hlength := congrArg List.length heq
  simp only [List.length_append] at hlength
  have hleft : left = [] := List.eq_nil_of_length_eq_zero (by omega)
  have hright : right = [] := List.eq_nil_of_length_eq_zero (by omega)
  rw [hleft, hright] at heq
  simpa using heq.symm

end

section

variable {marker text back : List Char} {front : List Char}

theorem contains_iff : contains text marker = true ↔ marker <:+: text := by
  unfold contains
  induction text with
  | nil =>
      cases marker with
      | nil => simp [afterFirst]
      | cons c marker => simp [afterFirst]
  | cons c text ih =>
      unfold afterFirst
      rw [List.infix_cons_iff, ← List.isPrefixOf_iff_prefix, ← ih]
      cases marker.isPrefixOf (c :: text) <;> simp

theorem drop_last_append_front (back : List Char) :
    (front ++ marker).dropLast <+: front ++ marker ++ back :=
  (List.dropLast_prefix _).trans (List.prefix_append _ _)

/-- A search finds the marker where it was written when it does not occur before that. -/
theorem after_first_append (hne : marker ≠ [])
    (h : contains (front ++ marker).dropLast marker = false) (back : List Char) :
    afterFirst marker (front ++ marker ++ back) = some back := by
  induction front with
  | nil =>
      obtain ⟨c, marker, rfl⟩ := List.exists_cons_of_ne_nil hne
      simp [afterFirst]
  | cons c front ih =>
      have hnot : marker.isPrefixOf (c :: (front ++ marker ++ back)) = false := by
        rw [Bool.eq_false_iff] at h ⊢
        intro hprefix
        have hshort : marker <+: (c :: front ++ marker).dropLast :=
          List.prefix_of_prefix_length_le (List.isPrefixOf_iff_prefix.mp hprefix)
            (drop_last_append_front back) (by simp)
        exact h (contains_iff.mpr hshort.isInfix)
      have hrest : contains (front ++ marker).dropLast marker = false := by
        rw [Bool.eq_false_iff] at h ⊢
        refine fun hin => h (contains_iff.mpr ?_)
        rw [List.cons_append, List.dropLast_cons_of_ne_nil (by simp [hne])]
        exact List.infix_cons (contains_iff.mp hin)
      show afterFirst marker (c :: (front ++ marker ++ back)) = _
      rw [afterFirst, hnot]
      exact ih hrest

/-- A search that finds the marker earlier returns more than the text behind it. -/
theorem after_first_longer (hne : marker ≠ [])
    (h : contains (front ++ marker).dropLast marker = true) (back : List Char) :
    ∃ found, afterFirst marker (front ++ marker ++ back) = some found ∧
      back.length < found.length := by
  induction front with
  | nil =>
      have hlength := (contains_iff.mp h).length_le
      have hpos := List.length_pos_of_ne_nil hne
      simp only [List.nil_append, List.length_dropLast] at hlength
      omega
  | cons c front ih =>
      show ∃ found, afterFirst marker (c :: (front ++ marker ++ back)) = some found ∧ _
      by_cases hprefix : marker.isPrefixOf (c :: (front ++ marker ++ back)) = true
      · rw [afterFirst, if_pos hprefix]
        refine ⟨_, rfl, ?_⟩
        simp
        omega
      · rw [afterFirst, if_neg hprefix]
        rw [contains_iff, List.cons_append, List.dropLast_cons_of_ne_nil (by simp [hne]),
          List.infix_cons_iff] at h
        refine ih (contains_iff.mpr (h.resolve_left fun hshort => hprefix ?_))
        exact List.isPrefixOf_iff_prefix.mpr
          (hshort.trans (List.cons_prefix_cons.mpr ⟨rfl, drop_last_append_front back⟩))

/-- A search returns the text behind a marker exactly when the marker does not occur before
that. -/
theorem after_first_eq_iff (hne : marker ≠ []) (back : List Char) :
    afterFirst marker (front ++ marker ++ back) = some back ↔
      contains (front ++ marker).dropLast marker = false := by
  constructor
  · intro h
    rw [Bool.eq_false_iff]
    intro hin
    obtain ⟨found, hfound, hlonger⟩ := after_first_longer hne hin back
    cases h.symm.trans hfound
    exact Nat.lt_irrefl _ hlonger
  · intro h
    exact after_first_append hne h back

theorem after_first_none_iff : afterFirst marker text = none ↔ contains text marker = false := by
  unfold contains
  cases afterFirst marker text <;> simp

/-- What a search returns stands behind the marker. -/
theorem after_first_spec {found : List Char} (h : afterFirst marker text = some found) :
    ∃ front, text = front ++ marker ++ found := by
  induction text with
  | nil =>
      unfold afterFirst at h
      split at h
      · rename_i hempty
        cases h
        exact ⟨[], by simpa using hempty⟩
      · cases h
  | cons c text ih =>
      unfold afterFirst at h
      split at h
      · rename_i hprefix
        obtain ⟨back, hback⟩ := List.isPrefixOf_iff_prefix.mp hprefix
        rw [← hback, List.drop_left] at h
        exact ⟨[], by rw [List.nil_append, ← hback, Option.some.inj h]⟩
      · obtain ⟨front, hfront⟩ := ih h
        exact ⟨c :: front, by rw [hfront, List.cons_append, List.cons_append]⟩

/-- A marker that ends with a separator does not reach behind the last one. -/
theorem infix_before_last {sep : Char} (hback : sep ∉ back)
    (h : marker ++ [sep] <:+: front ++ sep :: back) :
    marker ++ [sep] <:+ front ++ [sep] ∨ marker ++ [sep] <:+: front := by
  rw [← List.infix_concat_iff]
  obtain ⟨before, after, heq⟩ := h
  have hcut : before ++ (marker ++ [sep]) ++ after = front ++ [sep] ++ back := by
    rw [heq, List.append_assoc, List.singleton_append]
  rcases List.append_eq_append_iff.mp hcut with ⟨rest, hfront, -⟩ | ⟨rest, hfront, hafter⟩
  · exact ⟨before, rest, hfront.symm⟩
  · rcases rest.eq_nil_or_concat with rfl | ⟨rest, last, rfl⟩
    · rw [List.append_nil] at hfront
      exact ⟨before, [], by rw [List.append_nil, hfront]⟩
    · rw [List.concat_eq_append, ← List.append_assoc, ← List.append_assoc] at hfront
      obtain ⟨-, hlast⟩ := List.append_inj' hfront rfl
      cases hlast
      rw [List.concat_eq_append] at hafter
      exact absurd (by rw [hafter]; simp) hback

end

end Python
