import Capmesh.Python.Words
import Capmesh.Python.Runtime

/-!
# Lower case in context

`str.lower` maps each character by itself, except a capital sigma, which has a form of its
own at the end of a word. Read `lower_from_of_no_final` first: without such a sigma the
lower case of a text is the lower case of its characters.
-/

namespace Python.CharTable

/-- No capital sigma of a text is the last letter of its word; `before` is the text before it,
reversed. -/
def NoFinalSigma (table : CharTable) (before text : List Char) : Prop :=
  ∀ front back, text = front ++ 'Σ' :: back →
    table.finalSigma (front.reverse ++ before) back = false

variable {table : CharTable} {before text after : List Char} {c d : Char}

theorem lower_at_cases (table : CharTable) (before : List Char) (c : Char) (after : List Char) :
    table.lowerAt before c after = table.lower c ∨
      (c = 'Σ' ∧ table.finalSigma before after = true ∧ table.lowerAt before c after = ['ς']) := by
  unfold lowerAt
  split
  · rename_i hfinal
    simp only [Bool.and_eq_true, decide_eq_true_eq] at hfinal
    exact .inr ⟨hfinal.1, hfinal.2, rfl⟩
  · exact .inl rfl

theorem NoFinalSigma.tail (h : table.NoFinalSigma before (c :: text)) :
    table.NoFinalSigma (c :: before) text := by
  intro front back htext
  have hcut := h (c :: front) back (by rw [htext, List.cons_append])
  simpa using hcut

theorem NoFinalSigma.head (h : table.NoFinalSigma before (c :: text)) :
    table.lowerAt before c text = table.lower c := by
  rcases lower_at_cases table before c text with hlower | ⟨rfl, hfinal, -⟩
  · exact hlower
  · have hnone := h [] text rfl
    simp only [List.reverse_nil, List.nil_append] at hnone
    rw [hnone] at hfinal
    cases hfinal

theorem lower_from_of_no_final (h : table.NoFinalSigma before text) :
    table.lowerFrom before text = text.flatMap table.lower := by
  induction text generalizing before with
  | nil => rfl
  | cons c text ih =>
      show table.lowerAt before c text ++ table.lowerFrom (c :: before) text = _
      rw [h.head, ih h.tail, List.flatMap_cons]

theorem no_final_of_letters (hsigma : table.isAlnum 'Σ' = true)
    (h : (table.lowerFrom before text).filter table.isAlnum =
      (text.flatMap table.lower).filter table.isAlnum) :
    table.NoFinalSigma before text := by
  have hsmall : table.isAlnum 'σ' = true ∧ table.isAlnum 'ς' = true := by
    obtain ⟨hmiddle, hend⟩ := table.isAlnum_sigma
    exact ⟨hmiddle.trans hsigma, hend.trans hsigma⟩
  induction text generalizing before with
  | nil =>
      intro front back htext
      simp at htext
  | cons c text ih =>
      have hunfold : table.lowerFrom before (c :: text) =
          table.lowerAt before c text ++ table.lowerFrom (c :: before) text := rfl
      rw [hunfold, List.flatMap_cons, List.filter_append, List.filter_append] at h
      rcases lower_at_cases table before c text with hlower | ⟨rfl, -, hlower⟩
      · rw [hlower] at h
        have htail := ih (List.append_cancel_left h)
        intro front back htext
        cases front with
        | nil =>
            -- A final sigma would have become the other small letter.
            obtain ⟨rfl, rfl⟩ := List.cons.inj htext
            rw [Bool.eq_false_iff]
            intro hfinal
            rw [List.reverse_nil, List.nil_append] at hfinal
            rw [table.lower_sigma hsigma, lowerAt, if_pos (by simp [hfinal])] at hlower
            exact absurd hlower (by decide)
        | cons d front =>
            obtain ⟨rfl, hrest⟩ := List.cons.inj htext
            simpa using htail front back hrest
      · rw [hlower, table.lower_sigma hsigma, List.filter_cons_of_pos hsmall.2,
          List.filter_cons_of_pos hsmall.1] at h
        exact absurd (List.cons.inj h).1 (by decide)

/-- A text of small ASCII letters is its own lower case. -/
theorem lower_from_small (table : CharTable) (before : List Char)
    (h : ∀ c ∈ text, c.toNat < 128 ∧ c.toLower = c) : table.lowerFrom before text = text := by
  induction text generalizing before with
  | nil => rfl
  | cons c text ih =>
      obtain ⟨hascii, hsmall⟩ := h c List.mem_cons_self
      have hne : c ≠ 'Σ' := by
        rintro rfl
        exact absurd hascii (by decide)
      have hhead : table.lowerAt before c text = [c] := by
        rcases lower_at_cases table before c text with hlower | ⟨hsigma, -, -⟩
        · rw [hlower, table.lower_ascii c hascii, hsmall]
        · exact absurd hsigma hne
      show table.lowerAt before c text ++ table.lowerFrom (c :: before) text = _
      rw [hhead, ih (c :: before) fun d hd => h d (List.mem_cons_of_mem c hd)]
      rfl

/-- Every character of a text leaves its lower case, or the form of a final sigma. -/
theorem lower_from_covers (table : CharTable) (h : c ∈ text) (before : List Char) :
    (∀ d ∈ table.lower c, d ∈ table.lowerFrom before text) ∨
      (c = 'Σ' ∧ 'ς' ∈ table.lowerFrom before text) := by
  induction text generalizing before with
  | nil => cases h
  | cons e text ih =>
      have hunfold : table.lowerFrom before (e :: text) =
          table.lowerAt before e text ++ table.lowerFrom (e :: before) text := rfl
      rw [hunfold]
      rcases List.mem_cons.mp h with rfl | h
      · rcases lower_at_cases table before c text with hlower | ⟨hsigma, -, hlower⟩
        · left
          intro d hd
          rw [hlower]
          exact List.mem_append_left _ hd
        · right
          rw [hlower]
          exact ⟨hsigma, List.mem_append_left _ List.mem_cons_self⟩
      · rcases ih h (e :: before) with hall | ⟨hsigma, hend⟩
        · exact .inl fun d hd => List.mem_append_right _ (hall d hd)
        · exact .inr ⟨hsigma, List.mem_append_right _ hend⟩

end Python.CharTable
