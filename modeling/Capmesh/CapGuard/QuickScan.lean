import Capmesh.CapGuard.Scanning
import Capmesh.Python.Ascii
import Capmesh.Python.Words

/-!
# The scan by letters

A scan compares a text with every phrase in two views. A phrase can only be found in a text that
has all its letters, so that `quickScan` compares with the others no more; `scan_quick` puts it in
the place of `scanPromptInjection` before a run is evaluated.
-/

namespace Capmesh

open Python

/-- `foldContent` by the bytes of the content. -/
def quickFold (p : Platform) (content : String) : List Char :=
  let stripped := (fastChars (p.nfkc content)).filter fun c => !zeroWidth.contains c.toNat
  (p.chars.lowerFrom [] stripped).map fun c => (homoglyphs.lookup c).getD c

/-- `scanPromptInjection`, which compares a text with the phrases whose letters it has. -/
def quickScan (p : Platform) (content : String) : List String :=
  let normalized := quickFold p content
  let collapsed := collapseSpace p normalized
  let compact := normalized.filter fun c => !p.chars.isSpace c
  injectionPhrases.filter fun phrase =>
    (fastChars phrase).all (fun c => c = ' ' || normalized.contains c) &&
      (contains collapsed (fastChars phrase) ||
        contains compact ((fastChars phrase).filter (· ≠ ' ')))

section

variable {p : Platform} {phrase text : List Char} {c : Char}

theorem mem_of_mem_collapse (h : c ∈ collapseSpace p text) : c = ' ' ∨ c ∈ text := by
  induction text using collapseSpace.induct p with
  | case1 => cases h
  | case2 d hd =>
      unfold collapseSpace at h
      rw [if_pos hd] at h
      exact .inl (List.mem_singleton.mp h)
  | case3 d hd e rest he ih =>
      unfold collapseSpace at h
      rw [if_pos hd] at h
      dsimp only at h
      rw [if_pos he] at h
      exact (ih h).imp_right (List.mem_cons_of_mem _)
  | case4 d hd e rest he ih =>
      unfold collapseSpace at h
      rw [if_pos hd] at h
      dsimp only at h
      rw [if_neg he] at h
      rcases List.mem_cons.mp h with rfl | h
      · exact .inl rfl
      · exact (ih h).imp_right (List.mem_cons_of_mem _)
  | case5 d rest hd ih =>
      unfold collapseSpace at h
      rw [if_neg hd] at h
      rcases List.mem_cons.mp h with rfl | h
      · exact .inr List.mem_cons_self
      · exact (ih h).imp_right (List.mem_cons_of_mem _)

theorem letters_of_found (h : (contains (collapseSpace p text) phrase ||
      contains (text.filter fun c => !p.chars.isSpace c) (phrase.filter (· ≠ ' '))) = true) :
    phrase.all (fun c => c = ' ' || text.contains c) = true := by
  rw [Bool.or_eq_true, contains_iff, contains_iff] at h
  refine List.all_eq_true.mpr fun c hc => ?_
  rw [Bool.or_eq_true, decide_eq_true_eq, List.contains_iff_mem]
  rcases h with hcollapsed | hcompact
  · exact mem_of_mem_collapse (hcollapsed.subset hc)
  · refine or_iff_not_imp_left.mpr fun hspace => ?_
    exact (List.mem_filter.mp (hcompact.subset (List.mem_filter.mpr ⟨hc, by simpa using hspace⟩))).1

end

theorem scan_quick : scanPromptInjection = quickScan := by
  funext p content
  have hfold : foldContent p content = quickFold p content := by
    unfold foldContent quickFold
    rw [fast_chars_eq]
  unfold scanPromptInjection quickScan
  rw [hfold]
  refine List.filter_congr fun phrase _ => ?_
  rw [fast_chars_eq, Bool.eq_iff_iff, Bool.and_eq_true]
  exact ⟨fun h => ⟨letters_of_found h, h⟩, And.right⟩

end Capmesh
