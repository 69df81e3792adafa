import Mathlib.Data.List.Basic

/-!
# Removing what a pattern matches

`re.sub(pattern, "", text)` for a pattern that is given by the length of its match at the front of a
text. The scan takes the leftmost match, goes on behind it, and never reads a character twice.
-/

namespace Python

/-- A text behind the first `skip` characters, without the matches of a pattern. -/
def removeFrom (matchLength : List Char → Option Nat) : Nat → List Char → List Char
  | _, [] => []
  | skip + 1, _ :: text => removeFrom matchLength skip text
  | 0, c :: text =>
      match matchLength (c :: text) with
      | some (length + 1) => removeFrom matchLength length text
      -- an empty match removes nothing
      | _ => c :: removeFrom matchLength 0 text

/-- `re.sub(pattern, "", text)`. -/
def removeMatches (matchLength : List Char → Option Nat) (text : List Char) : List Char :=
  removeFrom matchLength 0 text

section

variable {matchLength : List Char → Option Nat}

theorem remove_from_sublist (skip : Nat) (text : List Char) :
    (removeFrom matchLength skip text).Sublist text := by
  induction text generalizing skip with
  | nil =>
      cases skip <;> exact List.Sublist.refl []
  | cons c text ih =>
      cases skip with
      | succ skip => exact (ih skip).cons c
      | zero =>
          unfold removeFrom
          split
          · exact (ih _).cons c
          · exact (ih 0).cons_cons c

/-- Removing matches only deletes characters. -/
theorem remove_matches_sublist (text : List Char) : (removeMatches matchLength text).Sublist text :=
  remove_from_sublist 0 text

theorem remove_matches_eq_self {start : Char}
    (hstart : ∀ c text, c ≠ start → matchLength (c :: text) = none) {text : List Char}
    (h : start ∉ text) : removeMatches matchLength text = text := by
  induction text with
  | nil => rfl
  | cons c text ih =>
      obtain ⟨hc, htext⟩ := not_or.mp (mt List.mem_cons.mpr h)
      have hnone := hstart c text (Ne.symm hc)
      unfold removeMatches removeFrom
      rw [hnone]
      exact congrArg (c :: ·) (ih htext)

end

end Python
