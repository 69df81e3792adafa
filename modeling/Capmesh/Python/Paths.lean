import Mathlib.Data.List.DropRight
import Mathlib.Data.List.Induction
import Capmesh.Python.Words

/-!
# Addresses as paths

An address is a path: its segments stand between slashes, and slashes at its end say nothing. One
path is `under` another when its segments go on where those of the other end. Paths of one length
that have a path under both of them have the same segments (`eq_of_under`), so what is under two
directories is under one of two directories that do not overlap.
-/

namespace Python

/-- The segments of a path. -/
def segments (path : String) : List (List Char) :=
  (rstrip (· = '/') path.toList).splitOn '/'

/-- Whether a path is another one or extends it. -/
def under (path base : String) : Bool := (segments base).isPrefixOf (segments path)

/-- A text that is one segment of a path. -/
structure IsSegment (text : String) : Prop where
  ne : text ≠ ""
  plain : '/' ∉ text.toList

instance (text : String) : Decidable (IsSegment text) :=
  decidable_of_iff (text ≠ "" ∧ '/' ∉ text.toList) ⟨fun h => ⟨h.1, h.2⟩, fun h => ⟨h.ne, h.plain⟩⟩

variable {path middle base other : String}

theorem under_iff : under path base = true ↔ segments base <+: segments path :=
  List.isPrefixOf_iff_prefix

theorem under_refl (path : String) : under path path = true := under_iff.mpr (List.prefix_refl _)

theorem under_trans (h : under path middle = true) (hmiddle : under middle base = true) :
    under path base = true :=
  under_iff.mpr ((under_iff.mp hmiddle).trans (under_iff.mp h))

theorem eq_of_under (h : under path base = true) (hother : under path other = true)
    (hlength : (segments base).length = (segments other).length) :
    segments base = segments other :=
  (List.prefix_of_prefix_length_le (under_iff.mp h) (under_iff.mp hother)
    hlength.le).eq_of_length hlength

/-- Stripping on the right empties the end of a text before it reaches the front. -/
theorem rstrip_append (chars : Char → Bool) (front rest : List Char) :
    rstrip chars (front ++ rest) =
      if rstrip chars rest = [] then rstrip chars front else front ++ rstrip chars rest := by
  unfold rstrip
  rw [List.reverse_append, List.dropWhile_append]
  by_cases hrest : rest.reverse.dropWhile chars = []
  · simp [hrest]
  · simp [hrest]

/-- A text without the slashes at its end splits into the first segments of the text. -/
theorem split_on_rstrip (front : List Char) :
    (rstrip (· = '/') front).splitOn '/' <+: front.splitOn '/' := by
  induction front using List.reverseRecOn with
  | nil => exact List.prefix_refl _
  | append_singleton front c ih =>
      by_cases hslash : c = '/'
      · subst hslash
        have hstrip : rstrip (· = '/') (front ++ ['/']) = rstrip (· = '/') front := by
          rw [rstrip_append]
          simp [rstrip]
        rw [hstrip, List.splitOn_append_cons_self]
        exact ih.trans (List.prefix_append _ _)
      · have hkeep : rstrip (· = '/') (front ++ [c]) = front ++ [c] :=
          rstrip_append_cons (by simpa using hslash) front []
        simpa only [hkeep] using List.prefix_refl (List.splitOn '/' (front ++ [c]))

/-- What follows a slash goes on from the segments before it. -/
theorem segments_sep_append (front rest : List Char) :
    (rstrip (· = '/') front).splitOn '/' <+:
      (rstrip (· = '/') (front ++ '/' :: rest)).splitOn '/' := by
  rw [rstrip_append]
  split
  · exact List.prefix_refl _
  · rename_i hrest
    have htail : rstrip (· = '/') ('/' :: rest) = '/' :: rstrip (· = '/') rest := by
      rcases rstrip_sep_cases '/' rest with hnil | ⟨tail, -⟩
      · exact absurd hnil hrest
      · rw [rstrip_cons] at hrest ⊢
        exact if_neg fun h => hrest (if_pos h)
    rw [htail, List.splitOn_append_cons_self]
    exact (split_on_rstrip front).trans (List.prefix_append _ _)

/-- A path that goes on after a slash is under the path before it. -/
theorem under_append (base rest : String) : under (base ++ ("/" ++ rest)) base = true := by
  rw [under_iff]
  unfold segments
  rw [show (base ++ ("/" ++ rest)).toList = base.toList ++ '/' :: rest.toList by simp]
  exact segments_sep_append _ _

theorem under_of_eq_append (rest : String) (h : path = base ++ ("/" ++ rest)) :
    under path base = true := h ▸ under_append base rest

/-- The same behind a path whose last slashes are dropped. -/
theorem under_rstrip_append (base rest : String) :
    under (String.ofList (rstrip (· = '/') base.toList) ++ "/" ++ rest) base = true := by
  have htwice : rstrip (· = '/') (rstrip (· = '/') base.toList) = rstrip (· = '/') base.toList :=
    List.rdropWhile_idempotent _ _
  have happend := segments_sep_append (rstrip (· = '/') base.toList) rest.toList
  rw [htwice] at happend
  rw [under_iff]
  unfold segments
  rw [show (String.ofList (rstrip (· = '/') base.toList) ++ "/" ++ rest).toList =
    rstrip (· = '/') base.toList ++ '/' :: rest.toList by simp]
  exact happend

/-- The segments of a path that ends with two given ones. -/
theorem segments_append_two (root : String) {first last : String} (hfirst : IsSegment first)
    (hlast : IsSegment last) : segments (root ++ ("/" ++ (first ++ "/" ++ last))) =
      root.toList.splitOn '/' ++ [first.toList, last.toList] := by
  have hne : last.toList ≠ [] := fun hnil => hlast.ne (String.toList_eq_nil_iff.mp hnil)
  have hkeep : rstrip (· = '/') last.toList = last.toList := by
    simpa [rstrip] using rstrip_append_of_ne_nil hne (not_sep_of_not_mem hlast.plain) []
  have hstrip : rstrip (· = '/') (root.toList ++ '/' :: (first.toList ++ '/' :: last.toList)) =
      root.toList ++ '/' :: (first.toList ++ '/' :: last.toList) := by
    rw [show root.toList ++ '/' :: (first.toList ++ '/' :: last.toList) =
      root.toList ++ '/' :: (first.toList ++ ['/']) ++ last.toList by simp, rstrip_append, hkeep,
      if_neg hne]
  unfold segments
  rw [show (root ++ ("/" ++ (first ++ "/" ++ last))).toList =
    root.toList ++ '/' :: (first.toList ++ '/' :: last.toList) by simp, hstrip,
    List.splitOn_append_cons_self, List.splitOn_append_cons_self,
    List.splitOn_eq_singleton hfirst.plain, List.splitOn_eq_singleton hlast.plain]
  rfl

end Python
