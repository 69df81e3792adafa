import Capmesh.Python.Words

/-!
# The lines of a text

Where a marker stands in a text and in its lines. `split_lines_before` cuts a text in front of a
marker that has no line break in it: the lines of what is left are those before the line with the
marker, and the part of that line in front of it.
-/

namespace Python

section

theorem split_lines_cons_break {c : Char} (hbreak : isLineBreak c = true) (text : List Char) :
    (c.toNat = 0x0D ∧ text.head?.map (·.toNat) = some 0x0A ∧
      splitLines (c :: text) = splitLines text) ∨
    ¬ (c.toNat = 0x0D ∧ text.head?.map (·.toNat) = some 0x0A) ∧
      splitLines (c :: text) = [] :: splitLines text := by
  rw [splitLines]
  by_cases hcr : c.toNat = 0x0D ∧ text.head?.map (·.toNat) = some 0x0A
  · exact .inl ⟨hcr.1, hcr.2, by simp [hcr]⟩
  · right
    rw [if_neg (by simpa using hcr), if_pos hbreak]
    exact ⟨hcr, rfl⟩

/-- Any other character begins the first line. -/
theorem split_lines_cons_char {c : Char} (hbreak : isLineBreak c = false) (text : List Char) :
    splitLines (c :: text) =
      match splitLines text with
      | [] => [[c]]
      | line :: lines => (c :: line) :: lines := by
  have hcr : c.toNat ≠ 0x0D := by
    intro hcr
    rw [isLineBreak, hcr] at hbreak
    cases hbreak
  exact (if_neg (by simp [hcr])).trans (if_neg (by simp [hbreak]))

theorem first_line_prefix {text line : List Char} {lines : List (List Char)}
    (h : splitLines text = line :: lines) : line <+: text := by
  induction text generalizing line lines with
  | nil => cases h
  | cons c text ih =>
      by_cases hbreak : isLineBreak c = true
      · rcases split_lines_cons_break hbreak text with ⟨-, hnext, hsame⟩ | ⟨-, hsame⟩
        · -- The line feed behind a carriage return ends an empty line.
          cases text with
          | nil => cases hnext
          | cons d text =>
              have hfeed : d.toNat = 0x0A := by simpa using hnext
              have hd : isLineBreak d = true := by rw [isLineBreak, hfeed]; decide
              rw [hsame] at h
              rcases split_lines_cons_break hd text with ⟨hcr, -, -⟩ | ⟨-, hempty⟩
              · rw [hfeed] at hcr
                cases hcr
              · rw [hempty] at h
                rw [← (List.cons.inj h).1]
                exact List.nil_prefix
        · rw [hsame] at h
          rw [← (List.cons.inj h).1]
          exact List.nil_prefix
      · rw [split_lines_cons_char (Bool.eq_false_iff.mpr hbreak)] at h
        cases hlines : splitLines text with
        | nil =>
            rw [hlines] at h
            rw [← (List.cons.inj h).1]
            exact ⟨text, rfl⟩
        | cons first rest =>
            rw [hlines] at h
            rw [← (List.cons.inj h).1]
            exact List.prefix_cons_iff.mpr (.inr ⟨first, rfl, ih hlines⟩)

theorem split_lines_append {marker : List Char} (hmarker : marker ≠ [])
    (hplain : ∀ c ∈ marker, isLineBreak c = false) (text : List Char) :
    splitLines (marker ++ text) =
      (marker ++ (splitLines text).headD []) :: (splitLines text).tail := by
  induction marker with
  | nil => exact absurd rfl hmarker
  | cons c marker ih =>
      obtain ⟨hc, hrest⟩ := List.forall_mem_cons.mp hplain
      rw [List.cons_append, split_lines_cons_char hc]
      by_cases hempty : marker = []
      · rw [hempty, List.nil_append]
        cases splitLines text <;> rfl
      · rw [ih hempty hrest]
        rfl

theorem before_first_cons {marker text : List Char} {c : Char}
    (h : marker.isPrefixOf (c :: text) = false) :
    beforeFirst marker (c :: text) = (beforeFirst marker text).map (c :: ·) := by
  rw [beforeFirst, if_neg (by simp [h])]

theorem before_first_prefix {marker text part : List Char}
    (h : beforeFirst marker text = some part) : part <+: text := by
  induction text generalizing part with
  | nil =>
      unfold beforeFirst at h
      split at h
      · cases h
        exact List.nil_prefix
      · cases h
  | cons c text ih =>
      unfold beforeFirst at h
      split at h
      · cases h
        exact List.nil_prefix
      · obtain ⟨front, hfront, rfl⟩ := Option.map_eq_some_iff.mp h
        exact List.prefix_cons_iff.mpr (.inr ⟨front, rfl, ih hfront⟩)

theorem not_prefix_of_break {marker : List Char} {c : Char} (hmarker : marker ≠ [])
    (hplain : ∀ c ∈ marker, isLineBreak c = false) (hbreak : isLineBreak c = true)
    (text : List Char) : marker.isPrefixOf (c :: text) = false := by
  obtain ⟨d, rest, rfl⟩ := List.exists_cons_of_ne_nil hmarker
  rw [List.isPrefixOf_cons_cons, Bool.and_eq_false_iff]
  left
  rw [beq_eq_false_iff_ne]
  rintro rfl
  rw [hplain d List.mem_cons_self] at hbreak
  cases hbreak

/-- The lines of a text up to a line with the marker in it: those before that line, and the part of
it in front of the marker. -/
theorem split_lines_before {marker text rule part : List Char} {pre post : List (List Char)}
    (hmarker : marker ≠ []) (hplain : ∀ c ∈ marker, isLineBreak c = false)
    (hsplit : splitLines text = pre ++ rule :: post)
    (hpre : ∀ line ∈ pre, beforeFirst marker line = none)
    (hrule : beforeFirst marker rule = some part) :
    ∃ body, beforeFirst marker text = some body ∧
      splitLines body = pre ++ if part = [] then [] else [part] := by
  have hnil : beforeFirst marker [] = none := if_neg (by simpa using hmarker)
  induction text generalizing pre rule part post with
  | nil =>
      have hlength := congrArg List.length hsplit
      simp [splitLines] at hlength
  | cons c text ih =>
      by_cases hbreak : isLineBreak c = true
      · -- A break is in front of the marker, and the text before the marker has the same break.
        have hcons : ∀ {body}, beforeFirst marker text = some body →
            beforeFirst marker (c :: text) = some (c :: body) := by
          intro body hbody
          rw [before_first_cons (not_prefix_of_break hmarker hplain hbreak text), hbody]
          rfl
        rcases split_lines_cons_break hbreak text with ⟨hcr, hnext, hsame⟩ | ⟨hcr, hsame⟩
        · rw [hsame] at hsplit
          obtain ⟨body, hbody, hlines⟩ := ih hsplit hpre hrule
          refine ⟨c :: body, hcons hbody, ?_⟩
          cases text with
          | nil => cases hnext
          | cons d text =>
              have hfeed : d.toNat = 0x0A := by simpa using hnext
              have hd : isLineBreak d = true := by rw [isLineBreak, hfeed]; decide
              rw [before_first_cons (not_prefix_of_break hmarker hplain hd text)] at hbody
              obtain ⟨front, -, rfl⟩ := Option.map_eq_some_iff.mp hbody
              rw [splitLines, if_pos (by simp [hcr, hfeed])]
              exact hlines
        · rw [hsame] at hsplit
          cases pre with
          | nil =>
              rw [List.nil_append] at hsplit
              rw [← (List.cons.inj hsplit).1, hnil] at hrule
              cases hrule
          | cons first pre =>
              obtain ⟨rfl, hrest⟩ := List.cons.inj hsplit
              obtain ⟨body, hbody, hlines⟩ := ih hrest
                (fun line hline => hpre line (List.mem_cons_of_mem _ hline)) hrule
              refine ⟨c :: body, hcons hbody, ?_⟩
              rcases split_lines_cons_break hbreak body with
                ⟨hcr', hnext, -⟩ | ⟨-, hbodySame⟩
              · obtain ⟨more, rfl⟩ := before_first_prefix hbody
                refine absurd ⟨hcr', ?_⟩ hcr
                cases body with
                | nil => cases hnext
                | cons d body => exact hnext
              · rw [hbodySame, hlines]
                rfl
      · rw [Bool.not_eq_true] at hbreak
        by_cases hprefix : marker.isPrefixOf (c :: text) = true
        · -- The marker begins the first line, which is then the one with the marker.
          have hbefore : ∀ line, marker.isPrefixOf line = true → line ≠ [] →
              beforeFirst marker line = some [] := by
            intro line hline hne
            cases line with
            | nil => exact absurd rfl hne
            | cons d line => exact if_pos hline
          obtain ⟨rest, hrest⟩ := List.isPrefixOf_iff_prefix.mp hprefix
          rw [← hrest, split_lines_append hmarker hplain] at hsplit
          have hfirst : beforeFirst marker (marker ++ (splitLines rest).headD []) = some [] :=
            hbefore _ (List.isPrefixOf_iff_prefix.mpr (List.prefix_append _ _)) (by simp [hmarker])
          refine ⟨[], hbefore _ hprefix (List.cons_ne_nil _ _), ?_⟩
          cases pre with
          | nil =>
              rw [List.nil_append] at hsplit
              rw [← (List.cons.inj hsplit).1, hfirst] at hrule
              cases hrule
              rfl
          | cons first pre =>
              have hnone := hpre first List.mem_cons_self
              rw [← (List.cons.inj hsplit).1, hfirst] at hnone
              cases hnone
        · rw [Bool.not_eq_true] at hprefix
          rw [split_lines_cons_char hbreak] at hsplit
          -- The first line has the marker where the rest of the text has it.
          have hline : ∀ {line lines}, splitLines text = line :: lines →
              beforeFirst marker (c :: line) = (beforeFirst marker line).map (c :: ·) := by
            intro line lines hlines
            refine before_first_cons (Bool.eq_false_iff.mpr fun hmarked => ?_)
            have := (List.isPrefixOf_iff_prefix.mp hmarked).trans
              (List.prefix_cons_iff.mpr (.inr ⟨line, rfl, first_line_prefix hlines⟩))
            rw [← List.isPrefixOf_iff_prefix, hprefix] at this
            cases this
          rw [before_first_cons hprefix]
          cases hlines : splitLines text with
          | nil =>
              rw [hlines] at hsplit
              cases pre with
              | nil =>
                  obtain ⟨hsame, -⟩ := List.cons.inj hsplit
                  have hshort : marker.isPrefixOf [c] = false := by
                    rw [Bool.eq_false_iff]
                    intro hmarked
                    have := (List.isPrefixOf_iff_prefix.mp hmarked).trans
                      (show [c] <+: c :: text from ⟨text, rfl⟩)
                    rw [← List.isPrefixOf_iff_prefix, hprefix] at this
                    cases this
                  rw [← hsame, before_first_cons hshort, hnil] at hrule
                  cases hrule
              | cons first pre => simp at hsplit
          | cons line lines =>
              rw [hlines] at hsplit
              cases pre with
              | nil =>
                  obtain ⟨hsame, hpost⟩ := List.cons.inj hsplit
                  rw [← hsame, hline hlines] at hrule
                  obtain ⟨front, hfront, rfl⟩ := Option.map_eq_some_iff.mp hrule
                  have hhead : splitLines text = [] ++ line :: lines := hlines
                  obtain ⟨body, hbody, hrest⟩ := ih hhead
                    (fun line hline => absurd hline List.not_mem_nil) hfront
                  refine ⟨c :: body, by rw [hbody]; rfl, ?_⟩
                  rw [split_lines_cons_char hbreak, hrest]
                  by_cases hempty : front = [] <;> simp [hempty]
              | cons first pre =>
                  obtain ⟨hsame, hpost⟩ := List.cons.inj hsplit
                  have hnone := hpre first List.mem_cons_self
                  rw [← hsame, hline hlines, Option.map_eq_none_iff] at hnone
                  have htail : splitLines text = (line :: pre) ++ rule :: post := by
                    rw [hlines, hpost]
                    rfl
                  obtain ⟨body, hbody, hrest⟩ := ih htail (List.forall_mem_cons.mpr
                    ⟨hnone, fun line hline => hpre line (List.mem_cons_of_mem _ hline)⟩) hrule
                  refine ⟨c :: body, by rw [hbody]; rfl, ?_⟩
                  rw [split_lines_cons_char hbreak, hrest, ← hsame]
                  rfl

theorem mem_of_before_first {marker text part : List Char} {c : Char} (hc : c ∈ marker)
    (h : beforeFirst marker text = some part) : c ∈ text := by
  induction text generalizing part with
  | nil =>
      unfold beforeFirst at h
      split at h
      · rename_i hempty
        rw [List.isEmpty_iff.mp hempty] at hc
        cases hc
      · cases h
  | cons d text ih =>
      unfold beforeFirst at h
      split at h
      · rename_i hprefix
        exact (List.isPrefixOf_iff_prefix.mp hprefix).subset hc
      · obtain ⟨front, hfront, -⟩ := Option.map_eq_some_iff.mp h
        exact List.mem_cons_of_mem d (ih hfront)

theorem before_first_append {c : Char} {marker left : List Char} (hleft : c ∉ left)
    (right : List Char) :
    beforeFirst (c :: marker) (left ++ (c :: marker) ++ right) = some left := by
  induction left with
  | nil =>
      refine if_pos (List.isPrefixOf_iff_prefix.mpr ?_)
      exact List.prefix_append _ _
  | cons d left ih =>
      have hd : (c :: marker).isPrefixOf (d :: (left ++ (c :: marker) ++ right)) = false := by
        rw [List.isPrefixOf_cons_cons, Bool.and_eq_false_iff]
        left
        rw [beq_eq_false_iff_ne]
        rintro rfl
        exact hleft List.mem_cons_self
      show beforeFirst (c :: marker) (d :: (left ++ (c :: marker) ++ right)) = some (d :: left)
      rw [before_first_cons hd, ih fun hmem => hleft (List.mem_cons_of_mem d hmem)]
      rfl

end

end Python
