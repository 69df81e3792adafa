import Capmesh.Delegation.Bundles

/-!
# The files of a scope

`_canonical_scope_files` against the language it is to accept: the whole repository, or distinct
exact relative paths. It compares a path with its normal form and then looks at its components, of
which `.` has none. `canonical_scope_iff` says on which values the two agree.
-/

namespace Capmesh

open Python

section

variable {sep : Char} {parts : List (List Char)}

theorem split_on_eq (sep : Char) (text : List Char) :
    Python.splitOn sep text = List.splitOn sep text := by
  induction text with
  | nil => rfl
  | cons c text ih =>
      unfold Python.splitOn
      rw [ih, List.splitOn, List.splitOn, List.splitOnP_cons_eq_if_modifyHead]
      obtain ⟨part, rest, hsplit⟩ := List.exists_cons_of_ne_nil (List.splitOnP_ne_nil (· == sep) text)
      rw [hsplit]
      by_cases hc : c = sep <;> simp [hc]

theorem not_mem_of_split_on {text part : List Char} (h : part ∈ Python.splitOn sep text) :
    sep ∉ part := by
  have hkeep : (fun c => !decide (c ≠ sep)) = (· == sep) := by
    funext c
    simp [beq_eq_decide]
  rw [split_on_eq, List.splitOn, ← hkeep] at h
  intro hsep
  simpa using split_kept (fun c => decide (c ≠ sep)) text part h sep hsep

end

/-- An exact relative path: components that are neither empty nor dots between single slashes, of
at most 4096 characters, with no white space around it, no backslash, no NUL and no drive. -/
structure ExactPath (p : Platform) (item : String) : Prop where
  components : ∃ parts : List String, parts ≠ [] ∧
    (∀ part ∈ parts, part ≠ "" ∧ part ≠ "." ∧ part ≠ ".." ∧ '/' ∉ part.toList) ∧
    item = join "/" parts
  bounded : item.length ≤ 4096
  trimmed : p.stripSpace item = item
  plain : Char.ofNat 0 ∉ item.toList ∧ '\\' ∉ item.toList
  driveless : ∀ letter rest, item.toList = letter :: ':' :: rest → letter.isAlpha = false
  limited : item ≠ "**"

/-- A scope in its canonical form: the whole repository, or 1 to 256 distinct exact paths. -/
def CanonicalScope (p : Platform) (value : Json) : Prop :=
  value = .arr [.str "**"] ∨ ∃ items : List String, value = .arr (items.map .str) ∧
    1 ≤ items.length ∧ items.length ≤ 256 ∧ items.Nodup ∧ ∀ item ∈ items, ExactPath p item

/-- A scope that would be canonical but for the path `.` among its paths. -/
def DotScope (p : Platform) (value : Json) : Prop :=
  ∃ items : List String, value = .arr (items.map .str) ∧ 1 ≤ items.length ∧ items.length ≤ 256 ∧
    items.Nodup ∧ "." ∈ items ∧ ∀ item ∈ items, item ≠ "." → ExactPath p item

section

variable {p : Platform} {item : String}

theorem strip_space_eq_of_plain (h : ∀ c ∈ item.toList, p.chars.isSpace c = false) :
    p.stripSpace item = item := by
  have hstrip : strip p.chars.isSpace item.toList = item.toList :=
    strip_eq_self (fun d hd => h d (List.mem_of_mem_head? hd))
      fun d hd => h d (List.mem_of_getLast? hd)
  rw [Runtime.stripSpace, hstrip, String.ofList_toList]

/-- The components of an exact path are what it is split into. -/
theorem split_joined {parts : List String} (hne : parts ≠ [])
    (hparts : ∀ part ∈ parts, part ≠ "" ∧ part ≠ "." ∧ part ≠ ".." ∧ '/' ∉ part.toList) :
    ((Python.splitOn '/' (join "/" parts).toList).map String.ofList).filter (fun part =>
      part ≠ "" && part ≠ ".") = parts := by
  have hsplit : List.splitOn '/' (['/'].intercalate (parts.map String.toList)) =
      parts.map String.toList := by
    refine List.splitOn_intercalate '/' ?_ (by simpa using hne)
    intro part hpart
    obtain ⟨text, htext, rfl⟩ := List.mem_map.mp hpart
    exact (hparts text htext).2.2.2
  have hjoin : (join "/" parts).toList = ['/'].intercalate (parts.map String.toList) :=
    join_to_list "/" parts
  have hround : (parts.map String.toList).map String.ofList = parts := by
    simp [Function.comp_def, String.ofList_toList]
  rw [split_on_eq, hjoin, hsplit, hround]
  refine List.filter_eq_self.mpr fun part hpart => ?_
  simp [(hparts part hpart).1, (hparts part hpart).2.1]

/-- A path is accepted when it is exact, and also when it is `.`. -/
theorem is_scope_path_iff : isScopePath p (.str item) = true ↔ ExactPath p item ∨ item = "." := by
  constructor
  · intro h
    simp only [isScopePath, Bool.and_eq_true, decide_eq_true_eq, Bool.not_eq_true'] at h
    obtain ⟨⟨⟨⟨⟨⟨⟨⟨⟨hne, hlength⟩, htrimmed⟩, hnul⟩, hslash⟩, hdriveless⟩, hrelative⟩, hform⟩, hup⟩,
      hwhole⟩ := h
    split at hform
    · exact .inr hform.symm
    · rename_i hsome
      refine .inl ⟨⟨_, by simpa using hsome, fun part hpart => ?_, hform.symm⟩, hlength,
        htrimmed.symm, ⟨by simpa using hnul, by simpa using hslash⟩,
          fun letter rest hitem => by simpa only [hitem] using hdriveless, hwhole⟩
      have hnotup : part ≠ ".." := by
        rintro rfl
        rw [List.contains_iff_mem.mpr hpart] at hup
        cases hup
      obtain ⟨hsplit, hkept⟩ := List.mem_filter.mp hpart
      obtain ⟨text, htext, rfl⟩ := List.mem_map.mp hsplit
      simp only [Bool.and_eq_true, decide_eq_true_eq] at hkept
      refine ⟨hkept.1, hkept.2, hnotup, ?_⟩
      rw [String.toList_ofList]
      exact not_mem_of_split_on htext
  · rintro (⟨⟨parts, hne, hparts, rfl⟩, hlength, htrimmed, ⟨hnul, hslash⟩, hdriveless, hwhole⟩ | rfl)
    · have hsplit := split_joined hne hparts
      obtain ⟨first, rest, rfl⟩ := List.exists_cons_of_ne_nil hne
      obtain ⟨hfirst, -, -, hplain⟩ := hparts first List.mem_cons_self
      obtain ⟨c, text, hc⟩ := List.exists_cons_of_ne_nil
        (fun hnone : first.toList = [] => hfirst (by rw [← String.toList_inj, hnone]; rfl))
      have hjoined : ∃ more, (join "/" (first :: rest)).toList = c :: more := by
        cases rest with
        | nil => exact ⟨text, hc⟩
        | cons next rest =>
            refine ⟨text ++ ("/" ++ join "/" (next :: rest)).toList, ?_⟩
            show (first ++ "/" ++ join "/" (next :: rest)).toList = _
            rw [String.append_assoc, String.toList_append, hc]
            rfl
      obtain ⟨more, hmore⟩ := hjoined
      have hsome : join "/" (first :: rest) ≠ "" := by
        intro hnone
        rw [hnone] at hmore
        cases hmore
      have hrelative : startsWith (join "/" (first :: rest)) "/" = false := by
        have hslash : c ≠ '/' := by
          rintro rfl
          exact hplain (by rw [hc]; exact List.mem_cons_self)
        rw [startsWith, hmore]
        simp [List.isPrefixOf, hslash.symm]
      have hup : (first :: rest).contains ".." = false := by
        simp only [List.contains_eq_mem, decide_eq_false_iff_not]
        exact fun hmem => (hparts _ hmem).2.2.1 rfl
      have hform : (if (first :: rest).isEmpty then "." else join "/" (first :: rest)) =
          join "/" (first :: rest) := rfl
      simp only [isScopePath, hsplit, hrelative, hup, hform, Bool.and_eq_true, decide_eq_true_eq,
        Bool.not_eq_true']
      refine ⟨⟨⟨⟨⟨⟨⟨⟨⟨hsome, hlength⟩, htrimmed.symm⟩, by simpa using hnul⟩, by simpa using hslash⟩,
        ?_⟩, trivial⟩, trivial⟩, trivial⟩, hwhole⟩
      split
      · rename_i letter more hdrive
        exact hdriveless letter more hdrive
      · rfl
    · have hplain : p.stripSpace "." = "." := by
        refine strip_space_eq_of_plain fun c hc => ?_
        obtain rfl : c = '.' := by simpa using hc
        rw [p.chars.isSpace_ascii '.' (by decide)]
        rfl
      simp only [isScopePath, hplain]
      decide

theorem not_exact_dot : ¬ ExactPath p "." := by
  rintro ⟨⟨parts, hne, hparts, hdot⟩, -⟩
  have hsplit := split_joined hne hparts
  rw [← hdot] at hsplit
  exact hne (hsplit.symm.trans (by decide))

/-- A list of texts is accepted when all of them are, and no two are the same. -/
theorem scope_items_iff (list : List Json) :
    (list.all (isScopePath p) && list.Nodup) = true ↔ ∃ items : List String,
      list = items.map .str ∧ items.Nodup ∧ ∀ item ∈ items, ExactPath p item ∨ item = "." := by
  have hinj : Function.Injective Json.str := fun a b h => Json.str.inj h
  rw [Bool.and_eq_true, List.all_eq_true, decide_eq_true_eq]
  constructor
  · rintro ⟨hall, hnodup⟩
    obtain ⟨items, rfl⟩ : ∃ items : List String, list = items.map .str := by
      clear hnodup
      induction list with
      | nil => exact ⟨[], rfl⟩
      | cons value list ih =>
          obtain ⟨hvalue, hrest⟩ := List.forall_mem_cons.mp hall
          obtain ⟨items, rfl⟩ := ih hrest
          cases value with
          | str item => exact ⟨item :: items, rfl⟩
          | null | bool | int | float | arr | obj => cases hvalue
    refine ⟨items, rfl, (List.nodup_map_iff hinj).mp hnodup, fun item hitem => ?_⟩
    exact is_scope_path_iff.mp (hall _ (List.mem_map_of_mem hitem))
  · rintro ⟨items, rfl, hnodup, hpaths⟩
    refine ⟨fun value hvalue => ?_, (List.nodup_map_iff hinj).mpr hnodup⟩
    obtain ⟨item, hitem, rfl⟩ := List.mem_map.mp hvalue
    exact is_scope_path_iff.mpr (hpaths item hitem)

/-- What is accepted: the whole repository, or distinct paths that are exact or `.`. -/
theorem canonical_scope_files_iff (value : Json) :
    (canonicalScopeFiles p (some value)).isSome = true ↔ value = .arr [.str "**"] ∨
      ∃ items : List String, value = .arr (items.map .str) ∧ 1 ≤ items.length ∧
        items.length ≤ 256 ∧ items.Nodup ∧ ∀ item ∈ items, ExactPath p item ∨ item = "." := by
  cases value with
  | null | bool | int | float | str | obj => simp [canonicalScopeFiles]
  | arr list =>
      simp only [canonicalScopeFiles, Json.arr.injEq]
      by_cases hwhole : list = [.str "**"]
      · simp [hwhole]
      · by_cases hlength : list.length < 1 ∨ 256 < list.length
        · rw [if_pos (by simpa using hlength)]
          simp only [Option.isSome_none, Bool.false_eq_true, hwhole, false_or, false_iff]
          rintro ⟨items, rfl, hlow, hhigh, -⟩
          rw [List.length_map] at hlength
          omega
        · rw [if_neg (by simpa using hlength), if_neg hwhole]
          have hitems := scope_items_iff (p := p) list
          by_cases haccepted : (list.all (isScopePath p) && list.Nodup) = true
          · obtain ⟨items, rfl, hnodup, hpaths⟩ := hitems.mp haccepted
            rw [if_pos haccepted]
            rw [List.length_map] at hlength
            exact ⟨fun _ => .inr ⟨items, rfl, by omega, by omega, hnodup, hpaths⟩, fun _ => rfl⟩
          · rw [if_neg haccepted]
            simp only [Option.isSome_none, Bool.false_eq_true, hwhole, false_or, false_iff]
            rintro ⟨items, hlist, -, -, hnodup, hpaths⟩
            exact haccepted (hitems.mpr ⟨items, hlist, hnodup, hpaths⟩)

end

/-- **Scopes.** A value is accepted when it is a canonical scope, and only then, exactly unless it
would be one but for the path `.`. -/
theorem canonical_scope_iff (p : Platform) (value : Json) :
    ((canonicalScopeFiles p (some value)).isSome = true ↔ CanonicalScope p value) ↔
      ¬ DotScope p value := by
  have hinj : Function.Injective Json.str := fun a b h => Json.str.inj h
  rw [canonical_scope_files_iff]
  constructor
  · rintro hagree ⟨items, rfl, hlow, hhigh, hnodup, hdot, hpaths⟩
    have hcanonical := hagree.mp (.inr ⟨items, rfl, hlow, hhigh, hnodup, fun item hitem =>
      (em (item = ".")).elim .inr fun hne => .inl (hpaths item hitem hne)⟩)
    rcases hcanonical with hwhole | ⟨others, hothers, -, -, -, hexact⟩
    · have hmem := List.mem_map_of_mem (f := Json.str) hdot
      rw [Json.arr.inj hwhole, List.mem_singleton] at hmem
      exact absurd (Json.str.inj hmem) (by decide)
    · obtain rfl := (List.map_injective_iff.mpr hinj) (Json.arr.inj hothers)
      exact not_exact_dot (hexact _ hdot)
  · intro hnot
    refine or_congr_right (exists_congr fun items => ?_)
    constructor
    · rintro ⟨hvalue, hlow, hhigh, hnodup, hpaths⟩
      refine ⟨hvalue, hlow, hhigh, hnodup, fun item hitem => (hpaths item hitem).resolve_right ?_⟩
      rintro rfl
      exact hnot ⟨items, hvalue, hlow, hhigh, hnodup, hitem, fun other hother hne =>
        (hpaths other hother).resolve_right hne⟩
    · rintro ⟨hvalue, hlow, hhigh, hnodup, hpaths⟩
      exact ⟨hvalue, hlow, hhigh, hnodup, fun item hitem => .inl (hpaths item hitem)⟩

/-- The path of the repository itself is accepted. -/
theorem canonical_scope_counterexample :
    ¬ ∀ (p : Platform) (value : Json),
      (canonicalScopeFiles p (some value)).isSome = true ↔ CanonicalScope p value := by
  intro hclaim
  have haccepted : (canonicalScopeFiles .sample (some (.arr [.str "."]))).isSome = true := by
    decide +kernel
  rcases (hclaim .sample (.arr [.str "."])).mp haccepted with hwhole | ⟨items, hitems, -, -, -, hexact⟩
  · exact absurd hwhole (by decide)
  · have hdot : "." ∈ items := by
      have hmem : Json.str "." ∈ items.map Json.str := by
        rw [← Json.arr.inj hitems]
        exact List.mem_cons_self
      obtain ⟨item, hitem, hsame⟩ := List.mem_map.mp hmem
      rwa [← Json.str.inj hsame]
    exact not_exact_dot (hexact _ hdot)

end Capmesh
