import Capmesh.Python.Casing
import Capmesh.Governance.Addresses
import Capmesh.Discovery.Manifest

/-!
# The composers of capability addresses

Three functions write the tail of a capability's address: an approved promotion
(`approve_request`), the private and the placed addresses (`capability_canonical_tail`), and
discovery (`capability_uri` of `manifest.py`). The first and the last spell a text with
`slugify`, the second with `slug`. Read `slug_eq_slugify_iff` first: the two agree exactly on
plain texts. `composers_agree_iff` says when the tails agree.
-/

namespace Capmesh

open Python Relational

/-- The tail of the address an approved promotion gives a capability. -/
def promotedTail (p : Platform) (cap : Capability) : String :=
  cap.capabilityType.text ++ "/" ++ slugify p (optOr cap.plugin "global") ++ "." ++
    slugify p cap.name ++ "@" ++ cap.version

/-- The tail of the address discovery composes for a capability. -/
def manifestTail (p : Platform) (cap : Capability) (fallback : String) : String :=
  removePrefix (capabilityUri p cap.capabilityType.text cap.plugin cap.name cap.version fallback).1
    "cap://asg.local/"

/-- The three composers give a capability one tail; discovery's counts for a capability with a
plugin. -/
def ComposersAgree (p : Platform) (cap : Capability) (fallback : String) : Prop :=
  promotedTail p cap = capabilityCanonicalTail p cap ∧
    (present cap.plugin = true → manifestTail p cap fallback = capabilityCanonicalTail p cap)

/-- A text on which `slug` and `slugify` agree: its letters are letters in lower case too, no capital
sigma ends a word, and there is no dot or underscore from its first letter or digit to its
last. -/
structure PlainText (p : Platform) (text : String) : Prop where
  letters : ∀ c ∈ text.toList, p.chars.isAlnum c = true → ∀ d ∈ p.chars.lower c,
    p.chars.isAlnum d = true
  sigma : p.chars.isAlnum 'Σ' = true → p.chars.NoFinalSigma [] (p.stripSpace text).toList
  inner : ∀ c ∈ strip (!p.chars.isAlnum ·) text.toList, c ≠ '.' ∧ c ≠ '_'

/-- A version that is its own version segment: dots, hyphens and lower-case letters and digits,
neither beginning nor ending with a dot or a hyphen. -/
structure PlainVersion (p : Platform) (version : String) : Prop where
  ne : version ≠ ""
  chars : ∀ c ∈ version.toList, c = '.' ∨ c = '-' ∨
    (p.chars.isAlnum c = true ∧ p.chars.lower c = [c])
  first : ∀ c ∈ version.toList.head?, c ≠ '.' ∧ c ≠ '-'
  last : ∀ c ∈ version.toList.getLast?, c ≠ '.' ∧ c ≠ '-'

/-- One character of a slug of `manifest.py`. -/
def slugifyChar (p : Platform) (c : Char) : Char :=
  if p.chars.isAlnum c || c = '_' || c = '.' || c = '-' then c else '-'

/-- The characters a slug of `manifest.py` never begins or ends with. -/
def isSlugEdge (c : Char) : Bool := c = '-' || c = '.' || c = '_'

section

variable {p : Platform} {c d : Char} {v : String} {cap : Capability} {fallback : String}

theorem slug_edge_not_alnum (h : isSlugEdge c = true) : p.chars.isAlnum c = false := by
  simp only [isSlugEdge, Bool.or_eq_true, decide_eq_true_eq] at h
  rcases h with (rfl | rfl) | rfl <;>
    · rw [p.chars.isAlnum_ascii _ (by decide)]
      decide

theorem edge_of_not_alnum (h : p.chars.isAlnum c = false) : isSlugEdge (slugifyChar p c) = true := by
  unfold slugifyChar
  split
  · rename_i hkeep
    simp only [h, Bool.false_or, Bool.or_eq_true, decide_eq_true_eq] at hkeep
    rcases hkeep with (rfl | rfl) | rfl <;> decide
  · decide

theorem slugify_char_of_alnum (h : p.chars.isAlnum c = true) : slugifyChar p c = c := by
  simp [slugifyChar, h]

/-- The lower case of a character that is not a letter is one hyphen or more, unless the character
is a dot, an underscore, or a hyphen. -/
theorem slugify_lower_not_alnum (h : p.chars.isAlnum c = false) :
    (isSlugEdge c = true ∧ (p.chars.lower c).map (slugifyChar p) = [c]) ∨
      (isSlugEdge c = false ∧ ∀ d ∈ (p.chars.lower c).map (slugifyChar p), d = '-') := by
  cases hedge : isSlugEdge c with
  | true =>
      left
      simp only [isSlugEdge, Bool.or_eq_true, decide_eq_true_eq] at hedge
      rcases hedge with (rfl | rfl) | rfl <;>
        · rw [p.chars.lower_ascii _ (by decide)]
          refine ⟨rfl, ?_⟩
          simp [slugifyChar]
          try decide
  | false =>
      right
      refine ⟨rfl, fun d hd => ?_⟩
      obtain ⟨e, he, rfl⟩ := List.mem_map.mp hd
      have hnot := p.chars.lower_not_alnum c h e he
      have hother : e ≠ '_' ∧ e ≠ '.' := by
        constructor
        · rintro rfl
          rcases p.chars.lower_punctuation c _ he (by decide) with hbad | rfl
          · exact absurd hbad (by decide)
          · exact absurd hedge (by decide)
        · rintro rfl
          rcases p.chars.lower_punctuation c _ he (by decide) with hbad | rfl
          · exact absurd hbad (by decide)
          · exact absurd hedge (by decide)
      simp [slugifyChar, hnot, hother]

/-- A text from its first letter or digit to its last. -/
def core (p : Platform) (v : String) : List Char := strip (!p.chars.isAlnum ·) v.toList

/-- One character of a text in a slug of `manifest.py`, without its context. -/
def slugifyLower (p : Platform) (c : Char) : List Char := (p.chars.lower c).map (slugifyChar p)

/-- One character of a text in a slug of `governance.py`. -/
def slugChar (p : Platform) (c : Char) : List Char :=
  if p.chars.isAlnum c then p.chars.lower c else ['-']

theorem slugify_eq (p : Platform) (v : String) :
    slugify p v = orElse (String.ofList (strip isSlugEdge (squeeze '-'
      ((p.chars.lowerFrom [] (p.stripSpace v).toList).map (slugifyChar p))))) "unnamed" := by
  show orElse (String.ofList (strip isSlugEdge (squeeze '-'
    ((String.ofList (p.chars.lowerFrom [] (p.stripSpace v).toList)).toList.map (slugifyChar p)))))
      "unnamed" = _
  rw [String.toList_ofList]

theorem slug_eq_core (p : Platform) (v : String) :
    slug p v = orElse (String.ofList (squeeze '-' ((core p v).flatMap (slugChar p)))) "unnamed" := by
  have hstrip : strip (· = '-') (v.toList.flatMap (slugChar p)) = (core p v).flatMap (slugChar p) := by
    refine strip_flat_map (fun c hc => ?_) (fun c hc d hd => ?_) v.toList
    · have hfold : slugChar p c = p.chars.lower c := by simp [slugChar, hc]
      rw [hfold]
      refine ⟨p.chars.lower_ne_nil c, fun d hd => ?_⟩
      have hne : d ≠ '-' := fun h => lower_free (by decide) (by decide) hc (h ▸ hd)
      simpa using hne
    · have hfold : slugChar p c = ['-'] := by simp [slugChar, hc]
      rw [hfold] at hd
      simpa using hd
  show orElse (String.ofList (squeeze '-' (strip (· = '-') (v.toList.flatMap (slugChar p)))))
    "unnamed" = _
  rw [hstrip]

theorem edges_of_not_alnum {text : List Char} (h : ∀ c ∈ text, p.chars.isAlnum c = false) :
    ∀ d ∈ text.flatMap (slugifyLower p), isSlugEdge d = true := by
  intro d hd
  obtain ⟨c, hc, hd⟩ := List.mem_flatMap.mp hd
  obtain ⟨e, he, rfl⟩ := List.mem_map.mp hd
  exact edge_of_not_alnum (p.chars.lower_not_alnum c (h c hc) e he)

theorem slugify_lower_ne_nil (c : Char) : slugifyLower p c ≠ [] := by
  simp [slugifyLower, p.chars.lower_ne_nil c]

/-- Where a capital sigma is no letter, its form does not matter after a squeeze. -/
theorem squeeze_lower_from (hsigma : p.chars.isAlnum 'Σ' = false) (before text : List Char) :
    squeeze '-' ((p.chars.lowerFrom before text).map (slugifyChar p)) =
      squeeze '-' (text.flatMap (slugifyLower p)) := by
  induction text generalizing before with
  | nil => rfl
  | cons c text ih =>
      show squeeze '-' ((p.chars.lowerAt before c text ++
        p.chars.lowerFrom (c :: before) text).map (slugifyChar p)) = _
      rw [List.map_append, List.flatMap_cons, squeeze_append_congr (ih (c :: before))]
      rcases CharTable.lower_at_cases p.chars before c text with hlower | ⟨rfl, -, hlower⟩
      · rw [hlower]
        rfl
      · have hend : slugifyChar p 'ς' = '-' := by
          simp [slugifyChar, p.chars.isAlnum_sigma.2, hsigma]
        have hrun := ((slugify_lower_not_alnum hsigma).resolve_left fun h => by
          exact absurd h.1 (by decide)).2
        rw [hlower, List.map_singleton, hend, List.singleton_append]
        exact (squeeze_run (slugify_lower_ne_nil _) hrun _).symm

/-- Without a final sigma, a slug of `manifest.py` is spelled from the core of the text. -/
theorem slugify_eq_core
    (h : p.chars.isAlnum 'Σ' = true → p.chars.NoFinalSigma [] (p.stripSpace v).toList) :
    slugify p v = orElse (String.ofList (strip isSlugEdge (squeeze '-'
      ((core p v).flatMap (slugifyLower p))))) "unnamed" := by
  have hlower : squeeze '-' ((p.chars.lowerFrom [] (p.stripSpace v).toList).map (slugifyChar p)) =
      squeeze '-' ((strip p.chars.isSpace v.toList).flatMap (slugifyLower p)) := by
    rw [Runtime.stripSpace, String.toList_ofList] at h ⊢
    cases hsigma : p.chars.isAlnum 'Σ' with
    | true =>
        rw [CharTable.lower_from_of_no_final (h hsigma), List.map_flatMap]
        rfl
    | false => exact squeeze_lower_from hsigma [] _
  have houter : ∀ test : Char → Bool, (∀ c, test c = true → p.chars.isAlnum c = false) →
      strip isSlugEdge (squeeze '-' (v.toList.flatMap (slugifyLower p))) =
        strip isSlugEdge (squeeze '-' ((strip test v.toList).flatMap (slugifyLower p))) := by
    intro test htest
    obtain ⟨left, right, heq, hleft, hright⟩ := strip_spec test v.toList
    conv_lhs => rw [heq, List.flatMap_append, List.flatMap_append]
    exact strip_squeeze_outer (by decide) (edges_of_not_alnum fun c hc => htest c (hleft c hc))
      (edges_of_not_alnum fun c hc => htest c (hright c hc)) _
  rw [slugify_eq, hlower, ← houter p.chars.isSpace p.chars.isAlnum_of_space,
    houter (!p.chars.isAlnum ·) (fun c hc => by simpa using hc)]
  rfl

theorem mem_core (h : c ∈ v.toList) (hc : p.chars.isAlnum c = true) : c ∈ core p v :=
  mem_strip_of_not h (by simp [hc])

theorem core_ends (p : Platform) (v : String) :
    (∀ c ∈ (core p v).head?, p.chars.isAlnum c = true) ∧
      ∀ c ∈ (core p v).getLast?, p.chars.isAlnum c = true := by
  obtain ⟨hhead, hlast⟩ := strip_ends (!p.chars.isAlnum ·) v.toList
  exact ⟨fun c hc => by simpa using hhead c hc, fun c hc => by simpa using hlast c hc⟩

theorem edge_of_alnum (h : p.chars.isAlnum c = true) : isSlugEdge c = false := by
  rw [Bool.eq_false_iff]
  intro hedge
  rw [slug_edge_not_alnum hedge] at h
  cases h

theorem ne_hyphen_of_alnum (h : p.chars.isAlnum c = true) : c ≠ '-' := by
  rintro rfl
  exact absurd (edge_of_alnum h) (by decide)

theorem PlainText.slug_eq (h : PlainText p v) : slug p v = slugify p v := by
  have hletters : ∀ c ∈ core p v, p.chars.isAlnum c = true →
      slugifyLower p c = p.chars.lower c ∧ ∀ d ∈ p.chars.lower c, p.chars.isAlnum d = true := by
    intro c hc halnum
    have hall := h.letters c (mem_of_mem_strip hc) halnum
    refine ⟨?_, hall⟩
    rw [slugifyLower, List.map_congr_left fun d hd => slugify_char_of_alnum (hall d hd),
      List.map_id']
  have hsqueeze : squeeze '-' ((core p v).flatMap (slugChar p)) =
      squeeze '-' ((core p v).flatMap (slugifyLower p)) := by
    refine squeeze_flat_map_congr fun c hc rest => ?_
    cases halnum : p.chars.isAlnum c with
    | true => rw [(hletters c hc halnum).1, slugChar, if_pos halnum]
    | false =>
        rw [slugChar, if_neg (by simp [halnum])]
        rcases slugify_lower_not_alnum halnum with ⟨hedge, hself⟩ | ⟨-, hrun⟩
        · have hother := h.inner c hc
          have hhyphen : c = '-' := by simpa [isSlugEdge, hother] using hedge
          rw [slugifyLower, hself, hhyphen]
        · exact (squeeze_run (slugify_lower_ne_nil c) hrun rest).symm
  obtain ⟨hhead, hlast⟩ := core_ends p v
  rw [slug_eq_core, slugify_eq_core h.sigma, hsqueeze, strip_eq_self]
  · intro d hd
    cases hcore : core p v with
    | nil =>
        rw [hcore] at hd
        cases hd
    | cons c text =>
        have hc := hhead c (by rw [hcore]; rfl)
        obtain ⟨hlower, hall⟩ := hletters c (by rw [hcore]; exact List.mem_cons_self) hc
        obtain ⟨e, others, heq⟩ := List.exists_cons_of_ne_nil (p.chars.lower_ne_nil c)
        have he := hall e (by rw [heq]; exact List.mem_cons_self)
        rw [hcore, List.flatMap_cons, hlower, heq, List.cons_append,
          squeeze_cons_of_ne (ne_hyphen_of_alnum he)] at hd
        rw [← Option.some.inj hd]
        exact edge_of_alnum he
  · intro d hd
    rcases (core p v).eq_nil_or_concat with hcore | ⟨text, c, hcore⟩
    · rw [hcore] at hd
      cases hd
    · rw [List.concat_eq_append] at hcore
      have hc := hlast c (by rw [hcore]; simp)
      obtain ⟨hlower, hall⟩ := hletters c (by rw [hcore]; simp) hc
      obtain ⟨others, e, heq⟩ :=
        (p.chars.lower c).eq_nil_or_concat.resolve_left (p.chars.lower_ne_nil c)
      rw [List.concat_eq_append] at heq
      have he := hall e (by rw [heq]; simp)
      rw [hcore, List.flatMap_append, List.flatMap_singleton, hlower, heq, ← List.append_assoc,
        squeeze_append_cons (ne_hyphen_of_alnum he)] at hd
      have hsame : e = d := by simpa [squeeze] using hd
      rw [← hsame]
      exact edge_of_alnum he

theorem or_else_to_list {text : List Char} (default : String) (hne : text ≠ []) :
    (orElse (String.ofList text) default).toList = text := by
  rw [or_else_of_ne, String.toList_ofList]
  intro hempty
  rw [← String.toList_inj, String.toList_ofList] at hempty
  exact hne hempty

theorem slug_to_list_core (hne : core p v ≠ []) :
    (slug p v).toList = squeeze '-' ((core p v).flatMap (slugChar p)) := by
  obtain ⟨c, text, hcore⟩ := List.exists_cons_of_ne_nil hne
  have hc := (core_ends p v).1 c (by rw [hcore]; rfl)
  obtain ⟨d, hd⟩ := List.exists_mem_of_ne_nil _ (p.chars.lower_ne_nil c)
  have hhyphen : d ≠ '-' := fun h => lower_free (by decide) (by decide) hc (h ▸ hd)
  rw [slug_eq_core]
  refine or_else_to_list _ (List.ne_nil_of_mem (mem_squeeze_of_ne (c := d) ?_ hhyphen))
  rw [hcore, List.flatMap_cons, slugChar, if_pos hc]
  exact List.mem_append_left _ hd

/-- A slug of `manifest.py` has letters, digits, and the three edge characters. -/
theorem slugify_char (h : c ∈ (slugify p v).toList) :
    p.chars.isAlnum c = true ∨ isSlugEdge c = true := by
  rw [slugify_eq, orElse] at h
  split at h
  · have hdefault : ∀ c ∈ "unnamed".toList, c.toNat < 128 ∧ c.isAlphanum = true :=
      List.all_iff_forall_prop.mp (by decide)
    obtain ⟨hascii, halnum⟩ := hdefault c h
    exact .inl ((p.chars.isAlnum_ascii c hascii).trans halnum)
  · rw [String.toList_ofList] at h
    obtain ⟨d, -, rfl⟩ := List.mem_map.mp (mem_squeeze (mem_of_mem_strip h))
    cases hd : p.chars.isAlnum d with
    | true => exact .inl (by rw [slugify_char_of_alnum hd, hd])
    | false => exact .inr (edge_of_not_alnum hd)

theorem letters_of_slug_eq (h : slug p v = slugify p v) (hc : c ∈ v.toList)
    (halnum : p.chars.isAlnum c = true) (hd : d ∈ p.chars.lower c) : p.chars.isAlnum d = true := by
  have hfree : ∀ s ∈ ['-', '.', '_'], d ≠ s := by
    intro s hs heq
    have hsym : ∀ s ∈ ['-', '.', '_'], s.toNat < 128 ∧ s.isAlphanum = false :=
      List.all_iff_forall_prop.mp (by decide)
    exact lower_free (hsym s hs).1 (hsym s hs).2 halnum (heq ▸ hd)
  have hcore := mem_core hc halnum
  have hslug : d ∈ (slug p v).toList := by
    rw [slug_to_list_core (List.ne_nil_of_mem hcore)]
    refine mem_squeeze_of_ne (List.mem_flatMap.mpr ⟨c, hcore, ?_⟩) (hfree '-' (by decide))
    rw [slugChar, if_pos halnum]
    exact hd
  rw [h] at hslug
  refine (slugify_char hslug).resolve_right fun hedge => ?_
  simp [isSlugEdge, hfree] at hedge

theorem slug_letters (hne : core p v ≠ []) :
    (slug p v).toList.filter p.chars.isAlnum =
      ((p.stripSpace v).toList.flatMap p.chars.lower).filter p.chars.isAlnum := by
  have houter : ∀ test : Char → Bool, (∀ c, test c = true → p.chars.isAlnum c = false) →
      ((strip test v.toList).flatMap p.chars.lower).filter p.chars.isAlnum =
        (v.toList.flatMap p.chars.lower).filter p.chars.isAlnum := by
    intro test htest
    obtain ⟨left, right, heq, hleft, hright⟩ := strip_spec test v.toList
    have hnone : ∀ part : List Char, (∀ c ∈ part, test c = true) →
        (part.flatMap p.chars.lower).filter p.chars.isAlnum = [] := by
      intro part hpart
      rw [List.filter_eq_nil_iff]
      intro d hd
      obtain ⟨c, hc, hd⟩ := List.mem_flatMap.mp hd
      simp [p.chars.lower_not_alnum c (htest c (hpart c hc)) d hd]
    conv_rhs => rw [heq]
    simp [hnone left hleft, hnone right hright]
  have hhyphen : p.chars.isAlnum '-' = false := slug_edge_not_alnum (by decide)
  have hchars : ∀ text : List Char, (text.flatMap (slugChar p)).filter p.chars.isAlnum =
      (text.flatMap p.chars.lower).filter p.chars.isAlnum := by
    intro text
    induction text with
    | nil => rfl
    | cons c text ih =>
        rw [List.flatMap_cons, List.flatMap_cons, List.filter_append, List.filter_append, ih]
        congr 1
        unfold slugChar
        split
        · rfl
        · rename_i hc
          rw [List.filter_cons_of_neg (by simp [hhyphen]), List.filter_nil, eq_comm,
            List.filter_eq_nil_iff]
          intro d hd
          simp [p.chars.lower_not_alnum c (by simpa using hc) d hd]
  rw [slug_to_list_core hne, filter_squeeze hhyphen, hchars, Runtime.stripSpace,
    String.toList_ofList, houter p.chars.isSpace p.chars.isAlnum_of_space]
  exact houter (!p.chars.isAlnum ·) fun c hc => by simpa using hc

/-- The letters of a slug of `manifest.py` are those of the lower case of the text. -/
theorem slugify_letters
    (hne : (p.chars.lowerFrom [] (p.stripSpace v).toList).filter p.chars.isAlnum ≠ []) :
    (slugify p v).toList.filter p.chars.isAlnum =
      (p.chars.lowerFrom [] (p.stripSpace v).toList).filter p.chars.isAlnum := by
  have hmap : ∀ text : List Char, (text.map (slugifyChar p)).filter p.chars.isAlnum =
      text.filter p.chars.isAlnum := by
    intro text
    induction text with
    | nil => rfl
    | cons c text ih =>
        rw [List.map_cons, List.filter_cons, List.filter_cons, ih]
        cases hc : p.chars.isAlnum c with
        | true => rw [slugify_char_of_alnum hc, hc]
        | false =>
            rw [slug_edge_not_alnum (edge_of_not_alnum hc), if_neg Bool.false_ne_true,
              if_neg Bool.false_ne_true]
  have hfilter := filter_strip (fun d => slug_edge_not_alnum (p := p) (c := d)) (squeeze '-'
    ((p.chars.lowerFrom [] (p.stripSpace v).toList).map (slugifyChar p)))
  rw [filter_squeeze (slug_edge_not_alnum (by decide)), hmap] at hfilter
  rw [slugify_eq, or_else_to_list, hfilter]
  intro hempty
  rw [hempty] at hfilter
  exact hne hfilter.symm

theorem sigma_of_slug_eq (h : slug p v = slugify p v) (hsigma : p.chars.isAlnum 'Σ' = true) :
    p.chars.NoFinalSigma [] (p.stripSpace v).toList := by
  intro front back htext
  have hmem : 'Σ' ∈ (p.stripSpace v).toList := by simp [htext]
  have hcore : core p v ≠ [] := by
    rw [Runtime.stripSpace, String.toList_ofList] at hmem
    exact List.ne_nil_of_mem (mem_core (mem_of_mem_strip hmem) hsigma)
  have hsmall : p.chars.isAlnum 'σ' = true ∧ p.chars.isAlnum 'ς' = true :=
    ⟨p.chars.isAlnum_sigma.1.trans hsigma, p.chars.isAlnum_sigma.2.trans hsigma⟩
  have hne : (p.chars.lowerFrom [] (p.stripSpace v).toList).filter p.chars.isAlnum ≠ [] := by
    rcases CharTable.lower_from_covers p.chars hmem [] with hall | ⟨-, hend⟩
    · have hletter := hall 'σ' (by simp [p.chars.lower_sigma hsigma])
      exact List.ne_nil_of_mem (List.mem_filter.mpr ⟨hletter, hsmall.1⟩)
    · exact List.ne_nil_of_mem (List.mem_filter.mpr ⟨hend, hsmall.2⟩)
  have hletters := (slugify_letters hne).symm.trans ((congrArg
    (fun text : String => text.toList.filter p.chars.isAlnum) h).symm.trans (slug_letters hcore))
  exact CharTable.no_final_of_letters hsigma hletters front back htext

theorem inner_of_slug_eq (h : slug p v = slugify p v) (hc : c ∈ core p v)
    (hedge : c = '.' ∨ c = '_') : False := by
  have hsym : c.toNat < 128 ∧ c.isAlphanum = false ∧ c ≠ '-' ∧ isSlugEdge c = true := by
    rcases hedge with rfl | rfl <;> decide
  obtain ⟨hascii, hnot, hhyphen, hedge⟩ := hsym
  have halnum : p.chars.isAlnum c = false := slug_edge_not_alnum hedge
  have hself : slugifyLower p c = [c] := by
    rcases slugify_lower_not_alnum halnum with ⟨-, hself⟩ | ⟨hother, -⟩
    · exact hself
    · rw [hedge] at hother
      cases hother
  -- The character lies between the first and the last letter, so it is neither stripped nor
  -- squeezed.
  have hkept : ∀ text : List Char, (∃ d ∈ text, p.chars.isAlnum d = true ∧ d ∈ v.toList) →
      ∃ d ∈ squeeze '-' (text.flatMap (slugifyLower p)), isSlugEdge d = false := by
    rintro text ⟨d, hd, hdalnum, hdmem⟩
    obtain ⟨e, he⟩ := List.exists_mem_of_ne_nil _ (p.chars.lower_ne_nil d)
    have healnum := letters_of_slug_eq h hdmem hdalnum he
    refine ⟨e, mem_squeeze_of_ne (List.mem_flatMap.mpr ⟨d, hd, ?_⟩) (ne_hyphen_of_alnum healnum),
      edge_of_alnum healnum⟩
    exact List.mem_map.mpr ⟨e, he, slugify_char_of_alnum healnum⟩
  obtain ⟨hhead, hlast⟩ := core_ends p v
  obtain ⟨front, back, hcut⟩ := List.append_of_mem hc
  have hfront : ∃ d ∈ front, p.chars.isAlnum d = true ∧ d ∈ v.toList := by
    cases front with
    | nil =>
        have hfirst := hhead c (by rw [hcut]; rfl)
        rw [halnum] at hfirst
        cases hfirst
    | cons d front =>
        refine ⟨d, List.mem_cons_self, hhead d (by rw [hcut]; rfl), mem_of_mem_strip (?_ : d ∈ core p v)⟩
        rw [hcut]
        exact List.mem_append_left _ List.mem_cons_self
  have hback : ∃ d ∈ back, p.chars.isAlnum d = true ∧ d ∈ v.toList := by
    rcases back.eq_nil_or_concat with rfl | ⟨back, d, rfl⟩
    · have hend := hlast c (by rw [hcut]; simp)
      rw [halnum] at hend
      cases hend
    · rw [List.concat_eq_append] at hcut ⊢
      have hend : d ∈ (core p v).getLast? := by
        rw [hcut, ← List.cons_append, ← List.append_assoc, List.getLast?_concat]
        rfl
      refine ⟨d, by simp, hlast d hend, mem_of_mem_strip (?_ : d ∈ core p v)⟩
      rw [hcut]
      simp
  have hslugify : c ∈ (slugify p v).toList := by
    have hmem : c ∈ strip isSlugEdge (squeeze '-' ((core p v).flatMap (slugifyLower p))) := by
      rw [hcut, List.flatMap_append, List.flatMap_cons, hself, List.singleton_append,
        squeeze_append_cons hhyphen, List.append_cons,
        strip_between (hkept front hfront) (hkept back hback)]
      simp
    rw [slugify_eq_core fun hsigma => sigma_of_slug_eq h hsigma,
      or_else_to_list _ (List.ne_nil_of_mem hmem)]
    exact hmem
  rw [← h] at hslugify
  exact slug_free hascii hnot hhyphen hslugify

theorem slug_eq_slugify_iff : slug p v = slugify p v ↔ PlainText p v := by
  constructor
  · intro h
    refine ⟨fun c hc halnum d hd => letters_of_slug_eq h hc halnum hd, sigma_of_slug_eq h,
      fun c hc => ⟨?_, ?_⟩⟩
    · exact fun hdot => inner_of_slug_eq h hc (.inl hdot)
    · exact fun hunderscore => inner_of_slug_eq h hc (.inr hunderscore)
  · intro h
    exact h.slug_eq

/-- The characters of a version segment before it falls back to the default. -/
def versionCore (p : Platform) (v : String) : List Char :=
  strip (fun c => decide (c = '.') || decide (c = '-')) (v.toList.flatMap (spelledVersionChar p))

theorem version_segment_eq (hv : v ≠ "") :
    versionSegment p v = orElse (String.ofList (versionCore p v)) "0.1.0" := by
  show orElse (String.ofList (strip (fun c => decide (c = '.') || decide (c = '-'))
    ((orElse v "0.1.0").toList.flatMap (spelledVersionChar p)))) "0.1.0" = _
  rw [or_else_of_ne _ hv]
  rfl

theorem spelled_version_char_of_plain (h : c = '.' ∨ c = '-' ∨
    (p.chars.isAlnum c = true ∧ p.chars.lower c = [c])) : spelledVersionChar p c = [c] := by
  rcases h with rfl | rfl | ⟨halnum, hlower⟩
  · rw [spelledVersionChar, if_pos (by simp), p.chars.lower_ascii _ (by decide)]
    rfl
  · rw [spelledVersionChar, if_pos (by simp), p.chars.lower_ascii _ (by decide)]
    rfl
  · rw [spelledVersionChar, if_pos (by simp [halnum]), hlower]

theorem plain_default_version (p : Platform) : PlainVersion p "0.1.0" := by
  refine ⟨by decide, fun c hc => ?_, ?_, ?_⟩
  · have hplain : ∀ c ∈ "0.1.0".toList, c = '.' ∨ (c.toNat < 128 ∧ c.isAlphanum = true ∧
      c.toLower = c) := List.all_iff_forall_prop.mp (by decide)
    refine (hplain c hc).imp_right fun ⟨hascii, halnum, hlower⟩ => .inr ⟨?_, ?_⟩
    · exact (p.chars.isAlnum_ascii c hascii).trans halnum
    · rw [p.chars.lower_ascii c hascii, hlower]
  · rintro c ⟨⟩
    decide
  · rintro c ⟨⟩
    decide

/-- Each character that a version segment keeps of a version is its own lower case. -/
theorem lower_of_mem_version_core (h : c ∈ versionCore p v) : p.chars.lower c = [c] := by
  obtain ⟨d, -, hc⟩ := List.mem_flatMap.mp (mem_of_mem_strip h)
  unfold spelledVersionChar at hc
  split at hc
  · exact p.chars.lower_lower d c hc
  · rw [List.mem_singleton.mp hc, p.chars.lower_ascii _ (by decide)]
    rfl

theorem version_segment_eq_self_iff : versionSegment p v = v ↔ PlainVersion p v := by
  constructor
  · intro h
    have hne : v ≠ "" := h ▸ or_else_ne _ (by decide)
    rw [version_segment_eq hne, orElse] at h
    split at h
    · rw [← h]
      exact plain_default_version p
    · have hlist : versionCore p v = v.toList := by
        rw [← h, String.toList_ofList, h]
      have hlower : ∀ c ∈ v.toList, p.chars.lower c = [c] := fun c hc =>
        lower_of_mem_version_core (hlist ▸ hc)
      have hblock : ∀ c ∈ v.toList, spelledVersionChar p c = [c] ∨
          spelledVersionChar p c = ['-'] := by
        intro c hc
        unfold spelledVersionChar
        split
        · exact .inl (hlower c hc)
        · exact .inr rfl
      -- No character became longer, so nothing was stripped and each stands for itself.
      have hlength : ∀ text : List Char, (∀ c ∈ text, c ∈ v.toList) →
          (text.flatMap (spelledVersionChar p)).length = text.length := by
        intro text htext
        induction text with
        | nil => rfl
        | cons c text ih =>
            obtain ⟨hc, htext⟩ := List.forall_mem_cons.mp htext
            rw [List.flatMap_cons, List.length_append, ih htext]
            rcases hblock c hc with hself | hhyphen
            · rw [hself, List.length_singleton, List.length_cons, Nat.add_comm]
            · rw [hhyphen, List.length_singleton, List.length_cons, Nat.add_comm]
      have hwhole : v.toList.flatMap (spelledVersionChar p) = v.toList := by
        have hall := hlength v.toList fun c hc => hc
        have hstrip := strip_eq_of_length (((congrArg List.length hlist).trans hall.symm :
          (versionCore p v).length = _))
        exact hstrip.symm.trans hlist
      have hself : ∀ text : List Char, (∀ c ∈ text, c ∈ v.toList) →
          text.flatMap (spelledVersionChar p) = text → ∀ c ∈ text, spelledVersionChar p c = [c] := by
        intro text htext hsame
        induction text with
        | nil => simp
        | cons c text ih =>
            obtain ⟨hc, htext⟩ := List.forall_mem_cons.mp htext
            rw [List.flatMap_cons] at hsame
            have hone : spelledVersionChar p c = [c] := by
              rcases hblock c hc with hself | hhyphen
              · exact hself
              · rw [hhyphen] at hsame ⊢
                rw [(List.cons.inj hsame).1]
            rw [hone] at hsame
            exact List.forall_mem_cons.mpr ⟨hone, ih htext (List.cons.inj hsame).2⟩
      obtain ⟨hfirst, hlast⟩ := strip_ends (fun c => decide (c = '.') || decide (c = '-'))
        (v.toList.flatMap (spelledVersionChar p))
      rw [show strip _ (v.toList.flatMap (spelledVersionChar p)) = v.toList from hlist] at hfirst hlast
      refine ⟨hne, fun c hc => ?_, fun c hc => by simpa using hfirst c hc,
        fun c hc => by simpa using hlast c hc⟩
      have hchar := hself v.toList (fun c hc => hc) hwhole c hc
      unfold spelledVersionChar at hchar
      split at hchar
      · rename_i hkeep
        simp only [Bool.or_eq_true, decide_eq_true_eq] at hkeep
        rcases hkeep with (halnum | hdot) | hhyphen
        · exact .inr (.inr ⟨halnum, hchar⟩)
        · exact .inl hdot
        · exact .inr (.inl hhyphen)
      · exact .inr (.inl (List.singleton_inj.mp hchar).symm)
  · intro h
    rw [version_segment_eq h.ne]
    have hself : v.toList.flatMap (spelledVersionChar p) = v.toList := by
      rw [List.flatMap_congr fun c hc => spelled_version_char_of_plain (h.chars c hc),
        List.flatMap_singleton']
    have hcore : versionCore p v = v.toList := by
      rw [versionCore, hself]
      refine strip_eq_self (fun c hc => ?_) (fun c hc => ?_)
      · simp [h.first c hc]
      · simp [h.last c hc]
    rw [hcore, String.ofList_toList, or_else_of_ne _ h.ne]

theorem not_space_of_plain (h : c = '.' ∨ c = '-' ∨
    (p.chars.isAlnum c = true ∧ p.chars.lower c = [c])) : p.chars.isSpace c = false := by
  rcases h with rfl | rfl | ⟨halnum, -⟩
  · rw [p.chars.isSpace_ascii _ (by decide)]
    decide
  · rw [p.chars.isSpace_ascii _ (by decide)]
    decide
  · rw [Bool.eq_false_iff]
    intro hspace
    rw [p.chars.isAlnum_of_space c hspace] at halnum
    cases halnum

/-- A plain version is spelled by discovery as it is, but for runs of hyphens. -/
theorem PlainVersion.slugify_eq (h : PlainVersion p v) :
    slugify p v = orElse (String.ofList (strip isSlugEdge (squeeze '-' v.toList))) "unnamed" := by
  have hspace : p.stripSpace v = v := by
    have hstay : ∀ c ∈ v.toList, p.chars.isSpace c = false := fun c hc =>
      not_space_of_plain (h.chars c hc)
    rw [Runtime.stripSpace, strip_eq_self, String.ofList_toList]
    · exact fun c hc => hstay c (List.mem_of_mem_head? hc)
    · exact fun c hc => hstay c (List.mem_of_mem_getLast? hc)
  have hsigma : p.chars.NoFinalSigma [] v.toList := by
    intro front back htext
    -- A capital sigma is not its own lower case.
    rcases h.chars 'Σ' (by simp [htext]) with hbad | hbad | ⟨halnum, hlower⟩
    · exact absurd hbad (by decide)
    · exact absurd hbad (by decide)
    · rw [p.chars.lower_sigma halnum] at hlower
      exact absurd hlower (by decide)
  have hmap : (p.chars.lowerFrom [] v.toList).map (slugifyChar p) = v.toList := by
    rw [CharTable.lower_from_of_no_final hsigma, List.map_flatMap]
    refine (List.flatMap_congr fun c hc => ?_).trans (List.flatMap_singleton' _)
    rcases h.chars c hc with rfl | rfl | ⟨halnum, hlower⟩
    · rw [p.chars.lower_ascii _ (by decide)]
      simp [slugifyChar]
    · rw [p.chars.lower_ascii _ (by decide)]
      simp [slugifyChar]
    · rw [hlower, List.map_singleton, slugify_char_of_alnum halnum]
  rw [Capmesh.slugify_eq, hspace, hmap]

theorem PlainVersion.edges (h : PlainVersion p v) :
    (∀ c ∈ v.toList.head?, isSlugEdge c = false) ∧ ∀ c ∈ v.toList.getLast?, isSlugEdge c = false := by
  have hedge : ∀ c ∈ v.toList, c ≠ '.' ∧ c ≠ '-' → isSlugEdge c = false := by
    intro c hc hne
    have halnum := ((h.chars c hc).resolve_left hne.1).resolve_left hne.2
    exact edge_of_alnum halnum.1
  exact ⟨fun c hc => hedge c (List.mem_of_mem_head? hc) (h.first c hc),
    fun c hc => hedge c (List.mem_of_mem_getLast? hc) (h.last c hc)⟩

/-- Discovery spells a plain version as it is exactly when no two hyphens follow each other. -/
theorem PlainVersion.slugify_eq_self_iff (h : PlainVersion p v) :
    slugify p v = v ↔ ¬ ['-', '-'] <:+: v.toList := by
  rw [h.slugify_eq, ← squeeze_eq_self_iff]
  constructor
  · intro hself
    have hlong : v.toList.length ≤ (squeeze '-' v.toList).length := by
      rw [orElse] at hself
      split at hself
      · rw [← hself]
        decide
      · have hlist := congrArg (fun text : String => text.toList.length) hself
        simp only [String.toList_ofList] at hlist
        rw [← hlist]
        exact length_strip_le _ _
    exact (squeeze_sublist '-' v.toList).eq_of_length_le hlong
  · intro hsqueeze
    rw [hsqueeze, strip_eq_self h.edges.1 h.edges.2, String.ofList_toList, or_else_of_ne _ h.ne]

theorem slugify_free (p : Platform) (v : String) : '@' ∉ (slugify p v).toList := by
  intro hmem
  rcases slugify_char hmem with halnum | hedge
  · rw [p.chars.isAlnum_ascii _ (by decide)] at halnum
    exact absurd halnum (by decide)
  · exact absurd hedge (by decide)

theorem promoted_tail_to_list (p : Platform) (cap : Capability) :
    (promotedTail p cap).toList = cap.capabilityType.text.toList ++ '/' ::
      ((slugify p (optOr cap.plugin "global")).toList ++ '.' :: (slugify p cap.name).toList ++ '@' ::
        cap.version.toList) := by
  simp [promotedTail]

theorem promoted_tail_eq_iff : promotedTail p cap = capabilityCanonicalTail p cap ↔
    PlainText p (optOr cap.plugin "global") ∧ PlainText p cap.name ∧ PlainVersion p cap.version := by
  rw [← slug_eq_slugify_iff, ← slug_eq_slugify_iff, ← version_segment_eq_self_iff]
  constructor
  · intro h
    have hlist := congrArg String.toList h
    rw [promoted_tail_to_list, canonical_tail_to_list] at hlist
    have htail := (List.cons.inj (List.append_cancel_left hlist)).2
    rw [← List.cons_append, ← List.append_assoc] at htail
    have hat : ∀ v, '@' ∉ (slug p v).toList := fun v =>
      slug_free (by decide) (by decide) (by decide)
    have hdot : ∀ v, '.' ∉ (slug p v).toList := fun v =>
      slug_free (by decide) (by decide) (by decide)
    obtain ⟨hname, hversion⟩ := append_cons_inj_of_not_mem
      (by simp [slugify_free]) (by simp [hat]) htail
    obtain ⟨hplugin, -, hname⟩ := (List.append_cons_inj_of_notMem (hdot _) (hdot _)).mp hname.symm
    exact ⟨String.toList_inj.mp hplugin, String.toList_inj.mp hname,
      (String.toList_inj.mp hversion).symm⟩
  · rintro ⟨hplugin, hname, hversion⟩
    rw [← String.toList_inj, promoted_tail_to_list, canonical_tail_to_list, hplugin, hname, hversion]
    simp

/-- A plugin is spelled like the sentinel of unowned capabilities when its one word is `global`. -/
theorem slug_eq_global_iff : slug p v = "global" ↔ spelledWords p v = ["global".toList] := by
  rw [← String.toList_inj, slug_to_list]
  constructor
  · intro h
    refine intercalate_inj (fun word hword => ?_) (by decide) (h : _ = ['-'].intercalate ["global".toList])
    obtain ⟨hne, hascii⟩ := mem_spelled_words hword
    exact ⟨hne, fun hyphen => absurd (hascii '-' hyphen (by decide)) (by decide)⟩
  · intro h
    rw [h]
    rfl

/-- Over a promoted tail that agrees, discovery's tail agrees exactly when the version has no two
hyphens in a row and the plugin is not spelled like the sentinel. -/
theorem manifest_tail_eq_iff (hplugin : PlainText p (optOr cap.plugin "global"))
    (hname : PlainText p cap.name) (hversion : PlainVersion p cap.version) :
    manifestTail p cap fallback = capabilityCanonicalTail p cap ↔
      ¬ ['-', '-'] <:+: cap.version.toList ∧
        (spelledWords p (optOr cap.plugin "global") ≠ ["global".toList] ∨ fallback = "") := by
  have hcanonical := canonical_tail_to_list p cap
  rw [hplugin.slug_eq, hname.slug_eq, version_segment_eq_self_iff.mpr hversion] at hcanonical
  rw [← String.toList_inj, hcanonical, ← hversion.slugify_eq_self_iff, Ne, ← slug_eq_global_iff,
    hplugin.slug_eq, manifestTail, capabilityUri, or_else_of_ne _ hversion.ne]
  by_cases hsentinel : slugify p (optOr cap.plugin "global") = "global" ∧ fallback ≠ ""
  · rw [if_pos hsentinel]
    dsimp only
    rw [remove_prefix_append]
    constructor
    · intro h
      -- Behind the name discovery writes a hyphen, the canonical tail an at sign.
      simp at h
    · rintro ⟨-, hother⟩
      exact absurd hsentinel.1 (hother.resolve_right hsentinel.2)
  · rw [if_neg hsentinel]
    dsimp only
    rw [remove_prefix_append]
    have hother : ¬ slugify p (optOr cap.plugin "global") = "global" ∨ fallback = "" := by
      rw [not_and_or, not_not] at hsentinel
      exact hsentinel
    simp [hother, String.toList_inj]

/-- **The address composers agree exactly when the plugin and the name are plain texts, the version
is plain, and for an owned capability the version has no two hyphens in a row and the plugin is
not spelled like the sentinel.** -/
theorem composers_agree_iff (p : Platform) (cap : Capability) (fallback : String) :
    ComposersAgree p cap fallback ↔
      PlainText p (optOr cap.plugin "global") ∧ PlainText p cap.name ∧ PlainVersion p cap.version ∧
        (present cap.plugin = true → ¬ ['-', '-'] <:+: cap.version.toList ∧
          (spelledWords p (optOr cap.plugin "global") ≠ ["global".toList] ∨ fallback = "")) := by
  rw [ComposersAgree, promoted_tail_eq_iff]
  constructor
  · rintro ⟨⟨hplugin, hname, hversion⟩, howned⟩
    exact ⟨hplugin, hname, hversion, fun hpresent =>
      (manifest_tail_eq_iff hplugin hname hversion).mp (howned hpresent)⟩
  · rintro ⟨hplugin, hname, hversion, howned⟩
    exact ⟨⟨hplugin, hname, hversion⟩, fun hpresent =>
      (manifest_tail_eq_iff hplugin hname hversion).mpr (howned hpresent)⟩

/-- A name with a dot in it: promotion keeps the dot, the placed address writes a hyphen. -/
theorem dotted_name_composed_twice : ¬ ∀ (p : Platform) (cap : Capability) (fallback : String),
    ComposersAgree p cap fallback := by
  intro h
  have htail := (h Platform.sample { notesSkill "sha256:0a" with name := "release.notes" } "").1
  revert htail
  decide +kernel

end

end Capmesh
