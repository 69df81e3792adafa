import Capmesh.Directory.TailnetSync
import Capmesh.Python.Words

/-!
# Names of tailnet groups

`tag_to_group` on all names. It takes white space off before colons, so that a colon may have kept
white space in place, and it returns a name that carries the tenant as it is. `tag_to_group_eq`
says what it returns, and `tag_to_group_iff` for which names that is well formed and returned
unchanged by a second call. A tenant of ordinary characters is always kept.
-/

namespace Capmesh

open Python

/-- The tenant and its colon. -/
def tenantPrefix (p : Platform) : List Char := p.defaultTenant.toList ++ [':']

/-- A name without `tag:` or `group:` at its front. -/
def untagged (name : List Char) : List Char :=
  if "tag:".toList.isPrefixOf name then name.drop 4
  else if "group:".toList.isPrefixOf name then name.drop 6
  else name

/-- A name without the white space around it, its tag, and the white space and then the colons
around what is left. -/
def bareName (p : Platform) (name : List Char) : List Char :=
  strip (· = ':') (strip p.chars.isSpace (untagged (strip p.chars.isSpace name)))

/-- The name under the tenant that a bare name stands for. -/
def underTenant (p : Platform) (bare : List Char) : List Char :=
  if bare = [] then "tailnet".toList
  else if (tenantPrefix p).isPrefixOf bare then bare.drop (tenantPrefix p).length
  else bare

/-- A name that has neither white space nor colons around it. -/
structure Trimmed (p : Platform) (name : List Char) : Prop where
  nonempty : name ≠ []
  spaces : strip p.chars.isSpace name = name
  colons : strip (· = ':') name = name

/-- The tenant and a trimmed name. -/
def WellNamed (p : Platform) (group : String) : Prop :=
  ∃ name, group.toList = tenantPrefix p ++ name ∧ Trimmed p name

/-- Baring a name of the tenant takes nothing off, or the tenant as a whole. -/
def KeepsTenant (p : Platform) (name : List Char) : Prop :=
  bareName p (tenantPrefix p ++ name) = tenantPrefix p ++ name ∨
    bareName p (tenantPrefix p ++ name) = name ∧ ¬ tenantPrefix p <+: name

/-- A tenant that is neither empty nor a tag, without white space and colons. -/
structure PlainTenant (p : Platform) : Prop where
  nonempty : p.defaultTenant.toList ≠ []
  plain : ∀ c ∈ p.defaultTenant.toList, p.chars.isSpace c = false ∧ c ≠ ':'
  untagged : p.defaultTenant ≠ "tag" ∧ p.defaultTenant ≠ "group"

/-- A bare name ends in no white space, and begins, behind the tenant, with neither white space nor
a colon. -/
def GroupFits (p : Platform) (bare : List Char) : Prop :=
  bare = [] ∨ (∀ c ∈ bare.getLast?, p.chars.isSpace c = false) ∧
    ∀ c ∈ (underTenant p bare).head?, p.chars.isSpace c = false ∧ c ≠ ':'

section

variable {p : Platform} {name : List Char}

theorem remove_prefix_to_list (text start : String) : (removePrefix text start).toList =
    if start.toList.isPrefixOf text.toList then text.toList.drop start.toList.length
    else text.toList := by
  unfold removePrefix startsWith
  split
  · rw [String.toList_ofList]
  · rfl

/-- What `tag_to_group` returns. -/
theorem tag_to_group_eq (p : Platform) (tsName : String) : (tagToGroup p tsName).toList =
    tenantPrefix p ++ underTenant p (bareName p tsName.toList) := by
  have hbare : ∀ text : String, (if startsWith text "tag:" then removePrefix text "tag:"
      else removePrefix text "group:").toList = untagged text.toList := by
    intro text
    unfold untagged startsWith
    split
    · rename_i htag
      rw [remove_prefix_to_list, if_pos htag]
      rfl
    · rw [remove_prefix_to_list]
      rfl
  have hempty : ∀ text : List Char, String.ofList text = "" ↔ text = [] := by
    intro text
    rw [← String.toList_inj, String.toList_ofList]
    rfl
  have hblank : strip p.chars.isSpace tsName.toList = [] → bareName p tsName.toList = [] := by
    intro hnone
    rw [bareName, hnone]
    rfl
  have hname : String.ofList (strip (· = ':') (p.stripSpace (if startsWith (p.stripSpace tsName)
      "tag:" then removePrefix (p.stripSpace tsName) "tag:"
        else removePrefix (p.stripSpace tsName) "group:")).toList) =
      String.ofList (bareName p tsName.toList) := by
    unfold Runtime.stripSpace bareName
    rw [String.toList_ofList, hbare, String.toList_ofList]
  unfold tagToGroup
  dsimp only
  rw [hname]
  have htrimmed : p.stripSpace tsName = "" ↔ strip p.chars.isSpace tsName.toList = [] := hempty _
  by_cases hnone : bareName p tsName.toList = []
  · have hblanks : p.stripSpace tsName = "" ∨ String.ofList (bareName p tsName.toList) = "" :=
      .inr ((hempty _).mpr hnone)
    rw [underTenant, if_pos hnone, if_pos (by simpa using hblanks), String.toList_append]
    simp [tenantPrefix]
  · have hsome : ¬ (p.stripSpace tsName = "" ∨ String.ofList (bareName p tsName.toList) = "") := by
      rintro (hblanks | hblanks)
      · exact hnone (hblank (htrimmed.mp hblanks))
      · exact hnone ((hempty _).mp hblanks)
    rw [underTenant, if_neg hnone, if_neg (by simpa using hsome)]
    have hstarts : startsWith (String.ofList (bareName p tsName.toList)) (p.defaultTenant ++ ":") =
        (tenantPrefix p).isPrefixOf (bareName p tsName.toList) := by
      unfold startsWith tenantPrefix
      rw [String.toList_ofList, String.toList_append]
      rfl
    rw [hstarts]
    split
    · rename_i hprefix
      obtain ⟨rest, hrest⟩ := List.isPrefixOf_iff_prefix.mp hprefix
      rw [String.toList_ofList, ← hrest, List.drop_left]
    · simp [tenantPrefix]

/-- A name that ends neither in white space nor in a colon is not bared of its end. -/
theorem bare_name_ne (hname : Trimmed p name) (front : List Char) :
    bareName p (front ++ name) ≠ [] := by
  obtain ⟨start, last, rfl⟩ : ∃ start last, name = start ++ [last] :=
    ⟨_, _, (List.dropLast_append_getLast hname.nonempty).symm⟩
  have hspace : p.chars.isSpace last = false := by
    have hends := (strip_ends p.chars.isSpace (start ++ [last])).2
    rw [hname.spaces] at hends
    exact hends last (by simp)
  have hcolon : decide (last = ':') = false := by
    have hends := (strip_ends (fun c => decide (c = ':')) (start ++ [last])).2
    rw [hname.colons] at hends
    exact hends last (by simp)
  -- Stripping and untagging take the front of the text only.
  have hstripped : ∃ rest, strip p.chars.isSpace (front ++ (start ++ [last])) = rest ++ [last] := by
    refine ⟨(front ++ start).dropWhile p.chars.isSpace, ?_⟩
    rw [← List.append_assoc, strip, List.dropWhile_append]
    split
    · rename_i hnone
      rw [List.isEmpty_iff.mp hnone, List.dropWhile_cons_of_neg (by simp [hspace])]
      exact rstrip_append_cons hspace [] []
    · exact rstrip_append_cons hspace _ []
  obtain ⟨rest, hrest⟩ := hstripped
  have hlast : last ∈ untagged (rest ++ [last]) := by
    have hdrop : ∀ tag : List Char, tag.getLast? = some ':' → tag <+: rest ++ [last] →
        last ∈ (rest ++ [last]).drop tag.length := by
      rintro tag htag ⟨others, hothers⟩
      rw [← hothers, List.drop_left]
      cases others using List.reverseRecOn with
      | nil =>
          rw [List.append_nil] at hothers
          rw [hothers, List.getLast?_concat] at htag
          rw [Option.some.inj htag] at hcolon
          cases hcolon
      | append_singleton others final =>
          rw [← List.append_assoc] at hothers
          obtain ⟨-, hfinal⟩ := List.append_inj' hothers rfl
          rw [(List.cons.inj hfinal).1]
          simp
    unfold untagged
    split
    · rename_i htag
      exact hdrop "tag:".toList (by decide) (List.isPrefixOf_iff_prefix.mp htag)
    · split
      · rename_i htag
        exact hdrop "group:".toList (by decide) (List.isPrefixOf_iff_prefix.mp htag)
      · simp
  unfold bareName
  rw [hrest]
  exact List.ne_nil_of_mem (mem_strip_of_not (mem_strip_of_not hlast hspace) hcolon)

/-- A second call returns a trimmed name of the tenant unchanged exactly when baring it takes
nothing off, or the tenant as a whole. -/
theorem under_tenant_kept_iff (hname : Trimmed p name) :
    underTenant p (bareName p (tenantPrefix p ++ name)) = name ↔ KeepsTenant p name := by
  have hsome := bare_name_ne hname (tenantPrefix p)
  unfold underTenant KeepsTenant
  rw [if_neg hsome]
  split
  · rename_i hprefix
    obtain ⟨rest, hrest⟩ := List.isPrefixOf_iff_prefix.mp hprefix
    rw [← hrest, List.drop_left, List.append_cancel_left_eq]
    refine ⟨.inl, ?_⟩
    rintro (hsame | ⟨hall, hnot⟩)
    · exact hsame
    · exact absurd ⟨rest, hall⟩ hnot
  · rename_i hprefix
    rw [List.isPrefixOf_iff_prefix] at hprefix
    constructor
    · intro hall
      rw [hall] at hprefix ⊢
      exact .inr ⟨rfl, hprefix⟩
    · rintro (hsame | ⟨hall, -⟩)
      · rw [hsame] at hprefix
        exact absurd (List.prefix_append _ _) hprefix
      · exact hall

/-- A bare name that has no colons around it stands for a trimmed name exactly when it fits. -/
theorem trimmed_iff_fits {bare : List Char} (hbare : strip (· = ':') bare = bare) :
    Trimmed p (underTenant p bare) ↔ GroupFits p bare := by
  by_cases hnone : bare = []
  · refine iff_of_true ?_ (.inl hnone)
    rw [underTenant, if_pos hnone]
    have hspace : p.chars.isSpace 't' = false := by rw [p.chars.isSpace_ascii _ (by decide)]; rfl
    refine ⟨by decide, strip_eq_self ?_ ?_, by decide⟩
    · rintro c ⟨⟩
      exact hspace
    · rintro c ⟨⟩
      exact hspace
  · have hcolon := (strip_ends (fun c => decide (c = ':')) bare).2
    rw [hbare] at hcolon
    obtain ⟨front, hfront, hends⟩ : ∃ front, bare = front ++ underTenant p bare ∧
        (front = [] ∨ front.getLast? = some ':') := by
      unfold underTenant
      rw [if_neg hnone]
      split
      · rename_i hprefix
        obtain ⟨rest, hrest⟩ := List.isPrefixOf_iff_prefix.mp hprefix
        rw [← hrest, List.drop_left]
        exact ⟨_, rfl, .inr (by simp [tenantPrefix])⟩
      · exact ⟨[], rfl, .inl rfl⟩
    -- What follows the tenant is not empty, since the name does not end in a colon.
    have hsome : underTenant p bare ≠ [] := by
      intro hempty
      rw [hempty, List.append_nil] at hfront
      rcases hends with hends | hends
      · exact hnone (hfront.trans hends)
      · simpa using hcolon ':' (by rw [hfront, hends]; rfl)
    have hlast : bare.getLast? = (underTenant p bare).getLast? := by
      conv_lhs => rw [hfront]
      exact List.getLast?_append_of_ne_nil _ hsome
    constructor
    · intro h
      have hspaces := strip_ends p.chars.isSpace (underTenant p bare)
      have hcolons := (strip_ends (fun c => decide (c = ':')) (underTenant p bare)).1
      rw [h.spaces, ← hlast] at hspaces
      rw [h.colons] at hcolons
      exact .inr ⟨hspaces.2, fun c hc => ⟨hspaces.1 c hc, of_decide_eq_false (hcolons c hc)⟩⟩
    · intro h
      obtain ⟨hend, hfirst⟩ := h.resolve_left hnone
      rw [hlast] at hend hcolon
      exact ⟨hsome, strip_eq_self (fun c hc => (hfirst c hc).1) hend,
        strip_eq_self (fun c hc => decide_eq_false (hfirst c hc).2) hcolon⟩

/-- Nothing of a tag is taken off a plain tenant. -/
theorem untagged_plain_tenant (h : PlainTenant p) (name : List Char) :
    untagged (tenantPrefix p ++ name) = tenantPrefix p ++ name := by
  have htag : ∀ tag : String, ':' ∉ tag.toList → p.defaultTenant ≠ tag →
      ¬ (tag.toList ++ [':']).isPrefixOf (tenantPrefix p ++ name) = true := by
    intro tag hcolon hne hprefix
    obtain ⟨rest, hrest⟩ := List.isPrefixOf_iff_prefix.mp hprefix
    refine hne (String.toList_inj.mp ?_)
    have hapart : ∀ c ∈ tag.toList, decide (c ≠ ':') = true := by
      intro c hc
      refine decide_eq_true ?_
      rintro rfl
      exact hcolon hc
    have htake := congrArg (List.takeWhile (· ≠ ':')) hrest
    rw [tenantPrefix, List.append_assoc, List.append_assoc, List.takeWhile_append_of_pos hapart,
      List.takeWhile_append_of_pos (fun c hc => decide_eq_true (h.plain c hc).2)] at htake
    simpa using htake.symm
  have hfirst : ¬ "tag:".toList.isPrefixOf (tenantPrefix p ++ name) = true :=
    htag "tag" (by decide) h.untagged.1
  have hsecond : ¬ "group:".toList.isPrefixOf (tenantPrefix p ++ name) = true :=
    htag "group" (by decide) h.untagged.2
  rw [untagged, if_neg hfirst, if_neg hsecond]

theorem keeps_plain_tenant (h : PlainTenant p) (hname : Trimmed p name) : KeepsTenant p name := by
  have hkept : ∀ chars : Char → Bool, (∀ c ∈ p.defaultTenant.toList, chars c = false) →
      strip chars name = name →
      strip chars (tenantPrefix p ++ name) = tenantPrefix p ++ name := by
    intro chars htenant hstrip
    refine strip_eq_self (fun c hc => htenant c ?_) fun c hc => ?_
    · rw [tenantPrefix, List.append_assoc, List.head?_append_of_ne_nil _ h.nonempty] at hc
      exact List.mem_of_mem_head? hc
    · rw [List.getLast?_append_of_ne_nil _ hname.nonempty] at hc
      have hends := (strip_ends chars name).2
      rw [hstrip] at hends
      exact hends c hc
  have hspaces := hkept p.chars.isSpace (fun c hc => (h.plain c hc).1) hname.spaces
  have hcolons := hkept (· = ':') (fun c hc => decide_eq_false (h.plain c hc).2) hname.colons
  refine .inl ?_
  rw [bareName, hspaces, untagged_plain_tenant h, hspaces, hcolons]

/-- **Group names.** The group of a name is well named, and its own group, exactly when the bare
name fits, and the tenant is plain, or else is kept or taken off as a whole. -/
theorem tag_to_group_iff (p : Platform) (tsName : String) :
    (tagToGroup p (tagToGroup p tsName) = tagToGroup p tsName ∧ WellNamed p (tagToGroup p tsName)) ↔
      GroupFits p (bareName p tsName.toList) ∧
        (PlainTenant p ∨ KeepsTenant p (underTenant p (bareName p tsName.toList))) := by
  have hnamed : WellNamed p (tagToGroup p tsName) ↔
      Trimmed p (underTenant p (bareName p tsName.toList)) := by
    unfold WellNamed
    rw [tag_to_group_eq]
    constructor
    · rintro ⟨name, hsame, htrimmed⟩
      have hname := List.append_cancel_left hsame
      rw [hname]
      exact htrimmed
    · exact fun htrimmed => ⟨_, rfl, htrimmed⟩
  have hagain : tagToGroup p (tagToGroup p tsName) = tagToGroup p tsName ↔
      underTenant p (bareName p (tenantPrefix p ++ underTenant p (bareName p tsName.toList))) =
        underTenant p (bareName p tsName.toList) := by
    rw [← String.toList_inj, tag_to_group_eq, tag_to_group_eq, List.append_cancel_left_eq]
  have hbare : strip (· = ':') (bareName p tsName.toList) = bareName p tsName.toList :=
    strip_eq_self (strip_ends _ _).1 (strip_ends _ _).2
  rw [hnamed, hagain, ← trimmed_iff_fits hbare]
  constructor
  · rintro ⟨hsame, htrimmed⟩
    exact ⟨htrimmed, .inr ((under_tenant_kept_iff htrimmed).mp hsame)⟩
  · rintro ⟨htrimmed, hkeeps⟩
    have hkeeps := hkeeps.elim (keeps_plain_tenant · htrimmed) id
    exact ⟨(under_tenant_kept_iff htrimmed).mpr hkeeps, htrimmed⟩

end

/-- White space before the last colon is left in the group, and a second call takes it off. -/
theorem tag_to_group_counterexample :
    ¬ ∀ (p : Platform) (tsName : String),
      tagToGroup p (tagToGroup p tsName) = tagToGroup p tsName ∧
        WellNamed p (tagToGroup p tsName) := by
  intro hclaim
  have hfirst : tagToGroup .sample "tag:eng :" = "asg:eng " := by decide +kernel
  have hsecond : tagToGroup .sample "asg:eng " = "asg:eng" := by decide +kernel
  have hsame := (hclaim .sample "tag:eng :").1
  rw [hfirst, hsecond] at hsame
  exact absurd hsame (by decide)

end Capmesh
