import Mathlib.Data.Bool.AllAny
import Capmesh.Python.Words
import Capmesh.Governance.VaultPlacement

/-!
# Addresses as spelled words

What the slug functions of `governance.py` keep of a text: a slug is the words of the text
in lower case, a version segment its characters from the first to the last that is
alphanumeric. Read `match_key_eq_iff` first: two capabilities have one match key exactly
when their types agree and their names and versions are spelled alike.
-/

namespace Capmesh

open Python Relational

section

variable (p : Platform)

/-- The words a text is spelled with in a slug; a text without words is spelled `unnamed`. -/
def spelledWords (text : String) : List (List Char) :=
  match words p.chars.isAlnum text.toList with
  | [] => ["unnamed".toList]
  | word :: others => (word :: others).map (·.flatMap p.chars.lower)

/-- One character of a version segment. -/
def spelledVersionChar (c : Char) : List Char :=
  if p.chars.isAlnum c || c = '.' || c = '-' then p.chars.lower c else ['-']

/-- The characters a version is spelled with, from its first alphanumeric one to its last; a version
without any is spelled `0.1.0`. -/
def spelledVersion (version : String) : List Char :=
  match strip (!p.chars.isAlnum ·) version.toList with
  | [] => "0.1.0".toList
  | c :: text => (c :: text).flatMap (spelledVersionChar p)

end

/-- Two capabilities whose types agree and whose names and versions are spelled alike. -/
structure Alike (p : Platform) (a b : Capability) : Prop where
  capabilityType : a.capabilityType = b.capabilityType
  name : spelledWords p a.name = spelledWords p b.name
  version : spelledVersion p a.version = spelledVersion p b.version

section

variable {p : Platform} {c d : Char} {v w : String} {cap a b : Capability}

/-- The ASCII characters in the lower case of a letter are letters. -/
theorem alphanum_of_mem_lower (hc : p.chars.isAlnum c = true) (hd : d ∈ p.chars.lower c)
    (hascii : d.toNat < 128) : d.isAlphanum = true := by
  rcases p.chars.lower_punctuation c d hd hascii with h | rfl
  · exact h
  · rw [← p.chars.isAlnum_ascii d hascii]
    exact hc

theorem lower_free {s : Char} (hs : s.toNat < 128) (hsym : s.isAlphanum = false)
    (hc : p.chars.isAlnum c = true) : s ∉ p.chars.lower c := by
  intro hmem
  rw [alphanum_of_mem_lower hc hmem hs] at hsym
  cases hsym

/-- The characters of a slug before it falls back to `unnamed`. -/
theorem slug_eq_join (p : Platform) (v : String) :
    slug p v = orElse (String.ofList (['-'].intercalate
      ((words p.chars.isAlnum v.toList).map (·.flatMap p.chars.lower)))) "unnamed" := by
  show orElse (String.ofList (squeeze '-' (strip (· = '-')
    (spell '-' p.chars.isAlnum p.chars.lower v.toList)))) "unnamed" = _
  rw [squeeze_strip_spell]
  intro c hc
  exact ⟨p.chars.lower_ne_nil c, lower_free (by decide) (by decide) hc⟩

theorem mem_spelled_words {word : List Char} (h : word ∈ spelledWords p v) :
    word ≠ [] ∧ ∀ d ∈ word, d.toNat < 128 → d.isAlphanum = true := by
  unfold spelledWords at h
  split at h
  · rw [List.mem_singleton.mp h]
    exact ⟨by decide, List.all_iff_forall_prop.mp (by decide)⟩
  · rename_i first others hwords
    rw [← hwords] at h
    obtain ⟨original, horiginal, rfl⟩ := List.mem_map.mp h
    obtain ⟨hne, hkept⟩ := mem_words horiginal
    constructor
    · obtain ⟨c, original, rfl⟩ := List.exists_cons_of_ne_nil hne
      simp [p.chars.lower_ne_nil c]
    · intro d hd
      obtain ⟨c, hc, hd⟩ := List.mem_flatMap.mp hd
      exact alphanum_of_mem_lower (hkept c hc) hd

theorem slug_to_list (p : Platform) (v : String) :
    (slug p v).toList = ['-'].intercalate (spelledWords p v) := by
  have hfirst : ∀ word ∈ (spelledWords p v), word ≠ [] := fun word hword => (mem_spelled_words hword).1
  rw [slug_eq_join]
  unfold spelledWords at hfirst ⊢
  cases hwords : words p.chars.isAlnum v.toList with
  | nil => simp [orElse]
  | cons word others =>
      simp only [hwords] at hfirst
      have hne : ['-'].intercalate ((word :: others).map (·.flatMap p.chars.lower)) ≠ [] := by
        have hword := hfirst _ (List.mem_map_of_mem List.mem_cons_self)
        cases others with
        | nil => simpa using hword
        | cons next others => simp [List.intercalate_cons_cons]
      rw [or_else_of_ne, String.toList_ofList]
      intro hempty
      rw [← String.toList_inj, String.toList_ofList] at hempty
      exact hne hempty

/-- Two texts have one slug exactly when they are spelled with the same words. -/
theorem slug_eq_iff : slug p v = slug p w ↔ spelledWords p v = spelledWords p w := by
  rw [← String.toList_inj, slug_to_list, slug_to_list]
  constructor
  · intro h
    have hfree : ∀ u, ∀ word ∈ spelledWords p u, word ≠ [] ∧ '-' ∉ word := by
      intro u word hword
      obtain ⟨hne, hascii⟩ := mem_spelled_words hword
      refine ⟨hne, fun hyphen => ?_⟩
      have hbad := hascii '-' hyphen (by decide)
      revert hbad
      decide
    exact intercalate_inj (hfree v) (hfree w) h
  · intro h
    rw [h]

theorem slug_char (h : c ∈ (slug p v).toList) (hascii : c.toNat < 128) :
    c = '-' ∨ c.isAlphanum = true := by
  rw [slug_to_list] at h
  refine (mem_intercalate h).imp_right fun ⟨word, hword, hc⟩ => ?_
  exact (mem_spelled_words hword).2 c hc hascii

/-- A slug has no ASCII punctuation except the hyphen. -/
theorem slug_free {s : Char} (hs : s.toNat < 128) (hsym : s.isAlphanum = false) (hne : s ≠ '-') :
    s ∉ (slug p v).toList := by
  intro hmem
  have halnum := (slug_char hmem hs).resolve_left hne
  rw [halnum] at hsym
  cases hsym

theorem slug_ne_empty (p : Platform) (v : String) : slug p v ≠ "" := or_else_ne _ (by decide)

theorem spelled_version_char_stays {c : Char} (hc : p.chars.isAlnum c = true) :
    spelledVersionChar p c ≠ [] ∧
      ∀ d ∈ spelledVersionChar p c, (decide (d = '.') || decide (d = '-')) = false := by
  have hfold : spelledVersionChar p c = p.chars.lower c := by simp [spelledVersionChar, hc]
  rw [hfold]
  refine ⟨p.chars.lower_ne_nil c, fun d hd => ?_⟩
  have hdot : d ≠ '.' := fun h => lower_free (by decide) (by decide) hc (h ▸ hd)
  have hhyphen : d ≠ '-' := fun h => lower_free (by decide) (by decide) hc (h ▸ hd)
  simp [hdot, hhyphen]

theorem spelled_version_char_goes {c : Char} (hc : p.chars.isAlnum c = false) :
    ∀ d ∈ spelledVersionChar p c, (decide (d = '.') || decide (d = '-')) = true := by
  intro d hd
  unfold spelledVersionChar at hd
  split at hd
  · rename_i hkeep
    simp only [hc, Bool.false_or, Bool.or_eq_true, decide_eq_true_eq] at hkeep
    rcases hkeep with rfl | rfl
    · rw [p.chars.lower_ascii _ (by decide)] at hd
      rw [List.mem_singleton.mp hd]
      decide
    · rw [p.chars.lower_ascii _ (by decide)] at hd
      rw [List.mem_singleton.mp hd]
      decide
  · rw [List.mem_singleton.mp hd]
    decide

theorem spelled_default_version (p : Platform) :
    (strip (!p.chars.isAlnum ·) "0.1.0".toList).flatMap (spelledVersionChar p) = "0.1.0".toList := by
  have hzero : p.chars.isAlnum '0' = true := by
    rw [p.chars.isAlnum_ascii _ (by decide)]
    decide
  have hchars : ∀ c ∈ "0.1.0".toList, spelledVersionChar p c = [c] := by
    intro c hc
    have hplain : ∀ c ∈ "0.1.0".toList, c.toNat < 128 ∧
        (c.isAlphanum || decide (c = '.') || decide (c = '-')) = true ∧ c.toLower = c :=
      List.all_iff_forall_prop.mp (by decide)
    obtain ⟨hascii, hkeep, hlower⟩ := hplain c hc
    rw [spelledVersionChar, p.chars.isAlnum_ascii c hascii, if_pos hkeep,
      p.chars.lower_ascii c hascii, hlower]
  have hstrip : strip (!p.chars.isAlnum ·) "0.1.0".toList = "0.1.0".toList := by
    simp [strip, rstrip, hzero]
  rw [hstrip, List.flatMap_congr hchars, List.flatMap_singleton']

/-- **A version segment is the version from its first alphanumeric character to its last.** -/
theorem version_segment_to_list (p : Platform) (v : String) :
    (versionSegment p v).toList = spelledVersion p v := by
  have hstrip := strip_flat_map (fun c => spelled_version_char_stays (p := p) (c := c))
    (fun c => spelled_version_char_goes (p := p) (c := c)) (orElse v "0.1.0").toList
  show (orElse (String.ofList (strip (fun c => decide (c = '.') || decide (c = '-'))
    ((orElse v "0.1.0").toList.flatMap (spelledVersionChar p)))) "0.1.0").toList = _
  rw [hstrip]
  unfold spelledVersion
  by_cases hv : v = ""
  · subst hv
    rw [show orElse "" "0.1.0" = "0.1.0" from rfl, spelled_default_version p]
    simp [orElse, strip, rstrip]
  · rw [or_else_of_ne "0.1.0" hv]
    cases htext : strip (!p.chars.isAlnum ·) v.toList with
    | nil => simp [orElse]
    | cons c text =>
        have hchar : spelledVersionChar p c ≠ [] := by
          unfold spelledVersionChar
          split
          · exact p.chars.lower_ne_nil c
          · decide
        dsimp only
        rw [or_else_of_ne, String.toList_ofList]
        simp [hchar]

theorem version_free {s : Char} (hs : s.toNat < 128) (hsym : s.isAlphanum = false) (hne : s ≠ '-')
    (hdot : s ≠ '.') : s ∉ (versionSegment p v).toList := by
  rw [version_segment_to_list]
  unfold spelledVersion
  split
  · intro hmem
    have hdefault : ∀ c ∈ "0.1.0".toList, c = '.' ∨ c.isAlphanum = true :=
      List.all_iff_forall_prop.mp (by decide)
    rw [(hdefault s hmem).resolve_left hdot] at hsym
    cases hsym
  · intro hmem
    obtain ⟨c, -, hmem⟩ := List.mem_flatMap.mp hmem
    unfold spelledVersionChar at hmem
    split at hmem
    · rename_i hkeep
      simp only [Bool.or_eq_true, decide_eq_true_eq] at hkeep
      rcases hkeep with (hc | rfl) | rfl
      · exact lower_free hs hsym hc hmem
      · rw [p.chars.lower_ascii _ (by decide)] at hmem
        exact hdot (List.mem_singleton.mp hmem)
      · rw [p.chars.lower_ascii _ (by decide)] at hmem
        exact hne (List.mem_singleton.mp hmem)
    · exact hne (List.mem_singleton.mp hmem)

theorem type_free {s : Char} (hsym : s.isAlphanum = false) (hne : s ≠ '_') (type : CapabilityType) :
    s ∉ type.text.toList := by
  intro hmem
  have hletters : ∀ c ∈ type.text.toList, c.isAlphanum = true ∨ c = '_' := by
    cases type <;> exact List.all_iff_forall_prop.mp (by decide)
  rcases hletters s hmem with h | h
  · rw [h] at hsym
    cases hsym
  · exact hne h

theorem type_text_inj {s t : CapabilityType} (h : s.text = t.text) : s = t := by
  revert h
  cases s <;> cases t <;> decide

theorem remove_prefix_append (start text : String) : removePrefix (start ++ text) start = text := by
  unfold removePrefix
  rw [if_pos (starts_with_self_append _ _), ← String.toList_inj, String.toList_ofList,
    String.toList_append, List.drop_left]

theorem canonical_tail_to_list (p : Platform) (cap : Capability) :
    (capabilityCanonicalTail p cap).toList = cap.capabilityType.text.toList ++ '/' ::
      ((slug p (optOr cap.plugin "global")).toList ++ '.' :: ((slug p cap.name).toList ++ '@' ::
        (versionSegment p cap.version).toList)) := by
  unfold capabilityCanonicalTail userNamespaceCapabilityUri
  rw [remove_prefix_append]
  simp

theorem match_key_to_list (p : Platform) (cap : Capability) :
    (vaultMatchKey (capabilityCanonicalTail p cap)).toList = cap.capabilityType.text.toList ++ '/' ::
      ((slug p cap.name).toList ++ '@' :: (versionSegment p cap.version).toList) := by
  have hplugin : ∀ d ∈ (slug p (optOr cap.plugin "global")).toList,
      (d ≠ '.' && d ≠ '@' && d ≠ '/') = true := by
    intro d hd
    have hsymbols : ∀ s ∈ ['.', '@', '/'], s.toNat < 128 ∧ s.isAlphanum = false ∧ s ≠ '-' :=
      List.all_iff_forall_prop.mp (by decide)
    have hfree : ∀ s ∈ ['.', '@', '/'], d ≠ s := by
      intro s hs heq
      obtain ⟨hascii, hsym, hne⟩ := hsymbols s hs
      exact slug_free hascii hsym hne (heq ▸ hd)
    simp [hfree]
  have htype : ∀ d ∈ cap.capabilityType.text.toList, decide (d ≠ '/') = true := by
    intro d hd
    have hne : d ≠ '/' := fun heq => type_free (by decide) (by decide) _ (heq ▸ hd)
    simpa using hne
  unfold vaultMatchKey
  dsimp only
  rw [canonical_tail_to_list, take_while_append_cons htype (by decide), List.drop_left]
  dsimp only
  rw [String.toList_ofList, dropPluginSegment, take_while_append_cons hplugin (by decide),
    List.drop_left]
  simp [slug_ne_empty]

/-- **The match keys of two capabilities agree exactly when the capabilities are spelled alike.** -/
theorem match_key_eq_iff : vaultMatchKey (capabilityCanonicalTail p a) =
    vaultMatchKey (capabilityCanonicalTail p b) ↔ Alike p a b := by
  rw [← String.toList_inj, match_key_to_list, match_key_to_list]
  constructor
  · intro h
    obtain ⟨htype, h⟩ := append_cons_inj_of_not_mem (type_free (by decide) (by decide) _)
      (type_free (by decide) (by decide) _) h
    obtain ⟨hname, hversion⟩ := append_cons_inj_of_not_mem
      (slug_free (by decide) (by decide) (by decide))
      (slug_free (by decide) (by decide) (by decide)) h
    rw [version_segment_to_list, version_segment_to_list] at hversion
    exact ⟨type_text_inj (String.toList_inj.mp htype), slug_eq_iff.mp (String.toList_inj.mp hname),
      hversion⟩
  · intro h
    rw [h.capabilityType, slug_eq_iff.mpr h.name, version_segment_to_list, version_segment_to_list,
      h.version]

theorem canonical_tail_eq_iff : capabilityCanonicalTail p a = capabilityCanonicalTail p b ↔
    Alike p a b ∧
      spelledWords p (optOr a.plugin "global") = spelledWords p (optOr b.plugin "global") := by
  constructor
  · intro h
    refine ⟨match_key_eq_iff.mp (congrArg vaultMatchKey h), slug_eq_iff.mp ?_⟩
    have hlist := congrArg String.toList h
    rw [canonical_tail_to_list, canonical_tail_to_list] at hlist
    obtain ⟨-, hname⟩ := append_cons_inj_of_not_mem (type_free (by decide) (by decide) _)
      (type_free (by decide) (by decide) _) hlist
    obtain ⟨hplugin, -⟩ := append_cons_inj_of_not_mem
      (slug_free (by decide) (by decide) (by decide))
      (slug_free (by decide) (by decide) (by decide)) hname
    exact String.toList_inj.mp hplugin
  · rintro ⟨halike, hplugin⟩
    rw [← String.toList_inj, canonical_tail_to_list, canonical_tail_to_list, slug_eq_iff.mpr hplugin,
      slug_eq_iff.mpr halike.name, halike.capabilityType, version_segment_to_list,
      version_segment_to_list, halike.version]

theorem slash_not_mem_name (p : Platform) (cap : Capability) :
    '/' ∉ (slug p (optOr cap.plugin "global")).toList ++ '.' ::
      ((slug p cap.name).toList ++ '@' :: (versionSegment p cap.version).toList) := by
  have hslug : ∀ v, '/' ∉ (slug p v).toList := fun v =>
    slug_free (by decide) (by decide) (by decide)
  have hversion : '/' ∉ (versionSegment p cap.version).toList :=
    version_free (by decide) (by decide) (by decide) (by decide)
  simp [hslug, hversion]

theorem filed_uri_to_list (p : Platform) (start : String) (cap : Capability) :
    (start ++ "/" ++ capabilityCanonicalTail p cap).toList =
      (start.toList ++ '/' :: cap.capabilityType.text.toList) ++ '/' ::
        ((slug p (optOr cap.plugin "global")).toList ++ '.' :: ((slug p cap.name).toList ++ '@' ::
          (versionSegment p cap.version).toList)) := by
  simp [canonical_tail_to_list]

/-- An address under a prefix determines the prefix and the tail. -/
theorem filed_uri_eq_iff {start start' : String} :
    start ++ "/" ++ capabilityCanonicalTail p a = start' ++ "/" ++ capabilityCanonicalTail p b ↔
      start = start' ∧ capabilityCanonicalTail p a = capabilityCanonicalTail p b := by
  constructor
  · intro h
    have hlist := congrArg String.toList h
    rw [filed_uri_to_list, filed_uri_to_list] at hlist
    obtain ⟨hfront, hback⟩ :=
      append_cons_inj_last (slash_not_mem_name p a) (slash_not_mem_name p b) hlist
    obtain ⟨hstart, htype⟩ := append_cons_inj_last (type_free (by decide) (by decide) _)
      (type_free (by decide) (by decide) _) hfront
    refine ⟨String.toList_inj.mp hstart, ?_⟩
    rw [← String.toList_inj, canonical_tail_to_list, canonical_tail_to_list, htype, hback]
  · rintro ⟨rfl, htail⟩
    rw [htail]

/-- The address of a placed capability. -/
theorem place_in_vault_uri (p : Platform) (cap : Capability) (vault : Vault) :
    (placeInVault p cap vault).uri =
      (vaultTarget p (p.tenantOr cap.tenantId) vault).uriPrefix ++ "/" ++
        capabilityCanonicalTail p cap := by
  unfold placeInVault
  simp only [apply_ite Capability.uri, ite_self]

theorem default_prefix_governed (p : Platform) (tenant : String) {uri : String}
    (h : startsWith uri (defaultUserNamespacePrefix p tenant ++ "/") = true) :
    isGovernedUri uri = true := by
  refine is_governed_uri_of_prefix "cap://user/" (by decide) ?_
  exact starts_with_trans (starts_with_append _ (starts_with_append _
    (starts_with_self_append _ _))) h

/-- Where the default rewrite files a capability without a governed address. -/
theorem apply_default_uri (p : Platform) (cap : Capability) :
    (applyDefaultUserNamespace p cap).uri =
      if cap.isSystem || isGovernedUri cap.uri then cap.uri
      else defaultUserNamespacePrefix p (p.tenantOr cap.tenantId) ++ "/" ++
        capabilityCanonicalTail p cap := by
  unfold applyDefaultUserNamespace
  by_cases hsystem : cap.isSystem = true
  · rw [if_pos hsystem, hsystem, Bool.true_or, if_pos rfl]
  · rw [if_neg hsystem, Bool.eq_false_iff.mpr hsystem, Bool.false_or]
    dsimp only
    split
    · rfl
    · rename_i hgoverned
      have hstart : startsWith cap.uri
          (defaultUserNamespacePrefix p (p.tenantOr cap.tenantId) ++ "/") = false :=
        Bool.eq_false_iff.mpr fun h => hgoverned (default_prefix_governed p _ h)
      simp only [hstart, Bool.not_false, if_true]
      rw [capabilityCanonicalTail, userNamespaceCapabilityUri, remove_prefix_append]

end

end Capmesh
