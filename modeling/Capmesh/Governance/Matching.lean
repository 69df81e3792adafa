import Capmesh.Governance.Addresses

/-!
# What a placement entry matches

A manifest entry names a capability by the URI the placement gives it. The entry is matched by
the tail behind the first marker in that URI, and by a key that drops the plugin. Read
`entry_exact_iff` first: the entry of one capability is exact about another one exactly when
the namespace prefix has no marker in it and the two are not spelled alike by different
types, names or versions.
-/

namespace Capmesh

open Python Relational

/-- The namespace prefix of a vault has no marker of a manifest URI before its own. -/
def MarkerFree (p : Platform) (tenant : String) : Vault → Prop
  | .org => contains (orgSharedNamespacePrefix p tenant).toList "/shared/".toList = false
  | .all =>
      contains (allUsersNamespacePrefix tenant).toList "/shared/".toList = false ∧
        contains (allUsersNamespacePrefix tenant).toList "/everyone/".toList = false

/-- Two capabilities with one type, name and version. -/
def SameIdentity (a b : Capability) : Prop :=
  a.capabilityType = b.capabilityType ∧ a.name = b.name ∧ a.version = b.version

/-- The placement entry of `b` is exact about `a`: its tail is that of `b`, and it places `a` only
when `a` has the type, the name and the version of `b`. -/
def EntryExact (p : Platform) (vault : Vault) (a b : Capability) : Prop :=
  manifestUriTail (placeInVault p b vault).uri = capabilityCanonicalTail p b ∧
    (¬ SameIdentity a b →
      vaultMatchKey (capabilityCanonicalTail p a) ≠ vaultMatchKey (capabilityCanonicalTail p b) ∧
        ∀ catalog, applyVaultPlacement p
          (loadVaultPlacementIndex [⟨(placeInVault p b vault).uri, vault.text⟩]) catalog a = none)

section

variable {p : Platform} {vault : Vault} {a b cap : Capability} {tenant : String}

theorem org_tail_iff (tail : String) :
    manifestUriTail (orgSharedNamespacePrefix p tenant ++ "/" ++ tail) = tail ↔
      MarkerFree p tenant .org := by
  have hfront : (orgSharedNamespacePrefix p tenant).toList =
      ("cap://org/" ++ (tenant ++ "/" ++ p.defaultOrgSlug)).toList ++ "/shared".toList := by
    simp [orgSharedNamespacePrefix]
  generalize ("cap://org/" ++ (tenant ++ "/" ++ p.defaultOrgSlug)).toList = front at hfront
  have huri : (orgSharedNamespacePrefix p tenant ++ "/" ++ tail).toList =
      front ++ "/shared/".toList ++ tail.toList := by
    simp [hfront]
  have hlast : (front ++ "/shared/".toList).dropLast = (orgSharedNamespacePrefix p tenant).toList := by
    rw [hfront, List.dropLast_append_of_ne_nil (by decide)]
    rfl
  obtain ⟨found, hfound⟩ : ∃ found, afterFirst "/shared/".toList
      (front ++ "/shared/".toList ++ tail.toList) = some found := by
    rw [← Option.isSome_iff_exists]
    show contains _ _ = true
    rw [contains_iff]
    exact ⟨front, tail.toList, rfl⟩
  rw [MarkerFree, ← hlast, ← after_first_eq_iff (by decide) tail.toList]
  unfold manifestUriTail
  simp only [huri, hfound, Option.some.injEq]
  rw [← String.toList_inj, String.toList_ofList]

theorem shared_before_everyone (p : Platform) (tenant : String) (cap : Capability) :
    contains (allUsersNamespacePrefix tenant ++ "/" ++ capabilityCanonicalTail p cap).toList
        "/shared/".toList = true ↔
      contains (allUsersNamespacePrefix tenant).toList "/shared/".toList = true := by
  rw [contains_iff, contains_iff]
  constructor
  · intro h
    have hmarker : "/shared/".toList = "/shared".toList ++ ['/'] := by decide
    have htype : '/' ∉ cap.capabilityType.text.toList := type_free (by decide) (by decide) _
    rw [filed_uri_to_list, hmarker] at h
    rcases infix_before_last (slash_not_mem_name p cap) h with hend | h
    · -- Here the type segment would be the word of the marker.
      have hsegment : '/' :: cap.capabilityType.text.toList ++ ['/'] <:+
          (allUsersNamespacePrefix tenant).toList ++ '/' :: cap.capabilityType.text.toList ++ ['/'] :=
        ⟨(allUsersNamespacePrefix tenant).toList, by simp⟩
      exfalso
      rcases List.suffix_or_suffix_of_suffix hend hsegment with hcut | hcut
      · revert hcut
        cases cap.capabilityType <;> decide
      · revert hcut
        cases cap.capabilityType <;> decide
    · rcases infix_before_last htype h with hend | h
      · -- Here the prefix would end with the marker.
        have hsegment : "/everyone/".toList <:+ (allUsersNamespacePrefix tenant).toList ++ ['/'] :=
          ⟨"cap://all/".toList ++ tenant.toList, by simp [allUsersNamespacePrefix]⟩
        exfalso
        rcases List.suffix_or_suffix_of_suffix hend hsegment with hcut | hcut
        · revert hcut
          decide
        · revert hcut
          decide
      · exact hmarker ▸ h
  · intro h
    refine h.trans ?_
    rw [String.append_assoc, String.toList_append]
    exact (List.prefix_append _ _).isInfix

theorem all_tail_iff (cap : Capability) :
    manifestUriTail (allUsersNamespacePrefix tenant ++ "/" ++ capabilityCanonicalTail p cap) =
        capabilityCanonicalTail p cap ↔ MarkerFree p tenant .all := by
  have hfront : (allUsersNamespacePrefix tenant).toList =
      ("cap://all/" ++ tenant).toList ++ "/everyone".toList := by
    simp [allUsersNamespacePrefix]
  have hshared := shared_before_everyone p tenant cap
  generalize ("cap://all/" ++ tenant).toList = front at hfront
  have huri : (allUsersNamespacePrefix tenant ++ "/" ++ capabilityCanonicalTail p cap).toList =
      front ++ "/everyone/".toList ++ (capabilityCanonicalTail p cap).toList := by
    simp [hfront]
  have hlast : (front ++ "/everyone/".toList).dropLast = (allUsersNamespacePrefix tenant).toList := by
    rw [hfront, List.dropLast_append_of_ne_nil (by decide)]
    rfl
  rw [huri] at hshared
  rw [MarkerFree, manifestUriTail, huri]
  cases hfirst : afterFirst "/shared/".toList
      (front ++ "/everyone/".toList ++ (capabilityCanonicalTail p cap).toList) with
  | some found =>
      -- The org marker is found first, and what follows it is not the tail.
      have hin : contains (allUsersNamespacePrefix tenant).toList "/shared/".toList = true :=
        hshared.mp (by rw [contains, hfirst]; rfl)
      simp only [hin, Bool.true_eq_false, false_and, iff_false]
      intro htail
      rw [← String.toList_inj, String.toList_ofList] at htail
      obtain ⟨before, hbefore⟩ := after_first_spec hfirst
      rw [htail] at hbefore
      have hsame := List.append_cancel_right hbefore
      have hcut := List.suffix_or_suffix_of_suffix (⟨front, hsame⟩ : "/everyone/".toList <:+ _)
        ⟨before, rfl⟩
      revert hcut
      decide
  | none =>
      have hfree : contains (allUsersNamespacePrefix tenant).toList "/shared/".toList = false := by
        rw [Bool.eq_false_iff]
        intro hin
        have hfound := hshared.mpr hin
        rw [after_first_none_iff.mp hfirst] at hfound
        cases hfound
      obtain ⟨found, hfound⟩ : ∃ found, afterFirst "/everyone/".toList
          (front ++ "/everyone/".toList ++ (capabilityCanonicalTail p cap).toList) = some found := by
        rw [← Option.isSome_iff_exists]
        show contains _ _ = true
        rw [contains_iff]
        exact ⟨front, (capabilityCanonicalTail p cap).toList, rfl⟩
      simp only [hfree, true_and]
      rw [← hlast, ← after_first_eq_iff (by decide) (capabilityCanonicalTail p cap).toList]
      simp only [hfound, Option.some.injEq]
      rw [← String.toList_inj, String.toList_ofList]

theorem placed_tail_iff : manifestUriTail (placeInVault p cap vault).uri =
    capabilityCanonicalTail p cap ↔ MarkerFree p (p.tenantOr cap.tenantId) vault := by
  rw [place_in_vault_uri]
  cases vault with
  | org => exact org_tail_iff _
  | all => exact all_tail_iff cap

theorem vault_parse_text (vault : Vault) : Vault.parse vault.text = some vault := by
  cases vault <;> rfl

/-- A manifest of one entry places nothing with another match key. -/
theorem apply_vault_placement_of_key_ne {uri : String}
    (h : vaultMatchKey (capabilityCanonicalTail p a) ≠ vaultMatchKey (manifestUriTail uri))
    (catalog : Table CapabilityRow) :
    applyVaultPlacement p (loadVaultPlacementIndex [⟨uri, vault.text⟩]) catalog a = none := by
  have hlookup : (loadVaultPlacementIndex [⟨uri, vault.text⟩]).lookup
      (vaultMatchKey (capabilityCanonicalTail p a)) = none := by
    simp only [loadVaultPlacementIndex, List.foldl_cons, List.foldl_nil, vault_parse_text]
    split
    · rfl
    · rw [List.lookup_cons, beq_eq_false_iff_ne.mpr h]
      rfl
  unfold applyVaultPlacement wantedVault
  rw [hlookup]
  split
  · rfl
  · rename_i found hfound
    revert hfound
    split <;> simp

/-- **The placement entry of one capability is exact about another exactly when no marker occurs in
the namespace prefix before its own, and capabilities spelled alike are the same type, name and
version.** -/
theorem entry_exact_iff (p : Platform) (vault : Vault) (a b : Capability) :
    EntryExact p vault a b ↔
      MarkerFree p (p.tenantOr b.tenantId) vault ∧ (Alike p a b → SameIdentity a b) := by
  unfold EntryExact
  rw [placed_tail_iff]
  refine and_congr_right fun hfree => ?_
  constructor
  · intro hexact halike
    by_contra hother
    exact (hexact hother).1 (match_key_eq_iff.mpr halike)
  · intro hsame hother
    have hne : vaultMatchKey (capabilityCanonicalTail p a) ≠
        vaultMatchKey (capabilityCanonicalTail p b) :=
      fun h => hother (hsame (match_key_eq_iff.mp h))
    refine ⟨hne, fun catalog => apply_vault_placement_of_key_ne ?_ catalog⟩
    rw [placed_tail_iff.mpr hfree]
    exact hne

/-- A name with a dot and one with a hyphen have one match key, so the entry of the first places the
second. -/
theorem entry_matches_other_name : ¬ ∀ (p : Platform) (vault : Vault) (a b : Capability),
    EntryExact p vault a b := by
  intro h
  have hexact := (h Platform.sample .all { notesSkill "sha256:0a" with name := "release.notes" }
    { notesSkill "sha256:0b" with name := "release-notes" }).2 fun hsame =>
      absurd hsame.2.1 (by decide)
  exact hexact.1 (by decide +kernel)

end

end Capmesh
