import Capmesh.Model.Capability

/-!
# Namespaces

The identifiers and URI prefixes of the default user, org, and all-users namespaces
(`governance.py`), the canonical tail of a capability, and the rewrite that files a
capability without a governed URI in the default user's private namespace.
`apply_default_of_governed` says that the rewrite leaves a governed capability where
it is.
-/

namespace Capmesh

open Python

section

variable (p : Platform)

/-- `default_user_identity_id`. -/
def defaultUserIdentityId (tenant : String) : String :=
  p.stableId "idn" [tenant, p.defaultUserSubject]

/-- `default_user_private_store_id`. -/
def defaultUserPrivateStoreId (tenant : String) : String :=
  p.stableId "store" [tenant, "user_private", defaultUserIdentityId p tenant]

/-- `default_user_private_namespace_id`. -/
def defaultUserPrivateNamespaceId (tenant : String) : String :=
  p.stableId "ns" [tenant, defaultUserPrivateStoreId p tenant, "personal"]

/-- `default_user_store_prefix`. -/
def defaultUserStorePrefix (tenant : String) : String :=
  "cap://user/" ++ (tenant ++ "/" ++ defaultUserIdentityId p tenant ++ "/private")

/-- `default_user_namespace_prefix`. -/
def defaultUserNamespacePrefix (tenant : String) : String :=
  defaultUserStorePrefix p tenant ++ "/personal"

/-- `all_users_store_id`. -/
def allUsersStoreId (tenant : String) : String := p.stableId "store" [tenant, "all_users", "all"]

/-- `all_users_namespace_id`. -/
def allUsersNamespaceId (tenant : String) : String :=
  p.stableId "ns" [tenant, allUsersStoreId p tenant, "everyone"]

/-- `all_users_namespace_prefix`. -/
def allUsersNamespacePrefix (tenant : String) : String := "cap://all/" ++ (tenant ++ "/everyone")

/-- `org_store_id`. -/
def orgStoreId (tenant : String) : String := p.stableId "store" [tenant, "org", p.defaultOrgSlug]

/-- `org_shared_namespace_id`. -/
def orgSharedNamespaceId (tenant : String) : String :=
  p.stableId "ns" [tenant, orgStoreId p tenant, "shared"]

/-- `org_shared_namespace_prefix`. -/
def orgSharedNamespacePrefix (tenant : String) : String :=
  "cap://org/" ++ (tenant ++ "/" ++ p.defaultOrgSlug ++ "/shared")

/-- `slug`: letters and digits in lower case, single hyphens between them. -/
def slug (value : String) : String :=
  let cleaned := strip (· = '-')
    (value.toList.flatMap fun c => if p.chars.isAlnum c then p.chars.lower c else ['-'])
  orElse (String.ofList (squeeze '-' cleaned)) "unnamed"

/-- The version segment of a capability URI. -/
def versionSegment (version : String) : String :=
  let cleaned := strip (fun c => c = '.' || c = '-')
    ((orElse version "0.1.0").toList.flatMap fun c =>
      if p.chars.isAlnum c || c = '.' || c = '-' then p.chars.lower c else ['-'])
  orElse (String.ofList cleaned) "0.1.0"

/-- `user_namespace_capability_uri`. -/
def userNamespaceCapabilityUri (capability : Capability) : String :=
  defaultUserNamespacePrefix p (p.tenantOr capability.tenantId) ++ "/" ++
    (capability.capabilityType.text ++ "/" ++ slug p (optOr capability.plugin "global") ++ "." ++
      slug p capability.name ++ "@" ++ versionSegment p capability.version)

/-- `capability_canonical_tail`. -/
def capabilityCanonicalTail (capability : Capability) : String :=
  removePrefix (userNamespaceCapabilityUri p capability)
    (defaultUserNamespacePrefix p (p.tenantOr capability.tenantId) ++ "/")

end

/-- The URI prefixes that the default rewrite leaves in place. -/
def governedPrefixes : List String := ["cap://user/", "cap://org/", "cap://app/", "cap://all/"]

/-- Whether a URI lies in a governed namespace. -/
def isGovernedUri (uri : String) : Bool := governedPrefixes.any (startsWith uri ·)

/-- A capability that the namespace rewrites never touch. -/
def Capability.isSystem (capability : Capability) : Bool :=
  capability.sourceKind = "system_capability" || startsWith capability.uri "cap://system/"

/-- `apply_default_user_namespace`. -/
def applyDefaultUserNamespace (p : Platform) (capability : Capability) : Capability :=
  if capability.isSystem then capability
  else
    let tenant := p.tenantOr capability.tenantId
    if isGovernedUri capability.uri then { capability with tenantId := tenant }
    else
      let rewrite := !startsWith capability.uri (defaultUserNamespacePrefix p tenant ++ "/")
      { capability with
        uri := if rewrite then userNamespaceCapabilityUri p capability else capability.uri
        tenantId := tenant
        storeId := some (defaultUserPrivateStoreId p tenant)
        namespaceId := some (defaultUserPrivateNamespaceId p tenant)
        visibility := .protected
        discoveryMode := .hidden
        owner := p.defaultUserSubject
        createdBy := some p.defaultUserSubject
        approvalState :=
          if capability.approvalState = .published ∨ capability.approvalState = .approved then
            .draft
          else capability.approvalState
        lifecycle :=
          if capability.lifecycle = .active ∨ capability.lifecycle = .published then .draft
          else capability.lifecycle
        metadata := ((capability.metadata.set "defaultUserNamespace" (.bool true)).setDefault
          "originalUri" (.str capability.uri)).setDefault "originalOwner"
            (.str capability.owner) }

/-- A capability the rewrite leaves in place: it is a system capability, or it has a governed URI
and a tenant. -/
def Capability.Governed (capability : Capability) : Prop :=
  capability.isSystem = true ∨ (isGovernedUri capability.uri = true ∧ capability.tenantId ≠ "")

variable {p : Platform} {capability : Capability}

theorem is_governed_uri_of_prefix {uri : String} (start : String) (hstart : start ∈ governedPrefixes)
    (h : startsWith uri start = true) : isGovernedUri uri = true :=
  List.any_eq_true.mpr ⟨start, hstart, h⟩

theorem user_namespace_uri_governed (capability : Capability) :
    isGovernedUri (userNamespaceCapabilityUri p capability) = true := by
  refine is_governed_uri_of_prefix "cap://user/" (by decide) ?_
  unfold userNamespaceCapabilityUri defaultUserNamespacePrefix defaultUserStorePrefix
  exact starts_with_append _ (starts_with_append _ (starts_with_append _
    (starts_with_self_append _ _)))

theorem apply_default_of_governed (h : capability.Governed) :
    applyDefaultUserNamespace p capability = capability := by
  unfold applyDefaultUserNamespace
  by_cases hsystem : capability.isSystem = true
  · rw [if_pos hsystem]
  · obtain ⟨huri, htenant⟩ := h.resolve_left hsystem
    have hsame : p.tenantOr capability.tenantId = capability.tenantId := or_else_of_ne _ htenant
    rw [if_neg hsystem]
    simp only [huri, if_true, hsame]

theorem apply_default_filed (h : ¬ capability.isSystem = true) :
    isGovernedUri (applyDefaultUserNamespace p capability).uri = true ∧
      (applyDefaultUserNamespace p capability).tenantId ≠ "" := by
  unfold applyDefaultUserNamespace
  rw [if_neg h]
  simp only
  split
  · exact ⟨‹_›, p.tenant_or_ne _⟩
  · refine ⟨?_, p.tenant_or_ne _⟩
    simp only
    split
    · exact user_namespace_uri_governed capability
    · rename_i hnot
      have hprefix : startsWith capability.uri
          (defaultUserNamespacePrefix p (p.tenantOr capability.tenantId) ++ "/") = true := by
        simpa using hnot
      refine is_governed_uri_of_prefix "cap://user/" (by decide) ?_
      exact starts_with_trans (starts_with_append _ (starts_with_append _
        (starts_with_self_append _ _))) hprefix

theorem apply_default_governed (capability : Capability) :
    (applyDefaultUserNamespace p capability).Governed := by
  by_cases hsystem : capability.isSystem = true
  · rw [apply_default_of_governed (.inl hsystem)]
    exact .inl hsystem
  · exact .inr (apply_default_filed hsystem)

/-- The default rewrite changes none of the columns discovery reads from the source. -/
theorem apply_default_source (capability : Capability) :
    let result := applyDefaultUserNamespace p capability
    result.canonicalKey = capability.canonicalKey ∧
      result.contentHash = capability.contentHash ∧
      result.sourceKind = capability.sourceKind := by
  unfold applyDefaultUserNamespace
  split
  · exact ⟨rfl, rfl, rfl⟩
  · simp only
    split <;> exact ⟨rfl, rfl, rfl⟩

/-- The metadata keys that a rewrite of the address writes. -/
def addressKeys : List String :=
  ["defaultUserNamespace", "originalUri", "originalOwner", "vaultPlacement"]

theorem apply_default_metadata {key : String} (hkey : key ∉ addressKeys)
    (capability : Capability) :
    (applyDefaultUserNamespace p capability).sourcePath = capability.sourcePath ∧
      Dict.get? (applyDefaultUserNamespace p capability).metadata key =
        Dict.get? capability.metadata key := by
  simp only [addressKeys, List.mem_cons, List.not_mem_nil, or_false, not_or] at hkey
  unfold applyDefaultUserNamespace
  split
  · exact ⟨rfl, rfl⟩
  · simp only
    split
    · exact ⟨rfl, rfl⟩
    · refine ⟨rfl, ?_⟩
      rw [Dict.get?_setDefault_of_ne _ _ (Ne.symm hkey.2.2.1),
        Dict.get?_setDefault_of_ne _ _ (Ne.symm hkey.2.1), Dict.get?_set_of_ne _ _ (Ne.symm hkey.1)]

end Capmesh
