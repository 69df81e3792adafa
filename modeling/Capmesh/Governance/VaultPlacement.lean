import Capmesh.Governance.Namespaces
import Capmesh.Model.Database

/-!
# Vault placement

`vault_placement.py` and `load_vault_placement_index`: a manifest names capabilities
by their placement URI, and a discovered capability whose match key is in the manifest
is filed in the org or the all-users namespace. The collision guard reads the catalog,
so the placement of a capability depends on the rows already there. `effective` is
the capability both passes of an ingest work with; it is governed, and it keeps the
columns that identify the source.
-/

namespace Capmesh

open Python Relational

/-- The two vaults a manifest entry may name. -/
inductive Vault where
  | org | all
  deriving DecidableEq, Repr

/-- The text of a vault in the manifest and in the metadata of a placed capability. -/
def Vault.text : Vault → String
  | .org => "org"
  | .all => "all"

/-- The vault a manifest text names. -/
def Vault.parse (text : String) : Option Vault :=
  if text = "org" then some .org else if text = "all" then some .all else none

/-- One entry of `vault-placement.json`. -/
structure PlacementEntry where
  uri : String
  vault : String
  deriving DecidableEq, Repr

/-- `_manifest_uri_tail`. -/
def manifestUriTail (uri : String) : String :=
  match afterFirst "/shared/".toList uri.toList with
  | some tail => String.ofList tail
  | none =>
      match afterFirst "/everyone/".toList uri.toList with
      | some tail => String.ofList tail
      | none =>
          let parts := (splitOn '/' uri.toList).map String.ofList
          if 2 ≤ parts.length then join "/" (parts.drop (parts.length - 2)) else uri

/-- `re.sub(r"^[^.@/]+\.", "", text, count=1)`: drop one leading plugin segment. -/
def dropPluginSegment (text : List Char) : List Char :=
  let segment := text.takeWhile fun c => c ≠ '.' && c ≠ '@' && c ≠ '/'
  match text.drop segment.length with
  | '.' :: rest => if segment.isEmpty then text else rest
  | _ => text

/-- `_vault_match_key`. -/
def vaultMatchKey (tail : String) : String :=
  let chars := tail.toList
  let type := chars.takeWhile (· ≠ '/')
  match chars.drop type.length with
  | _ :: rest => String.ofList (type ++ '/' :: dropPluginSegment rest)
  | [] => tail

/-- The placement index: the vault of each match key, the last entry of a key winning. -/
abbrev PlacementIndex := List (String × Vault)

/-- `load_vault_placement_index`, for the entries of the manifest. -/
def loadVaultPlacementIndex (manifest : List PlacementEntry) : PlacementIndex :=
  manifest.foldl (fun index entry =>
    match Vault.parse entry.vault with
    | some vault =>
        if entry.uri = "" then index
        else (vaultMatchKey (manifestUriTail entry.uri), vault) :: index
    | none => index) []

/-- `evaluate_risk_tier_policy`. -/
def evaluateRiskTierPolicy (riskTier targetVault : String) : Bool × String :=
  if targetVault = "org" || targetVault = "private" then
    (true, "org/private vaults are allowlisted for all risk tiers")
  else if riskTier = "low" || riskTier = "none" then
    (true, riskTier ++ "-tier capability is allowlisted")
  else if riskTier = "medium" then
    (true, "medium-tier capability allowed with warning for all-user namespace")
  else if riskTier = "high" || riskTier = "critical" then
    (false, riskTier ++ "-tier capability is blocked from the all-user namespace")
  else (false, "unknown risk tier is denied for all-user namespace")

/-- `_vault_placement_collision`: a row of the target namespace with the same match key and
another content. -/
def vaultPlacementCollision (catalog : Table CapabilityRow) (capability : Capability)
    (matchKey namespaceId tenant : String) : Option CapabilityRow :=
  catalog.find? fun row =>
    row.cap.tenantId = tenant && row.cap.namespaceId = some namespaceId &&
      row.cap.contentHash ≠ capability.contentHash &&
      vaultMatchKey (manifestUriTail row.cap.uri) = matchKey

/-- Where a vault files a capability: store, namespace, and namespace prefix. -/
structure VaultTarget where
  store : String
  namespaceId : String
  uriPrefix : String
  deriving DecidableEq, Repr

/-- The target of a vault for one tenant. -/
def vaultTarget (p : Platform) (tenant : String) : Vault → VaultTarget
  | .org =>
      ⟨orgStoreId p tenant, orgSharedNamespaceId p tenant, orgSharedNamespacePrefix p tenant⟩
  | .all =>
      ⟨allUsersStoreId p tenant, allUsersNamespaceId p tenant, allUsersNamespacePrefix tenant⟩

/-- Whether a capability is a draft for placement. -/
def Capability.isDraft (capability : Capability) : Bool :=
  capability.approvalState = .draft || capability.lifecycle = .draft

/-- The vault the manifest wants a capability in, once the risk policy for drafts passed. -/
def wantedVault (p : Platform) (index : PlacementIndex) (capability : Capability) :
    Option Vault :=
  if capability.isSystem then none
  else match index.lookup (vaultMatchKey (capabilityCanonicalTail p capability)) with
    | none => none
    | some vault =>
        if capability.isDraft && vault = .all &&
            !(evaluateRiskTierPolicy (orElse capability.riskTier.text "unknown") vault.text).1 then
          none
        else some vault

/-- The capability as placed in a vault. A draft keeps its state; anything else is published,
approved and shared. -/
def placeInVault (p : Platform) (capability : Capability) (vault : Vault) : Capability :=
  let tenant := p.tenantOr capability.tenantId
  let target := vaultTarget p tenant vault
  let privateUri := userNamespaceCapabilityUri p capability
  let placed : Capability :=
    { capability with
      uri := target.uriPrefix ++ "/" ++ capabilityCanonicalTail p capability
      tenantId := tenant
      storeId := some target.store
      namespaceId := some target.namespaceId
      visibility := .internal
      discoveryMode := .public
      owner := "asg-platform"
      createdBy := some (optOr capability.createdBy p.defaultUserSubject)
      promotedFromUri := some (optOr capability.promotedFromUri privateUri)
      metadata := ((capability.metadata.setDefault "originalUri" (.str privateUri)).setDefault
        "originalOwner" (.str capability.owner)).set "vaultPlacement" (.str vault.text) }
  if capability.isDraft then placed
  else { placed with approvalState := .approved, shareState := .shared, lifecycle := .published }

/-- `apply_vault_placement`. -/
def applyVaultPlacement (p : Platform) (index : PlacementIndex) (catalog : Table CapabilityRow)
    (capability : Capability) : Option Capability :=
  match wantedVault p index capability with
  | none => none
  | some vault =>
      let tenant := p.tenantOr capability.tenantId
      match vaultPlacementCollision catalog capability
          (vaultMatchKey (capabilityCanonicalTail p capability))
          (vaultTarget p tenant vault).namespaceId tenant with
      -- The first capability to claim the key keeps it: the placement is refused.
      | some _ => none
      | none => some (placeInVault p capability vault)

/-- The capability an ingest works with: placed when the manifest names it, else in the default
namespace. -/
def effective (p : Platform) (index : PlacementIndex) (catalog : Table CapabilityRow)
    (capability : Capability) : Capability :=
  match applyVaultPlacement p index catalog capability with
  | some placed => placed
  | none => applyDefaultUserNamespace p capability

/-- The vault a capability is placed in. -/
def placedVault (p : Platform) (index : PlacementIndex) (catalog : Table CapabilityRow)
    (cap : Capability) : Option Vault :=
  match wantedVault p index cap with
  | none => none
  | some vault =>
      let tenant := p.tenantOr cap.tenantId
      if (vaultPlacementCollision catalog cap (vaultMatchKey (capabilityCanonicalTail p cap))
          (vaultTarget p tenant vault).namespaceId tenant).isSome then none
      else some vault

section

variable {p : Platform} {index : PlacementIndex} {catalog : Table CapabilityRow}
variable {capability : Capability}

theorem place_in_vault_governed (vault : Vault) : (placeInVault p capability vault).Governed := by
  right
  have huri : isGovernedUri (placeInVault p capability vault).uri = true := by
    unfold placeInVault
    cases vault with
    | org =>
        refine is_governed_uri_of_prefix "cap://org/" (by decide) ?_
        simp only [apply_ite Capability.uri, ite_self]
        exact starts_with_append _ (starts_with_append _ (starts_with_self_append _ _))
    | all =>
        refine is_governed_uri_of_prefix "cap://all/" (by decide) ?_
        simp only [apply_ite Capability.uri, ite_self]
        exact starts_with_append _ (starts_with_append _ (starts_with_self_append _ _))
  refine ⟨huri, ?_⟩
  unfold placeInVault
  simp only [apply_ite Capability.tenantId, ite_self]
  exact p.tenant_or_ne _

theorem apply_vault_placement_eq (p : Platform) (index : PlacementIndex)
    (catalog : Table CapabilityRow) (cap : Capability) :
    applyVaultPlacement p index catalog cap =
      (placedVault p index catalog cap).map (placeInVault p cap) := by
  unfold applyVaultPlacement placedVault
  cases wantedVault p index cap with
  | none => rfl
  | some vault =>
      dsimp only
      cases vaultPlacementCollision catalog cap (vaultMatchKey (capabilityCanonicalTail p cap))
        (vaultTarget p (p.tenantOr cap.tenantId) vault).namespaceId (p.tenantOr cap.tenantId) <;> rfl

/-- An effective capability is governed: the default rewrite inside an upsert leaves it as it
is. -/
theorem effective_governed (p : Platform) (index : PlacementIndex)
    (catalog : Table CapabilityRow) (capability : Capability) :
    (effective p index catalog capability).Governed := by
  unfold effective
  rw [apply_vault_placement_eq]
  cases placedVault p index catalog capability with
  | none => exact apply_default_governed capability
  | some vault => exact place_in_vault_governed vault

/-- Placement keeps the columns that identify the source. -/
theorem effective_source (p : Platform) (index : PlacementIndex)
    (catalog : Table CapabilityRow) (capability : Capability) :
    (effective p index catalog capability).canonicalKey = capability.canonicalKey ∧
      (effective p index catalog capability).contentHash = capability.contentHash ∧
      (effective p index catalog capability).sourceKind = capability.sourceKind := by
  unfold effective
  rw [apply_vault_placement_eq]
  cases placedVault p index catalog capability with
  | none => exact apply_default_source capability
  | some vault =>
      simp only [Option.map_some, placeInVault]
      split <;> exact ⟨rfl, rfl, rfl⟩

theorem effective_metadata (p : Platform) (index : PlacementIndex)
    (catalog : Table CapabilityRow) {key : String} (hkey : key ∉ addressKeys)
    (capability : Capability) :
    (effective p index catalog capability).sourcePath = capability.sourcePath ∧
      Dict.get? (effective p index catalog capability).metadata key =
        Dict.get? capability.metadata key := by
  unfold effective
  rw [apply_vault_placement_eq]
  cases placedVault p index catalog capability with
  | none => exact apply_default_metadata hkey capability
  | some vault =>
      simp only [addressKeys, List.mem_cons, List.not_mem_nil, or_false, not_or] at hkey
      have hplaced : Dict.get? (((capability.metadata.setDefault "originalUri"
          (.str (userNamespaceCapabilityUri p capability))).setDefault "originalOwner"
          (.str capability.owner)).set "vaultPlacement" (.str vault.text)) key =
          Dict.get? capability.metadata key := by
        rw [Dict.get?_set_of_ne _ _ (Ne.symm hkey.2.2.2),
          Dict.get?_setDefault_of_ne _ _ (Ne.symm hkey.2.2.1),
          Dict.get?_setDefault_of_ne _ _ (Ne.symm hkey.2.1)]
      simp only [Option.map_some, placeInVault]
      split <;> exact ⟨rfl, hplaced⟩

end

end Capmesh
