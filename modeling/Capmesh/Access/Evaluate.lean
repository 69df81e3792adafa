import Mathlib.Data.List.Sort
import Capmesh.Execution.Cascade
import Capmesh.Model.Database
import Capmesh.Model.Directory

/-!
# Access decisions

`access_control.py`: the refusals and the grants of `evaluate_access`, and the cascade
that tries them in order. A decision reads the catalog database, the directory, the
clock, and the process-wide cache of organization lookups; an `AccessContext` holds all
of them. `evaluate_access_allowed_iff` is the specification the rest of the development
uses: a supported right is allowed exactly when no refusal and some grant applies.
-/

namespace Capmesh

open Python Relational Execution

/-- `RIGHTS`. -/
def accessRights : List String :=
  ["discover", "load", "call", "delegate", "share", "submit", "publish", "approve", "manage",
    "audit"]

/-- `STEP_UP_RIGHTS`. -/
def stepUpRights : List String := ["manage", "approve", "publish"]

/-- `requires_step_up`. -/
def requiresStepUp (right : String) (capability : Option Capability) : Bool :=
  stepUpRights.contains right &&
    capability.any fun cap => cap.riskTier = .high || cap.riskTier = .critical

/-- `ROLE_RIGHTS`; a role outside the table has no rights. -/
def roleRights (role : String) : List String :=
  if role = "member" then ["discover", "load", "call"]
  else if role = "vibe_coder" then ["discover", "load", "call", "delegate", "share", "submit"]
  else if role = "publisher" then ["discover", "load", "call", "submit", "publish"]
  else if role = "namespace_admin" then
    ["discover", "load", "call", "delegate", "share", "submit", "publish", "approve", "manage",
      "audit"]
  else if role = "org_admin" || role = "platform_admin" then accessRights
  else if role = "auditor" then ["discover", "load", "audit"]
  else if role = "app_service" then ["discover", "load", "call", "delegate"]
  else []

/-- `role_has_right`. -/
def roleHasRight (role right : String) : Bool :=
  (roleRights role).contains right || (roleRights role).contains "manage"

/-- `global_role_has_right`. -/
def globalRoleHasRight (role right : String) : Bool :=
  if role = "platform_admin" || role = "org_admin" then roleHasRight role right
  else role = "auditor" && ["discover", "load", "audit"].contains right

/-- What a decision reads: the database, the directory, `_ORG_FOR_STORE_CACHE` by tenant and
store, and the clock. -/
structure AccessContext where
  db : Database
  directory : Directory
  orgCache : String → String → Option (Option String)
  now : String

/-- The identity of a principal: its own, else the one its tenant and subject name. -/
def Principal.identity (p : Platform) (principal : Principal) : String :=
  optOr principal.identityId
    (p.stableId "idn" [p.tenantOr principal.tenantId, principal.subject])

/-- `subject_refs`. -/
def subjectRefs (p : Platform) (principal : Principal) : List String :=
  ["user:" ++ principal.subject, "identity:" ++ principal.identity p] ++
    (match principal.email with
      | some email =>
          if email ≠ "" && email ≠ principal.subject then ["user:" ++ email] else []
      | none => []) ++
    (match principal.appId with
      | some app => if app ≠ "" then ["app:" ++ app] else []
      | none => []) ++
    principal.groups.map ("group:" ++ ·) ++ principal.roles.map ("role:" ++ ·)

/-- The identity rows `is_disabled` selects, the last updated one first. -/
def matchingIdentities (p : Platform) (directory : Directory) (principal : Principal) :
    List Identity :=
  (directory.identities.filter fun identity =>
    identity.tenantId = p.tenantOr principal.tenantId &&
      (identity.userName = principal.subject ||
        (present principal.identityId && some identity.id = principal.identityId) ||
        (present principal.email && identity.email = principal.email))).insertionSort
    fun a b => b.updatedAt ≤ a.updatedAt

/-- `is_disabled`. -/
def isDisabled (p : Platform) (directory : Directory) (principal : Principal) : Bool :=
  principal.disabled || !principal.authenticated ||
    (matchingIdentities p directory principal).head?.any fun identity => !identity.active

/-- `resource_refs`. -/
def resourceRefs (p : Platform) (capability : Option Capability) (resourceUri : Option String) :
    List String :=
  match capability with
  | some cap =>
      [cap.uri] ++
        (match cap.namespaceId with
          | some id => if id ≠ "" then ["namespace:" ++ id] else []
          | none => []) ++
        (match cap.storeId with
          | some id => if id ≠ "" then ["store:" ++ id] else []
          | none => []) ++
        ["tenant:" ++ p.tenantOr cap.tenantId]
  | none =>
      match resourceUri with
      | some uri => if uri ≠ "" then [uri] else []
      | none => []

/-- `has_formal_promotion_record`. -/
def hasFormalPromotionRecord (p : Platform) (db : Database) (cap : Capability) : Bool :=
  db.requests.any fun request =>
    request.tenantId = p.tenantOr cap.tenantId && request.capabilityUri = cap.uri

/-- `tuple_match`. -/
def tupleMatch (tuples : Table RelationshipTuple) (tenant : String)
    (objects relations users : List String) : Bool :=
  tuples.any fun tuple => tuple.tenantId = tenant && objects.contains tuple.object &&
    relations.contains tuple.relation && users.contains tuple.user

/-- Whether a record with this expiry has expired. -/
def expired (expiresAt : Option String) (now : String) : Bool :=
  match expiresAt with
  | some expiry => expiry ≠ "" && expiry ≤ now
  | none => false

/-- `org_id_for_store`: the cached answer, else the organization of the store. -/
def orgIdForStore (ctx : AccessContext) (storeId : Option String) (tenant : String) :
    Option String :=
  match storeId with
  | some store =>
      if store = "" then none
      else match ctx.orgCache tenant store with
        | some cached => cached
        | none => (ctx.directory.organizations.find? fun org =>
            org.storeId = store && org.tenantId = tenant).map (·.id)
  | none => none

/-- `_org_scope_matches`. -/
def orgScopeMatches (ctx : AccessContext) (role : RoleAssignment) (tenant : String)
    (capability : Option Capability) (resourceUri : Option String) : Bool :=
  match capability with
  | none => resourceUri = some ("org:" ++ role.scopeId) || resourceUri = some role.scopeId
  | some cap => orgIdForStore ctx cap.storeId (orElse cap.tenantId tenant) = some role.scopeId

/-- `role_assignment_scope_matches`. -/
def roleAssignmentScopeMatches (role : RoleAssignment) (tenant : String)
    (capability : Option Capability) (resourceUri : Option String) : Bool :=
  if role.scopeType = "tenant" then role.scopeId = tenant || role.scopeId = "*"
  else match capability with
    | none => resourceUri = some (role.scopeType ++ ":" ++ role.scopeId) ||
        resourceUri = some role.scopeId
    | some cap =>
        if role.scopeType = "store" then some role.scopeId = cap.storeId
        else if role.scopeType = "namespace" then some role.scopeId = cap.namespaceId
        else if ["capability", "resource", "object"].contains role.scopeType then
          role.scopeId = cap.uri || some role.scopeId = resourceUri
        else false

/-- Whether the scope of a role assignment covers the resource. -/
def scopeMatches (ctx : AccessContext) (role : RoleAssignment) (tenant : String)
    (capability : Option Capability) (resourceUri : Option String) : Bool :=
  if role.scopeType = "org" then orgScopeMatches ctx role tenant capability resourceUri
  else roleAssignmentScopeMatches role tenant capability resourceUri

/-- `active_role_grant`. -/
def activeRoleGrant (ctx : AccessContext) (tenant : String) (subjects : List String)
    (right : String) (capability : Option Capability) (resourceUri : Option String) : Bool :=
  ctx.db.roles.any fun role =>
    role.tenantId = tenant && !role.revoked &&
      (subjects.map (partition ':')).contains (role.subjectType, role.subjectId) &&
      !expired role.expiresAt ctx.now && scopeMatches ctx role tenant capability resourceUri &&
      roleHasRight role.role right

/-- The subject a share is made to. -/
def ShareRow.subject (share : ShareRow) : String := share.subjectType ++ ":" ++ share.subjectId

/-- Whether a share is in force. -/
def ShareRow.inForce (share : ShareRow) (now : String) : Bool :=
  share.state = .active && !share.revoked && !expired share.expiresAt now

/-- Whether a share lists a right, or lists `manage`. -/
def ShareRow.lists (share : ShareRow) (right : String) : Bool :=
  share.rights.contains right || share.rights.contains "manage"

/-- `share_grant`. -/
def shareGrant (shares : Table ShareRow) (now tenant : String) (subjects : List String)
    (uri right : String) : Bool :=
  uri ≠ "" && shares.any fun share =>
    share.tenantId = tenant && share.capabilityUri = uri && share.inForce now &&
      subjects.contains share.subject && share.lists right

/-- `namespace_member_grant`. -/
def namespaceMemberGrant (directory : Directory) (namespaceId : Option String)
    (subjects : List String) (right : String) : Bool :=
  present namespaceId && directory.members.any fun member =>
    some member.namespaceId = namespaceId && !member.revoked &&
      subjects.contains (member.subjectType ++ ":" ++ member.subjectId) &&
      (member.rights.contains right || member.rights.contains "manage" ||
        roleHasRight member.role right)

/-- The store of a capability, looked up in a tenant. -/
def Directory.storeOf (directory : Directory) (storeId : Option String) (tenant : String) :
    Option Store :=
  directory.stores.find? fun store => some store.id = storeId && store.tenantId = tenant

/-- The rights of an owner. -/
def ownerRights : List String :=
  ["discover", "load", "call", "delegate", "share", "submit", "manage"]

/-- The rights of a reader. -/
def readRights : List String := ["discover", "load", "call"]

/-- The rights of a user of a capability. -/
def useRights : List String := ["discover", "load", "call", "delegate"]

/-- `store_owner_grant`. -/
def storeOwnerGrant (p : Platform) (directory : Directory) (cap : Capability)
    (principal : Principal) (right : String) : Bool :=
  ownerRights.contains right && present cap.storeId &&
    (directory.storeOf cap.storeId (p.tenantOr cap.tenantId)).any fun store =>
      ((store.kind = .userPrivate || store.kind = .userShared) &&
          store.ownerIdentityId = some (principal.identity p)) ||
        (store.kind = .app && present principal.appId && store.ownerAppId = principal.appId)

/-- `manifest_grant`. -/
def manifestGrant (cap : Capability) (principal : Principal) (right : String) : Bool :=
  useRights.contains right &&
    (cap.allowUsers.contains principal.subject ||
      principal.groups.any (cap.allowGroups.contains ·) ||
      (!cap.requiredScopes.isEmpty && cap.requiredScopes.all (principal.scopes.contains ·)))

/-- `owner_grant`. -/
def ownerGrant (cap : Capability) (principal : Principal) (right : String) : Bool :=
  let owner := optOr cap.createdBy cap.owner
  ownerRights.contains right &&
    (owner = principal.subject || some owner = principal.identityId ||
      principal.groups.contains owner)

/-- `all_users_store_grant`. -/
def allUsersStoreGrant (p : Platform) (directory : Directory) (cap : Capability)
    (principal : Principal) (right : String) : Bool :=
  readRights.contains right && principal.authenticated && present cap.storeId &&
    p.tenantOr cap.tenantId = p.tenantOr principal.tenantId &&
    (directory.storeOf cap.storeId (p.tenantOr cap.tenantId)).any (·.kind = .allUsers)

/-- The tenant the two last grants look a capability up in. -/
def capTenant (p : Platform) (cap : Capability) (principal : Principal) : String :=
  orElse cap.tenantId (p.tenantOr principal.tenantId)

/-- `_store_is_org`. -/
def storeIsOrg (directory : Directory) (storeId : Option String) (tenant : String) : Bool :=
  present storeId && directory.stores.any fun store =>
    some store.id = storeId && store.tenantId = tenant && store.kind = .org

/-- `org_membership_grant`. -/
def orgMembershipGrant (p : Platform) (ctx : AccessContext) (cap : Capability)
    (principal : Principal) (right : String) : Bool :=
  readRights.contains right && principal.authenticated &&
    storeIsOrg ctx.directory cap.storeId (capTenant p cap principal) &&
    activeRoleGrant ctx (capTenant p cap principal) (subjectRefs p principal) right (some cap) none

/-- `default_visibility_grant`. -/
def defaultVisibilityGrant (p : Platform) (directory : Directory) (cap : Capability)
    (principal : Principal) (right : String) : Bool :=
  readRights.contains right &&
    (cap.visibility = .public ||
      (!storeIsOrg directory cap.storeId (capTenant p cap principal) &&
        cap.visibility = .internal && principal.authenticated))

/-- The approval states and lifecycles in which a capability is blocked. -/
def Capability.isBlocked (cap : Capability) : Bool :=
  [.rejected, .recalled, .demoted, .yanked].contains cap.approvalState ||
    [.disabled, .deleted, .retired, .recalled, .yanked].contains cap.lifecycle

/-- Whether production asks for the attestations of a promoted capability that lacks one. -/
def lacksIntegrity (p : Platform) (db : Database) (cap : Capability) (right : String) : Bool :=
  p.production && present cap.promotedFromUri && hasFormalPromotionRecord p db cap &&
    useRights.contains right &&
    (cap.approvalState ≠ .approved || cap.signatureStatus ≠ .verified ||
      cap.provenanceStatus ≠ .verified || cap.riskReviewStatus ≠ .approved)

/-- One request for a decision. -/
structure AccessRequest where
  principal : Principal
  right : String
  capability : Option Capability := none
  resourceUri : Option String := none

/-- The tenant a request is decided in. -/
def AccessRequest.tenant (p : Platform) (request : AccessRequest) : String :=
  orElse request.principal.tenantId
    (match request.capability with
      | some cap => p.tenantOr cap.tenantId
      | none => p.defaultTenant)

/-- The relations that deny a right. -/
def denyRelations (right : String) : List String := ["deny_" ++ right, "deny"]

/-- The relations that grant a right. -/
def grantRelations (right : String) : List String := [right, "grant_" ++ right, "owner"]

/-- Whether a deny tuple matches a request. -/
def isDenied (p : Platform) (ctx : AccessContext) (request : AccessRequest) : Bool :=
  tupleMatch ctx.db.tuples (request.tenant p)
    (resourceRefs p request.capability request.resourceUri) (denyRelations request.right)
    (subjectRefs p request.principal)

/-- The refusals of `evaluate_access`, in their order. -/
def accessRefusals (p : Platform) (ctx : AccessContext) (request : AccessRequest) : List Rule :=
  [⟨isDisabled p ctx.directory request.principal, false,
      "Principal is disabled or unauthenticated."⟩,
    ⟨request.capability.any (·.isBlocked), false,
      "Capability is inactive, recalled, demoted, rejected, or yanked."⟩,
    ⟨requiresStepUp request.right request.capability && !request.principal.stepUpAuthenticated,
      false, "Step-up authentication required for high-risk or destructive operation."⟩,
    ⟨request.capability.any (lacksIntegrity p ctx.db · request.right), false,
      "Promoted capability integrity or approval state is not valid for production use."⟩,
    ⟨isDenied p ctx request, false, "Explicit deny relationship matched."⟩]

/-- The grants of `evaluate_access`, in their order. -/
def accessGrants (p : Platform) (ctx : AccessContext) (request : AccessRequest) : List Rule :=
  let principal := request.principal
  let right := request.right
  let tenant := request.tenant p
  let subjects := subjectRefs p principal
  let onCapability := fun grant : Capability → Bool => request.capability.any grant
  [⟨principal.roles.any (globalRoleHasRight · right), true,
      "Principal role grants the requested right."⟩,
    ⟨activeRoleGrant ctx tenant subjects right request.capability request.resourceUri, true,
      "Active role assignment grants the requested right."⟩,
    ⟨shareGrant ctx.db.shares ctx.now tenant subjects
        (match request.capability with
          | some cap => cap.uri
          | none => request.resourceUri.getD "") right, true,
      "Active share grants the requested right."⟩,
    ⟨tupleMatch ctx.db.tuples tenant (resourceRefs p request.capability request.resourceUri)
        (grantRelations right) subjects, true,
      "Relationship tuple grants the requested right."⟩,
    ⟨onCapability fun cap => namespaceMemberGrant ctx.directory cap.namespaceId subjects right,
      true, "Namespace membership grants the requested right."⟩,
    ⟨onCapability fun cap => storeOwnerGrant p ctx.directory cap principal right, true,
      "Store ownership grants the requested right."⟩,
    ⟨onCapability fun cap => manifestGrant cap principal right, true,
      "Capability manifest grant matches the principal."⟩,
    ⟨onCapability fun cap => ownerGrant cap principal right, true,
      "Owner rights grant the requested right."⟩,
    ⟨onCapability fun cap => allUsersStoreGrant p ctx.directory cap principal right, true,
      "All-user store grants read-only access to authenticated tenant users."⟩,
    ⟨onCapability fun cap => orgMembershipGrant p ctx cap principal right, true,
      "Org membership grants read access to the org store."⟩,
    ⟨onCapability fun cap => defaultVisibilityGrant p ctx.directory cap principal right, true,
      "Default visibility grants the requested right."⟩]

/-- `evaluate_access`. The reason of a grant goes to the audit table alone. -/
def evaluateAccess (p : Platform) (ctx : AccessContext) (request : AccessRequest) : Access :=
  if !accessRights.contains request.right then
    ⟨false, "Unsupported right: " ++ request.right⟩
  else
    let decision := Rule.verdict "No matching grant."
      (accessRefusals p ctx request ++ accessGrants p ctx request)
    ⟨decision.1, if decision.1 then "" else decision.2⟩

/-- A request that one of the first checks refuses. -/
def Refused (p : Platform) (ctx : AccessContext) (request : AccessRequest) : Prop :=
  ∃ rule ∈ accessRefusals p ctx request, rule.applies = true

/-- A request that one of the grants answers. -/
def Granted (p : Platform) (ctx : AccessContext) (request : AccessRequest) : Prop :=
  ∃ rule ∈ accessGrants p ctx request, rule.applies = true

section

variable {p : Platform} {ctx : AccessContext} {request : AccessRequest}

theorem evaluate_access_allowed_iff : (evaluateAccess p ctx request).allowed = true ↔
    request.right ∈ accessRights ∧ ¬ Refused p ctx request ∧ Granted p ctx request := by
  have hcascade : (Rule.verdict "No matching grant."
        (accessRefusals p ctx request ++ accessGrants p ctx request)).1 = true ↔ _ :=
    Rule.verdict_allowed_iff (by simp [accessRefusals]) (by simp [accessGrants])
  have hrefused : (∀ rule ∈ accessRefusals p ctx request, rule.applies = false) ↔
      ¬ Refused p ctx request := by
    simp only [Refused, not_exists, not_and, Bool.not_eq_true]
  unfold evaluateAccess
  split
  · rename_i hunsupported
    have hnot : request.right ∉ accessRights := by simpa using hunsupported
    simp [hnot]
  · rename_i hsupported
    have hright : request.right ∈ accessRights := by simpa using hsupported
    rw [hcascade, hrefused]
    simp [hright, Granted]

end

end Capmesh
