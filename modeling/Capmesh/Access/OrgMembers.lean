import Capmesh.Access.OrgCache

/-!
# The members of an organization

The scope of a role assignment is matched by what a request names: the capability it is about, or
the text of a resource. `add_org_member`, `remove_org_member` and `list_org_members` of
`roles_orgs.py` ask about the text `store:<id>`, which an assignment scoped to the store answers
and one scoped to the organization of the store does not. `scoped_administration_iff` says for
which assignments the two ways of naming a store or a namespace agree, and who may use the three
operations.
-/

namespace Capmesh

open Python Relational Execution

/-- A row of `role_assignments`, with the columns `role_record` shows besides. -/
structure RoleRow extends RoleAssignment where
  source : String := "manual"
  createdBy : String
  createdAt : String
  deriving DecidableEq, Repr

/-- The primary key. -/
instance : Constrained RoleRow where
  Conflict a b := a.id = b.id
  symm h := h.symm

/-- A database with its directory, and the process's cache of organizations. -/
structure OrgRoster where
  catalog : OrgDatabase
  roles : Table RoleRow
  members : List NamespaceMember := []
  memo : OrgMemo := Memo.empty

namespace OrgRoster

/-- The assignments access control reads. -/
def assignments (roster : OrgRoster) : Table RoleAssignment where
  rows := roster.roles.rows.map RoleRow.toRoleAssignment
  unique := List.pairwise_map.mpr roster.roles.unique

/-- What a decision reads. -/
def context (roster : OrgRoster) (now : String) : AccessContext :=
  { roster.catalog with db := { roster.catalog.db with roles := roster.assignments } }
    |>.context roster.members roster.memo now

theorem mem_assignments {roster : OrgRoster} {row : RoleRow} (h : row ∈ roster.roles)
    (now : String) : row.toRoleAssignment ∈ (roster.context now).db.roles :=
  List.mem_map_of_mem h

end OrgRoster

/-- The payload of `add_org_member` and of `remove_org_member`. -/
structure MemberPayload where
  org : Option String := none
  storeId : Option String := none
  orgId : Option String := none
  role : Option String := none
  subjectId : Option String := none
  user : Option String := none
  subjectType : Option String := none
  source : Option String := none
  expiresAt : Option String := none

namespace MemberPayload

variable (payload : MemberPayload)

/-- The organization a payload names. -/
def reference : String := optOr payload.org (optOr payload.storeId (optOr payload.orgId ""))

/-- The subject a payload names. -/
def subject : String := optOr payload.subjectId (optOr payload.user "")

/-- The role a payload asks for. -/
def roleName : String := optOr payload.role "member"

/-- The type of the subject a payload names. -/
def kind : String := optOr payload.subjectType "user"

end MemberPayload

/-- A membership call: its caller, the two clocks, and the id `new_id` gives a new row. -/
structure MemberCall where
  principal : Principal
  payload : MemberPayload
  now : String
  timestamp : String
  newId : String

/-- `_ORG_MEMBER_ROLES`. -/
def orgMemberRoles : List String := ["member", "namespace_admin", "org_admin"]

/-- The text of the resource the operations ask about. -/
def OrganizationRow.storeUri (org : OrganizationRow) : String :=
  "store:" ++ org.storeId.getD "None"

/-- `_resolve_org`. -/
def resolveOrg (organizations : Table OrganizationRow) (tenant ref : String) :
    Except Failure OrganizationRow :=
  if ref = "" then .error (.value "An org slug, id, or store id is required.")
  else
    match organizations.find? fun org =>
        org.tenantId = tenant && (org.id = ref || org.slug = ref || org.storeId = some ref) with
    | some org => .ok org
    | none => .error (.value ("Unknown organization: " ++ ref))

/-- A request about the text of a resource. -/
def resourceRequest (principal : Principal) (right uri : String) : AccessRequest where
  principal
  right
  resourceUri := some uri

section

variable (p : Platform)

/-- The check of `add_org_member` and of `remove_org_member`: on the store of the organization,
else on the tenant. -/
def checkOrgManage (ctx : AccessContext) (principal : Principal) (org : OrganizationRow)
    (refusal : String) : Except Failure Unit :=
  if (evaluateAccess p ctx (resourceRequest principal "manage" org.storeUri)).allowed then .ok ()
  else
    let decision := evaluateAccess p ctx
      (resourceRequest principal "manage" ("tenant:" ++ p.tenantOr principal.tenantId))
    if decision.allowed then .ok () else .error (.permission (orElse decision.reason refusal))

/-- `require_admin_or_audit`. -/
def requireAdminOrAudit (ctx : AccessContext) (principal : Principal) (uri : String) :
    Except Failure Unit :=
  if ["manage", "audit"].any fun right =>
      (evaluateAccess p ctx (resourceRequest principal right uri)).allowed then .ok ()
  else .error (.permission "This listing requires the manage or audit right.")

/-- The row `add_org_member` inserts. -/
def MemberCall.row (call : MemberCall) (org : OrganizationRow) : RoleRow where
  id := call.newId
  tenantId := p.tenantOr call.principal.tenantId
  subjectType := call.payload.kind
  subjectId := call.payload.subject
  role := call.payload.roleName
  scopeType := "org"
  scopeId := org.id
  expiresAt := call.payload.expiresAt
  revoked := false
  source := optOr call.payload.source "manual"
  createdBy := call.principal.subject
  createdAt := call.timestamp

/-- `add_org_member`, with the record it returns. -/
def addOrgMember (roster : OrgRoster) (call : MemberCall) :
    Except Failure (RoleRow × OrgRoster) := do
  let tenant := p.tenantOr call.principal.tenantId
  let org ← resolveOrg roster.catalog.tables.organizations tenant call.payload.reference
  checkOrgManage p (roster.context call.now) call.principal org
    "Adding an org member requires the manage right on the org store."
  if !orgMemberRoles.contains call.payload.roleName then
    .error (.value ("Unsupported org membership role: " ++ call.payload.roleName ++
      " (use member, namespace_admin, or org_admin)."))
  else if call.payload.subject = "" then
    .error (.value "A subjectId (user email/identity) is required.")
  else
    let roles ← constrained "role_assignments.id" (roster.roles.insert? (call.row p org))
    foreignKey (roster.catalog.tables.tenants.any (·.id = tenant))
      (call.row p org, { roster with roles })

/-- Whether `remove_org_member` revokes a row. -/
def MemberCall.revokes (call : MemberCall) (org : OrganizationRow) (row : RoleRow) : Bool :=
  row.tenantId = p.tenantOr call.principal.tenantId && row.scopeType = "org" &&
    row.scopeId = org.id && row.subjectType = call.payload.kind &&
    row.subjectId = call.payload.subject && !row.revoked

/-- What `remove_org_member` returns. -/
structure MemberRemoval where
  orgId : String
  slug : String
  subjectId : String
  revoked : Nat
  state : String := "removed"
  deriving DecidableEq, Repr

/-- A row as `remove_org_member` leaves it. -/
def MemberCall.left (call : MemberCall) (org : OrganizationRow) (row : RoleRow) : RoleRow :=
  if call.revokes p org row then { row with revoked := true } else row

theorem MemberCall.left_id (call : MemberCall) (org : OrganizationRow) (row : RoleRow) :
    (call.left p org row).id = row.id := by
  unfold MemberCall.left
  split <;> rfl

theorem MemberCall.left_conflict (call : MemberCall) (org : OrganizationRow) (a b : RoleRow)
    (h : Constrained.Conflict (call.left p org a) (call.left p org b)) :
    Constrained.Conflict a b :=
  (call.left_id p org a).symm.trans (h.trans (call.left_id p org b))

/-- `remove_org_member`. -/
def removeOrgMember (roster : OrgRoster) (call : MemberCall) :
    Except Failure (MemberRemoval × OrgRoster) := do
  let org ← resolveOrg roster.catalog.tables.organizations (p.tenantOr call.principal.tenantId)
    call.payload.reference
  checkOrgManage p (roster.context call.now) call.principal org
    "Removing an org member requires the manage right on the org store."
  if call.payload.subject = "" then
    .error (.value "A subjectId (user email/identity) is required.")
  else
    let removal : MemberRemoval :=
      { orgId := org.id, slug := org.slug, subjectId := call.payload.subject
        revoked := (roster.roles.rows.filter (call.revokes p org)).length }
    .ok (removal, { roster with
      roles := roster.roles.map (call.left p org) (call.left_conflict p org) })

/-- `list_org_members`: the rows in force, the last created one first. -/
def listOrgMembers (roster : OrgRoster) (principal : Principal) (ref now : String) :
    Except Failure (List RoleRow) := do
  let tenant := p.tenantOr principal.tenantId
  let org ← resolveOrg roster.catalog.tables.organizations tenant ref
  requireAdminOrAudit p (roster.context now) principal org.storeUri
  .ok (((roster.roles.rows.filter fun row => row.tenantId = tenant && row.scopeType = "org" &&
      row.scopeId = org.id && !row.revoked).insertionSort fun a b => b.createdAt ≤ a.createdAt)
    |>.filter fun row => !expired row.expiresAt now)

end

/-- A store or a namespace. -/
inductive ScopedResource where
  | store (id : String)
  | space (id : String)

/-- The text that names a store or a namespace. -/
def ScopedResource.uri : ScopedResource → String
  | .store id => "store:" ++ id
  | .space id => "namespace:" ++ id

/-- Whether a capability is in a store or a namespace. -/
def ScopedResource.contains : ScopedResource → Capability → Prop
  | .store id, cap => cap.storeId = some id
  | .space id, cap => cap.namespaceId = some id

/-- An assignment is scoped to a store or a namespace, or to the organization of a store. -/
def RoleAssignment.ScopedTo (ctx : AccessContext) (role : RoleAssignment) :
    ScopedResource → Prop
  | .store id => role.scopeType = "store" ∧ role.scopeId = id ∨
      role.scopeType = "org" ∧ ∃ org ∈ ctx.directory.organizations,
        org.id = role.scopeId ∧ org.storeId = id ∧ org.tenantId = role.tenantId
  | .space id => role.scopeType = "namespace" ∧ role.scopeId = id

/-- Whether `active_role_grant` grants a right through an assignment. -/
def RoleAssignment.grants (ctx : AccessContext) (tenant : String) (subjects : List String)
    (right : String) (capability : Option Capability) (resourceUri : Option String)
    (role : RoleAssignment) : Bool :=
  role.tenantId = tenant && !role.revoked &&
    (subjects.map (partition ':')).contains (role.subjectType, role.subjectId) &&
    !expired role.expiresAt ctx.now && scopeMatches ctx role tenant capability resourceUri &&
    roleHasRight role.role right

/-- The principal is an `org_admin` of an organization, by an assignment in force. -/
def OrgAdmin (p : Platform) (ctx : AccessContext) (principal : Principal)
    (org : OrganizationRow) : Prop :=
  ∃ role ∈ ctx.db.roles, role.tenantId = p.tenantOr principal.tenantId ∧ role.revoked = false ∧
    (role.subjectType, role.subjectId) ∈ (subjectRefs p principal).map (partition ':') ∧
    expired role.expiresAt ctx.now = false ∧ role.role = "org_admin" ∧ role.scopeType = "org" ∧
    role.scopeId = org.id

/-- A decision about the text of a resource without the assignments scoped to an organization,
but for one whose organization is spelled as the resource. -/
def AccessContext.withoutOrgs (ctx : AccessContext) (uri : String) : AccessContext :=
  { ctx with db := { ctx.db with
      roles := ctx.db.roles.filter fun role => role.scopeType ≠ "org" || role.scopeId = uri } }

/-- The principal has a right on a resource, not counting those assignments. -/
def HasOtherwise (p : Platform) (ctx : AccessContext) (principal : Principal)
    (right uri : String) : Prop :=
  (evaluateAccess p (ctx.withoutOrgs uri) (resourceRequest principal right uri)).allowed = true

section

variable {p : Platform} {ctx : AccessContext} {role : RoleAssignment} {tenant right : String}
variable {subjects : List String} {principal : Principal}

theorem active_role_grant_through_iff {capability : Option Capability} {resourceUri : Option String} :
    activeRoleGrant ctx tenant subjects right capability resourceUri = true ↔
      ∃ role ∈ ctx.db.roles,
        role.grants ctx tenant subjects right capability resourceUri = true :=
  Table.any_iff

/-- The text of a store or a namespace is not that of an organization. -/
theorem ScopedResource.uri_ne_org (resource : ScopedResource) (id : String) :
    resource.uri ≠ "org:" ++ id := by
  cases resource with
  | store store =>
      intro h
      have hchars := congrArg String.toList h
      simp [ScopedResource.uri] at hchars
  | space space =>
      intro h
      have hchars := congrArg String.toList h
      simp [ScopedResource.uri] at hchars

/-- By its text, a store or a namespace is covered by an assignment scoped to itself, and by no
organization's that is not spelled so. -/
theorem scope_matches_text_iff {resource : ScopedResource} (h : role.ScopedTo ctx resource) :
    scopeMatches ctx role tenant none (some resource.uri) = true ↔
      role.scopeType ≠ "org" ∨ role.scopeId = resource.uri := by
  unfold scopeMatches
  by_cases horg : role.scopeType = "org"
  · have hother := resource.uri_ne_org role.scopeId
    simp only [horg, if_true, orgScopeMatches, Option.some.injEq, hother, decide_false,
      Bool.false_or, decide_eq_true_eq, ne_eq, not_true_eq_false, false_or]
    exact eq_comm
  · simp only [horg, if_false, ne_eq, not_false_eq_true, true_or, iff_true]
    cases resource with
    | store id =>
        obtain ⟨htype, hid⟩ := h.resolve_right fun h => horg h.1
        simp [roleAssignmentScopeMatches, htype, hid, ScopedResource.uri]
    | space id =>
        obtain ⟨htype, hid⟩ := h
        simp [roleAssignmentScopeMatches, htype, hid, ScopedResource.uri]

theorem grants_text_iff {resource : ScopedResource} (h : role.ScopedTo ctx resource)
    {cap : Capability} {resourceUri : Option String}
    (hgrants : role.grants ctx tenant subjects right (some cap) resourceUri = true) :
    role.grants ctx tenant subjects right none (some resource.uri) = true ↔
      role.scopeType ≠ "org" ∨ role.scopeId = resource.uri := by
  have hscope : scopeMatches ctx role tenant none (some resource.uri) = true ↔ _ :=
    scope_matches_text_iff h
  rw [← hscope]
  unfold RoleAssignment.grants at hgrants ⊢
  simp only [Bool.and_eq_true] at hgrants ⊢
  obtain ⟨⟨hforce, -⟩, hright⟩ := hgrants
  exact ⟨fun h => h.1.2, fun h => ⟨⟨hforce, h⟩, hright⟩⟩

/-- Without assignments of organizations, the scopes that cover a text are the same. -/
theorem active_role_grant_without_orgs {uri : String} (huri : ∀ id, uri ≠ "org:" ++ id) :
    activeRoleGrant (ctx.withoutOrgs uri) tenant subjects right none (some uri) =
      activeRoleGrant ctx tenant subjects right none (some uri) := by
  refine Bool.eq_iff_iff.mpr ?_
  rw [active_role_grant_through_iff, active_role_grant_through_iff]
  constructor
  · intro ⟨role, hrole, hgrants⟩
    exact ⟨role, ((Table.mem_filter role).mp hrole).1, hgrants⟩
  · intro ⟨role, hrole, hgrants⟩
    refine ⟨role, (Table.mem_filter role).mpr ⟨hrole, ?_⟩, hgrants⟩
    by_cases horg : role.scopeType = "org"
    · have hscope : scopeMatches ctx role tenant none (some uri) = true := by
        simp only [RoleAssignment.grants, Bool.and_eq_true] at hgrants
        exact hgrants.1.2
      have hspelled : role.scopeId = uri := by
        simpa [scopeMatches, horg, orgScopeMatches, huri, eq_comm] using hscope
      simp [hspelled]
    · simp [horg]

/-- A decision about a text that is not an organization's does not count the assignments scoped to
one. -/
theorem evaluate_access_without_orgs {uri : String} (huri : ∀ id, uri ≠ "org:" ++ id) :
    evaluateAccess p (ctx.withoutOrgs uri) (resourceRequest principal right uri) =
      evaluateAccess p ctx (resourceRequest principal right uri) := by
  have hroles : ∀ tenant subjects,
      activeRoleGrant (ctx.withoutOrgs uri) tenant subjects right none (some uri) =
        activeRoleGrant ctx tenant subjects right none (some uri) :=
    fun _ _ => active_role_grant_without_orgs huri
  have hgrants : accessGrants p (ctx.withoutOrgs uri) (resourceRequest principal right uri) =
      accessGrants p ctx (resourceRequest principal right uri) := by
    unfold accessGrants
    simp only [resourceRequest, hroles]
    rfl
  have hrefusals : accessRefusals p (ctx.withoutOrgs uri) (resourceRequest principal right uri) =
      accessRefusals p ctx (resourceRequest principal right uri) := rfl
  unfold evaluateAccess
  rw [hgrants, hrefusals]

theorem has_otherwise_iff {uri : String} (huri : ∀ id, uri ≠ "org:" ++ id) :
    HasOtherwise p ctx principal right uri ↔
      (evaluateAccess p ctx (resourceRequest principal right uri)).allowed = true := by
  unfold HasOtherwise
  rw [evaluate_access_without_orgs huri]

theorem OrganizationRow.store_uri_ne_org (org : OrganizationRow) (id : String) :
    org.storeUri ≠ "org:" ++ id :=
  (ScopedResource.store (org.storeId.getD "None")).uri_ne_org id

theorem tenant_uri_ne_org (tenant id : String) : "tenant:" ++ tenant ≠ "org:" ++ id := by
  intro h
  have hchars := congrArg String.toList h
  simp at hchars

/-- Who passes the check of `add_org_member` and `remove_org_member`. -/
theorem check_org_manage_iff {org : OrganizationRow} {refusal : String} :
    checkOrgManage p ctx principal org refusal = .ok () ↔
      HasOtherwise p ctx principal "manage" org.storeUri ∨
        HasOtherwise p ctx principal "manage" ("tenant:" ++ p.tenantOr principal.tenantId) := by
  rw [has_otherwise_iff org.store_uri_ne_org, has_otherwise_iff (tenant_uri_ne_org _)]
  unfold checkOrgManage
  split
  · rename_i hstore
    simp [hstore]
  · rename_i hstore
    dsimp only
    split
    · rename_i htenant
      simp [htenant]
    · rename_i htenant
      simp [hstore, htenant]

/-- Who passes the check of `list_org_members`. -/
theorem require_admin_or_audit_iff {org : OrganizationRow} :
    requireAdminOrAudit p ctx principal org.storeUri = .ok () ↔
      HasOtherwise p ctx principal "manage" org.storeUri ∨
        HasOtherwise p ctx principal "audit" org.storeUri := by
  rw [has_otherwise_iff org.store_uri_ne_org, has_otherwise_iff org.store_uri_ne_org]
  unfold requireAdminOrAudit
  split
  · rename_i hallowed
    simpa using hallowed
  · rename_i hrefused
    simpa using hrefused

end

section

variable {p : Platform} {roster : OrgRoster} {call : MemberCall} {org : OrganizationRow}

/-- A call of a member operation that names an organization and a subject, and a role an
organization has. -/
structure MemberCall.WellFormed (p : Platform) (roster : OrgRoster) (call : MemberCall)
    (org : OrganizationRow) : Prop where
  resolves : resolveOrg roster.catalog.tables.organizations
    (p.tenantOr call.principal.tenantId) call.payload.reference = .ok org
  role : call.payload.roleName ∈ orgMemberRoles
  subject : call.payload.subject ≠ ""
  fresh : ∀ row ∈ roster.roles, row.id ≠ call.newId
  tenant : roster.catalog.tables.tenants.any (·.id = p.tenantOr call.principal.tenantId) = true

/-- A well-formed call of `add_org_member` succeeds exactly when it passes the check. -/
theorem add_org_member_iff (h : call.WellFormed p roster org) :
    (∃ result, addOrgMember p roster call = .ok result) ↔
      checkOrgManage p (roster.context call.now) call.principal org
        "Adding an org member requires the manage right on the org store." = .ok () := by
  unfold addOrgMember
  simp only [h.resolves, bind, Except.bind]
  cases hcheck : checkOrgManage p (roster.context call.now) call.principal org
      "Adding an org member requires the manage right on the org store." with
  | error failure => simp
  | ok =>
      obtain ⟨roles, hinsert⟩ := Option.isSome_iff_exists.mp
        (Table.insert?_isSome_iff.mpr h.fresh : (roster.roles.insert? (call.row p org)).isSome)
      simp [h.role, h.subject, hinsert, constrained, foreignKey, h.tenant]

/-- A well-formed call of `remove_org_member` succeeds exactly when it passes the check. -/
theorem remove_org_member_iff (h : call.WellFormed p roster org) :
    (∃ result, removeOrgMember p roster call = .ok result) ↔
      checkOrgManage p (roster.context call.now) call.principal org
        "Removing an org member requires the manage right on the org store." = .ok () := by
  unfold removeOrgMember
  simp only [h.resolves, bind, Except.bind]
  cases hcheck : checkOrgManage p (roster.context call.now) call.principal org
      "Removing an org member requires the manage right on the org store." with
  | error failure => simp
  | ok => simp [h.subject]

/-- A call of `list_org_members` on an organization succeeds exactly when it passes the check. -/
theorem list_org_members_iff {principal : Principal} {ref now : String}
    (h : resolveOrg roster.catalog.tables.organizations (p.tenantOr principal.tenantId) ref =
      .ok org) :
    (∃ result, listOrgMembers p roster principal ref now = .ok result) ↔
      requireAdminOrAudit p (roster.context now) principal org.storeUri = .ok () := by
  unfold listOrgMembers
  simp only [h, bind, Except.bind]
  cases hcheck : requireAdminOrAudit p (roster.context now) principal org.storeUri with
  | error failure => simp
  | ok => simp

end

/-- An assignment that grants a right on the capabilities of a store or a namespace, by a scope
that is the store, the namespace, or the organization of the store, grants it on the text of the
store or namespace exactly when the scope is not an organization that is spelled otherwise. So an
`org_admin` of an organization may add, remove and list its members exactly when it has `manage`
(or `audit`, for the list) without its organizations. -/
theorem scoped_administration_iff (p : Platform) (roster : OrgRoster) (now : String) :
    (∀ role ∈ (roster.context now).db.roles, ∀ resource cap tenant subjects right resourceUri,
      role.ScopedTo (roster.context now) resource → resource.contains cap →
      role.grants (roster.context now) tenant subjects right (some cap) resourceUri = true →
      (role.grants (roster.context now) tenant subjects right none (some resource.uri) = true ↔
        role.scopeType ≠ "org" ∨ role.scopeId = resource.uri)) ∧
    ∀ principal org, OrgAdmin p (roster.context now) principal org →
      (∀ call : MemberCall, call.principal = principal → call.now = now →
        call.WellFormed p roster org →
        ((∃ result, addOrgMember p roster call = .ok result) ↔
          HasOtherwise p (roster.context now) principal "manage" org.storeUri ∨
            HasOtherwise p (roster.context now) principal "manage"
              ("tenant:" ++ p.tenantOr principal.tenantId)) ∧
        ((∃ result, removeOrgMember p roster call = .ok result) ↔
          HasOtherwise p (roster.context now) principal "manage" org.storeUri ∨
            HasOtherwise p (roster.context now) principal "manage"
              ("tenant:" ++ p.tenantOr principal.tenantId))) ∧
      ∀ ref, resolveOrg roster.catalog.tables.organizations (p.tenantOr principal.tenantId) ref =
          .ok org →
        ((∃ result, listOrgMembers p roster principal ref now = .ok result) ↔
          HasOtherwise p (roster.context now) principal "manage" org.storeUri ∨
            HasOtherwise p (roster.context now) principal "audit" org.storeUri) := by
  refine ⟨fun role _ resource cap tenant subjects right resourceUri hscoped _ hgrants =>
    grants_text_iff hscoped hgrants, fun principal org _ => ⟨?_, ?_⟩⟩
  · intro call hprincipal hnow hcall
    subst hprincipal hnow
    rw [add_org_member_iff hcall, remove_org_member_iff hcall, check_org_manage_iff,
      check_org_manage_iff]
    exact ⟨Iff.rfl, Iff.rfl⟩
  · intro ref hresolves
    rw [list_org_members_iff hresolves, require_admin_or_audit_iff]

/-- The organization of the store `store_acme`. -/
def acme : OrganizationRow where
  id := "org_acme"
  tenantId := "asg"
  slug := "acme"
  displayName := "Acme"
  storeId := some "store_acme"

/-- Bob is an `org_admin` of it. -/
def bobAdministers : RoleRow where
  id := "rol_1"
  tenantId := "asg"
  subjectType := "user"
  subjectId := "bob"
  role := "org_admin"
  scopeType := "org"
  scopeId := "org_acme"
  expiresAt := none
  revoked := false
  createdBy := "root"
  createdAt := "2026-01-01 00:00:00"

/-- Carol is one too, and administers the store itself. -/
def carolAdministers : RoleRow :=
  { bobAdministers with id := "rol_2", subjectId := "carol" }

def carolOwnsStore : RoleRow :=
  { bobAdministers with
    id := "rol_3", subjectId := "carol", scopeType := "store", scopeId := "store_acme" }

theorem acme_tenant :
    [({ id := "asg", slug := "asg", displayName := "the company" } : TenantRow)].Pairwise
      fun a b => ¬ Relational.Constrained.Conflict a b :=
  List.pairwise_singleton _ _

/-- A directory with that organization. -/
def acmeRoster : OrgRoster where
  catalog :=
    { db := Database.empty
      tables :=
        { tenants := ⟨[{ id := "asg", slug := "asg", displayName := "the company" }], acme_tenant⟩
          identities := .empty
          apps := .empty
          stores := ⟨[{ id := "store_acme", tenantId := "asg", kind := .org, name := "Acme"
                        uriPrefix := "cap://org/asg/acme" }], List.pairwise_singleton _ _⟩
          organizations := ⟨[acme], List.pairwise_singleton _ _⟩
          namespaces := .empty } }
  roles := ⟨[bobAdministers, carolAdministers, carolOwnsStore], by decide⟩

/-- A capability of the store of the organization. -/
def acmeNotes : Capability := { notesSkill "sha256:v1" with storeId := some "store_acme" }

/-- A call that makes dave a member of the organization. -/
def addDave (caller : String) : MemberCall where
  principal := { subject := caller, tenantId := "asg" }
  payload := { org := some "acme", subjectId := some "dave" }
  now := "2026-01-02T00:00:00Z"
  timestamp := "2026-01-02 00:00:00"
  newId := "rol_4"

/-- Bob may manage the capabilities of his organization's store, and not the store by its text: he
may neither add nor remove a member, nor list them. -/
theorem scoped_administration_counterexample :
    (¬ ∀ (roster : OrgRoster) (now : String),
      ∀ role ∈ (roster.context now).db.roles, ∀ resource cap tenant subjects right resourceUri,
        role.ScopedTo (roster.context now) resource → resource.contains cap →
        role.grants (roster.context now) tenant subjects right (some cap) resourceUri = true →
        role.grants (roster.context now) tenant subjects right none (some resource.uri) = true) ∧
    ¬ ∀ (p : Platform) (roster : OrgRoster) (now : String) principal org,
      OrgAdmin p (roster.context now) principal org →
        (∀ call : MemberCall, call.principal = principal → call.now = now →
          call.WellFormed p roster org →
          (∃ result, addOrgMember p roster call = .ok result) ∧
            ∃ result, removeOrgMember p roster call = .ok result) ∧
        ∀ ref, resolveOrg roster.catalog.tables.organizations
            (p.tenantOr principal.tenantId) ref = .ok org →
          ∃ result, listOrgMembers p roster principal ref now = .ok result := by
  have hbob : bobAdministers.toRoleAssignment ∈
      (acmeRoster.context "2026-01-02T00:00:00Z").db.roles :=
    OrgRoster.mem_assignments List.mem_cons_self _
  have hscoped : bobAdministers.ScopedTo (acmeRoster.context "2026-01-02T00:00:00Z")
      (.store "store_acme") :=
    .inr ⟨rfl, ⟨"asg", "store_acme", true, "org_acme"⟩, by decide +kernel, rfl, rfl, rfl⟩
  have hcall : (addDave "bob").WellFormed .sample acmeRoster acme :=
    ⟨by decide +kernel, by decide +kernel, by decide +kernel, by decide +kernel, by decide +kernel⟩
  constructor
  · intro hclaim
    have htext := hclaim acmeRoster "2026-01-02T00:00:00Z"
      bobAdministers.toRoleAssignment hbob (.store "store_acme") acmeNotes "asg"
      ["user:bob"] "manage" none hscoped rfl (by decide +kernel)
    revert htext
    decide +kernel
  · intro hclaim
    obtain ⟨⟨roster, hadded⟩, -⟩ := (hclaim .sample acmeRoster "2026-01-02T00:00:00Z"
      (addDave "bob").principal acme
      ⟨bobAdministers.toRoleAssignment, hbob, by decide +kernel⟩).1 (addDave "bob") rfl rfl hcall
    have hrefused : (addOrgMember .sample acmeRoster (addDave "bob")).toOption.isNone := by
      decide +kernel
    rw [hadded] at hrefused
    cases hrefused

/-- Carol, who administers the store besides, may add dave. -/
theorem scoped_administration_carol :
    ∃ result, addOrgMember .sample acmeRoster (addDave "carol") = .ok result :=
  ((((scoped_administration_iff .sample acmeRoster "2026-01-02T00:00:00Z").2
    (addDave "carol").principal acme ⟨carolAdministers.toRoleAssignment,
      OrgRoster.mem_assignments (.tail _ List.mem_cons_self) _, by decide +kernel⟩).1
      (addDave "carol") rfl rfl
      ⟨by decide +kernel, by decide +kernel, by decide +kernel, by decide +kernel,
        by decide +kernel⟩).1).mpr (.inl (by unfold HasOtherwise; decide +kernel))

end Capmesh
