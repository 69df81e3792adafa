import Capmesh.Access.Monotone

/-!
# Access across tenants

A principal of one tenant asks for a right on a capability of another one, and the
records of its own tenant name nothing of that other tenant. Its relationship tuples, its
shares, its scoped role assignments, its stores, and the stores for all users of a tenant
then grant nothing, but some grants compare a role, a subject or a visibility and no tenant.
`CrossesTenants` lists them, and `tenant_isolation_iff` says that the request is refused
exactly when none of them gives the right.
-/

namespace Capmesh

open Python Relational Execution

/-- A role assignment in force, made to one of the principal's subjects, with a right. -/
structure RoleAssignment.Grants (p : Platform) (ctx : AccessContext) (principal : Principal)
    (right : String) (role : RoleAssignment) : Prop where
  recorded : role ∈ ctx.db.roles
  kept : role.revoked = false
  named : (role.subjectType, role.subjectId) ∈ (subjectRefs p principal).map (partition ':')
  unexpired : expired role.expiresAt ctx.now = false
  right : roleHasRight role.role right = true

/-- The records of a principal's tenant, and the memberships and stores of the principal, do not
name a capability. -/
structure NamesNothingOf (p : Platform) (ctx : AccessContext) (principal : Principal)
    (cap : Capability) : Prop where
  tuples : ∀ tuple ∈ ctx.db.tuples, tuple.tenantId = principal.tenantId →
    tuple.object ∉ resourceRefs p (some cap) none
  roles : ∀ role ∈ ctx.db.roles, role.tenantId = principal.tenantId →
    role.scopeType ≠ "tenant" → scopeMatches ctx role principal.tenantId (some cap) none = false
  shares : ∀ share ∈ ctx.db.shares, share.tenantId = principal.tenantId →
    share.capabilityUri ≠ cap.uri
  members : ∀ member ∈ ctx.directory.members,
    member.subjectType ++ ":" ++ member.subjectId ∈ subjectRefs p principal →
    some member.namespaceId ≠ cap.namespaceId
  stores : ∀ store ∈ ctx.directory.stores,
    store.ownerIdentityId = some (principal.identity p) → store.tenantId = principal.tenantId

/-- The checks before the grants let a right on a capability through. -/
structure PassesChecks (p : Platform) (ctx : AccessContext) (principal : Principal)
    (cap : Capability) (right : String) : Prop where
  supported : right ∈ accessRights
  enabled : isDisabled p ctx.directory principal = false
  unblocked : cap.isBlocked = false
  stepUp : requiresStepUp right (some cap) = true → principal.stepUpAuthenticated = true
  intact : lacksIntegrity p ctx.db cap right = false

/-- How a right on a capability of another tenant is granted. -/
inductive CrossesTenants (p : Platform) (ctx : AccessContext) (principal : Principal)
    (cap : Capability) (right : String) : Prop where
  | globalRole (role : String) :
      role ∈ principal.roles → globalRoleHasRight role right = true →
      CrossesTenants p ctx principal cap right
  /-- A role that the principal's tenant assigned for the whole tenant: the tenant of the
  capability is not compared with it. -/
  | tenantRole (role : RoleAssignment) :
      role.Grants p ctx principal right → role.tenantId = principal.tenantId →
      role.scopeType = "tenant" → role.scopeId = principal.tenantId ∨ role.scopeId = "*" →
      CrossesTenants p ctx principal cap right
  /-- A role that the other tenant assigned to the same subject, over its organization store. -/
  | foreignRole (role : RoleAssignment) :
      role.Grants p ctx principal right → cap.tenantId ≠ "" → role.tenantId = cap.tenantId →
      right ∈ readRights → storeIsOrg ctx.directory cap.storeId cap.tenantId = true →
      scopeMatches ctx role cap.tenantId (some cap) none = true →
      CrossesTenants p ctx principal cap right
  /-- The application the principal acts for owns the store. -/
  | app (store : Store) :
      right ∈ ownerRights → present cap.storeId = true →
      ctx.directory.storeOf cap.storeId (p.tenantOr cap.tenantId) = some store →
      store.kind = .app → present principal.appId = true → store.ownerAppId = principal.appId →
      CrossesTenants p ctx principal cap right
  /-- The manifest names a user, a group or scopes, and no tenant. -/
  | manifest : manifestGrant cap principal right = true → CrossesTenants p ctx principal cap right
  /-- The owner is compared with a subject and with groups, and not with a tenant. -/
  | owner : ownerGrant cap principal right = true → CrossesTenants p ctx principal cap right
  /-- Internal visibility outside an organization store is open to everybody. -/
  | internal :
      cap.visibility = .internal → right ∈ readRights →
      storeIsOrg ctx.directory cap.storeId (capTenant p cap principal) = false →
      CrossesTenants p ctx principal cap right

section

variable {p : Platform} {ctx : AccessContext} {principal : Principal} {cap : Capability}
variable {right : String}

theorem active_role_grant_iff {tenant : String} {capability : Option Capability}
    {resourceUri : Option String} :
    activeRoleGrant ctx tenant (subjectRefs p principal) right capability resourceUri = true ↔
      ∃ role : RoleAssignment, role.Grants p ctx principal right ∧ role.tenantId = tenant ∧
        scopeMatches ctx role tenant capability resourceUri = true := by
  simp only [activeRoleGrant, Table.any_iff, Bool.and_eq_true, decide_eq_true_eq,
    Bool.not_eq_true', List.contains_eq_mem]
  constructor
  · rintro ⟨role, hrole, ⟨⟨⟨⟨htenant, hkept⟩, hnamed⟩, hfresh⟩, hscope⟩, hright⟩
    exact ⟨role, ⟨hrole, hkept, hnamed, hfresh, hright⟩, htenant, hscope⟩
  · rintro ⟨role, ⟨hrole, hkept, hnamed, hfresh, hright⟩, htenant, hscope⟩
    exact ⟨role, hrole, ⟨⟨⟨⟨htenant, hkept⟩, hnamed⟩, hfresh⟩, hscope⟩, hright⟩

theorem own_role_iff (hnames : NamesNothingOf p ctx principal cap) :
    activeRoleGrant ctx principal.tenantId (subjectRefs p principal) right (some cap) none = true ↔
      ∃ role : RoleAssignment, role.Grants p ctx principal right ∧
        role.tenantId = principal.tenantId ∧ role.scopeType = "tenant" ∧
        (role.scopeId = principal.tenantId ∨ role.scopeId = "*") := by
  rw [active_role_grant_iff]
  refine exists_congr fun role => and_congr_right fun hgrants => and_congr_right fun htenant => ?_
  constructor
  · intro hscope
    have htype : role.scopeType = "tenant" := by
      by_contra hscoped
      rw [hnames.roles role hgrants.recorded htenant hscoped] at hscope
      cases hscope
    exact ⟨htype, by simpa [scopeMatches, roleAssignmentScopeMatches, htype] using hscope⟩
  · rintro ⟨htype, hid⟩
    simpa [scopeMatches, roleAssignmentScopeMatches, htype] using hid

theorem not_share_of_names (hnames : NamesNothingOf p ctx principal cap) :
    shareGrant ctx.db.shares ctx.now principal.tenantId (subjectRefs p principal) cap.uri right =
      false := by
  rw [← Bool.not_eq_true]
  intro h
  simp only [shareGrant, Bool.and_eq_true, Table.any_iff, decide_eq_true_eq] at h
  obtain ⟨-, share, hshare, ⟨⟨⟨htenant, huri⟩, -⟩, -⟩, -⟩ := h
  exact hnames.shares share hshare htenant huri

theorem not_tuple_of_names (hnames : NamesNothingOf p ctx principal cap)
    {relations : List String} :
    tupleMatch ctx.db.tuples principal.tenantId (resourceRefs p (some cap) none) relations
      (subjectRefs p principal) = false := by
  rw [← Bool.not_eq_true]
  intro h
  obtain ⟨tuple, htuple, htenant, hobject, -, -⟩ := tuple_match_iff.mp h
  exact hnames.tuples tuple htuple htenant hobject

theorem not_member_of_names (hnames : NamesNothingOf p ctx principal cap) :
    namespaceMemberGrant ctx.directory cap.namespaceId (subjectRefs p principal) right = false := by
  rw [← Bool.not_eq_true]
  intro h
  simp only [namespaceMemberGrant, Bool.and_eq_true, List.any_eq_true, List.contains_eq_mem,
    decide_eq_true_eq] at h
  obtain ⟨-, member, hmember, ⟨⟨hnamespace, -⟩, hsubject⟩, -⟩ := h
  exact hnames.members member hmember hsubject hnamespace

/-- The store of the capability is not the principal's, so only an application can own it. -/
theorem store_owner_iff (hnames : NamesNothingOf p ctx principal cap)
    (hforeign : p.tenantOr cap.tenantId ≠ principal.tenantId) :
    storeOwnerGrant p ctx.directory cap principal right = true ↔ right ∈ ownerRights ∧
      present cap.storeId = true ∧ ∃ store : Store,
        ctx.directory.storeOf cap.storeId (p.tenantOr cap.tenantId) = some store ∧
        store.kind = .app ∧ present principal.appId = true ∧
        store.ownerAppId = principal.appId := by
  simp only [storeOwnerGrant, Bool.and_eq_true, List.contains_eq_mem, decide_eq_true_eq,
    Option.any_eq_true, and_assoc]
  refine and_congr_right fun _ => and_congr_right fun _ => exists_congr fun store =>
    and_congr_right fun hstore => ?_
  have hkey := List.find?_some hstore
  simp only [Bool.and_eq_true, Bool.or_eq_true, decide_eq_true_eq] at hkey ⊢
  constructor
  · rintro (⟨-, hidentity⟩ | ⟨⟨hkind, hpresent⟩, happ⟩)
    · have htenant := hnames.stores store (List.mem_of_find?_eq_some hstore) hidentity
      exact absurd (hkey.2.symm.trans htenant) hforeign
    · exact ⟨hkind, hpresent, happ⟩
  · rintro ⟨hkind, hpresent, happ⟩
    exact .inr ⟨⟨hkind, hpresent⟩, happ⟩

/-- Organization membership reads the role assignments of the capability's tenant. -/
theorem org_membership_crosses (hnames : NamesNothingOf p ctx principal cap)
    (htenant : principal.tenantId ≠ "")
    (h : orgMembershipGrant p ctx cap principal right = true) :
    CrossesTenants p ctx principal cap right := by
  simp only [orgMembershipGrant, Bool.and_eq_true, List.contains_eq_mem, decide_eq_true_eq] at h
  obtain ⟨⟨⟨hread, -⟩, horg⟩, hrole⟩ := h
  by_cases hcap : cap.tenantId = ""
  · -- A capability without a tenant is looked up in the principal's own.
    have hown : capTenant p cap principal = principal.tenantId := by
      unfold capTenant
      rw [hcap]
      exact or_else_of_ne _ htenant
    rw [hown] at hrole
    obtain ⟨role, hgrants, hroleTenant, htype, hid⟩ := (own_role_iff hnames).mp hrole
    exact .tenantRole role hgrants hroleTenant htype hid
  · have hforeign : capTenant p cap principal = cap.tenantId := or_else_of_ne _ hcap
    rw [hforeign] at hrole horg
    obtain ⟨role, hgrants, hroleTenant, hscope⟩ := active_role_grant_iff.mp hrole
    exact .foreignRole role hgrants hcap hroleTenant hread horg hscope

/-- The grants that reach a capability of another tenant. -/
theorem crosses_tenants_iff (htenant : principal.tenantId ≠ "")
    (hforeign : p.tenantOr cap.tenantId ≠ principal.tenantId)
    (hvisibility : cap.visibility ≠ .public) (hnames : NamesNothingOf p ctx principal cap)
    (hauthenticated : principal.authenticated = true) :
    Granted p ctx ⟨principal, right, some cap, none⟩ ↔ CrossesTenants p ctx principal cap right := by
  have hasked : AccessRequest.tenant p ⟨principal, right, some cap, none⟩ = principal.tenantId :=
    or_else_of_ne _ htenant
  -- The store of all users compares the two tenants.
  have hall : allUsersStoreGrant p ctx.directory cap principal right = false := by
    have hown : p.tenantOr principal.tenantId = principal.tenantId := or_else_of_ne _ htenant
    simp [allUsersStoreGrant, hown, hforeign]
  simp only [Granted, accessGrants, hasked, List.exists_mem_cons_iff, List.not_mem_nil, false_and,
    exists_false, or_false, Option.any_some, not_share_of_names hnames,
    not_tuple_of_names hnames, not_member_of_names hnames, hall, Bool.false_eq_true, false_or]
  constructor
  · rintro (hglobal | hrole | hstore | hmanifest | howner | horg | hdefault)
    · obtain ⟨role, hrole, hright⟩ := List.any_eq_true.mp hglobal
      exact .globalRole role hrole hright
    · obtain ⟨role, hgrants, hroleTenant, htype, hid⟩ := (own_role_iff hnames).mp hrole
      exact .tenantRole role hgrants hroleTenant htype hid
    · obtain ⟨hright, hstored, store, hfound, hkind, hpresent, happ⟩ :=
        (store_owner_iff hnames hforeign).mp hstore
      exact .app store hright hstored hfound hkind hpresent happ
    · exact .manifest hmanifest
    · exact .owner howner
    · exact org_membership_crosses hnames htenant horg
    · simp only [defaultVisibilityGrant, hvisibility, decide_false, Bool.false_or,
        Bool.and_eq_true, Bool.not_eq_true', decide_eq_true_eq, List.contains_eq_mem] at hdefault
      exact .internal hdefault.2.1.2 hdefault.1 hdefault.2.1.1
  · intro hcrosses
    cases hcrosses with
    | globalRole role hrole hright => exact .inl (List.any_eq_true.mpr ⟨role, hrole, hright⟩)
    | tenantRole role hgrants hroleTenant htype hid =>
        exact .inr (.inl ((own_role_iff hnames).mpr ⟨role, hgrants, hroleTenant, htype, hid⟩))
    | foreignRole role hgrants hcap hroleTenant hread horg hscope =>
        have hown : capTenant p cap principal = cap.tenantId := or_else_of_ne _ hcap
        refine .inr (.inr (.inr (.inr (.inr (.inl ?_)))))
        have hrole := active_role_grant_iff.mpr ⟨role, hgrants, hroleTenant, hscope⟩
        simp [orgMembershipGrant, hown, hread, hauthenticated, horg, hrole]
    | app store hright hstored hfound hkind hpresent happ =>
        exact .inr (.inr (.inl ((store_owner_iff hnames hforeign).mpr
          ⟨hright, hstored, store, hfound, hkind, hpresent, happ⟩)))
    | manifest hmanifest => exact .inr (.inr (.inr (.inl hmanifest)))
    | owner howner => exact .inr (.inr (.inr (.inr (.inl howner))))
    | internal hinternal hread horg =>
        refine .inr (.inr (.inr (.inr (.inr (.inr ?_)))))
        simp [defaultVisibilityGrant, hread, hinternal, horg, hauthenticated]

/-- No deny tuple names the capability, so the other checks decide whether a request is refused. -/
theorem passes_checks_iff (htenant : principal.tenantId ≠ "")
    (hnames : NamesNothingOf p ctx principal cap) : PassesChecks p ctx principal cap right ↔
      right ∈ accessRights ∧ ¬ Refused p ctx ⟨principal, right, some cap, none⟩ := by
  have hasked : AccessRequest.tenant p ⟨principal, right, some cap, none⟩ = principal.tenantId :=
    or_else_of_ne _ htenant
  have hdenied : isDenied p ctx ⟨principal, right, some cap, none⟩ = false := by
    unfold isDenied
    rw [hasked]
    exact not_tuple_of_names hnames
  simp only [Refused, accessRefusals, List.exists_mem_cons_iff, List.not_mem_nil, false_and,
    exists_false, or_false, Option.any_some, hdenied, Bool.false_eq_true, not_or,
    Bool.not_eq_true, Bool.and_eq_false_imp, Bool.not_eq_false']
  constructor
  · rintro ⟨hright, henabled, hunblocked, hstep, hintact⟩
    exact ⟨hright, henabled, hunblocked, hstep, hintact⟩
  · rintro ⟨hright, henabled, hunblocked, hstep, hintact⟩
    exact ⟨hright, henabled, hunblocked, hstep, hintact⟩

end

/-- Tenant isolation: when the records of a principal's tenant name nothing of another tenant, a
right on a capability of that tenant that is not public is refused exactly when an earlier check
refuses it or none of the ways `CrossesTenants` lists gives it. -/
theorem tenant_isolation_iff {p : Platform} {ctx : AccessContext} {principal : Principal}
    {cap : Capability} {right : String} (htenant : principal.tenantId ≠ "")
    (hforeign : p.tenantOr cap.tenantId ≠ principal.tenantId)
    (hvisibility : cap.visibility ≠ .public) (hnames : NamesNothingOf p ctx principal cap) :
    (evaluateAccess p ctx ⟨principal, right, some cap, none⟩).allowed = false ↔
      (PassesChecks p ctx principal cap right → ¬ CrossesTenants p ctx principal cap right) := by
  rw [← Bool.not_eq_true, evaluate_access_allowed_iff, ← and_assoc,
    ← passes_checks_iff htenant hnames, not_and]
  refine forall_congr' fun hchecks => not_congr ?_
  have hauthenticated : principal.authenticated = true := by
    have henabled := hchecks.enabled
    simp only [isDisabled, Bool.or_eq_false_iff, Bool.not_eq_false'] at henabled
    exact henabled.1.2
  exact crosses_tenants_iff htenant hforeign hvisibility hnames hauthenticated

/-- A member of the tenant `asg`. -/
def asgMember : Principal := { subject := "bob", tenantId := "asg" }

/-- A capability of the tenant `acme`, in the store for all its users. -/
def acmeShared : Capability :=
  { notesSkill "sha256:v1" with
    tenantId := "acme", owner := "carol", visibility := .internal, storeId := some "store_all" }

/-- Two tenants: a store of all users of `acme`, and a namespace of `asg` with a member. -/
def twoTenants : AccessContext :=
  { bareContext with
    directory := {
      stores := [⟨"store_all", "acme", .allUsers, false, none, none⟩]
      namespaces := []
      organizations := []
      members := [⟨"ns_asg", "user", "bob", "namespace_admin", [], false⟩] } }

theorem two_tenants_names_nothing (cap : Capability) (hcap : cap.namespaceId = none) :
    NamesNothingOf .sample twoTenants asgMember cap where
  tuples tuple htuple := absurd htuple (Table.not_mem_empty tuple)
  roles role hrole := absurd hrole (Table.not_mem_empty role)
  shares share hshare := absurd hshare (Table.not_mem_empty share)
  members member _ _ := by simp [hcap]
  stores store hstore howner := by
    rw [List.mem_singleton.mp hstore] at howner
    cases howner

/-- Any member of one tenant may load what another shows to all of its own users. -/
theorem tenant_isolation_counterexample :
    ¬ ∀ (p : Platform) (ctx : AccessContext) (principal : Principal) (cap : Capability)
      (right : String), principal.tenantId ≠ "" →
      p.tenantOr cap.tenantId ≠ principal.tenantId → cap.visibility ≠ .public →
      NamesNothingOf p ctx principal cap →
      (evaluateAccess p ctx ⟨principal, right, some cap, none⟩).allowed = false := by
  intro hclaim
  have hallowed : (evaluateAccess .sample twoTenants
      ⟨asgMember, "load", some acmeShared, none⟩).allowed = true := by decide +kernel
  have hdenied := hclaim .sample twoTenants asgMember acmeShared "load" (by decide)
    (by decide) (by decide) (two_tenants_names_nothing _ rfl)
  exact Bool.false_ne_true (hdenied.symm.trans hallowed)

/-- The same capability as a secret is refused, because nothing gives the right. -/
theorem tenant_isolation_iff_secret :
    (evaluateAccess .sample twoTenants
      ⟨asgMember, "load", some { acmeShared with visibility := .secret }, none⟩).allowed = false := by
  refine (tenant_isolation_iff (by decide) (by decide) (by decide)
    (two_tenants_names_nothing _ rfl)).mpr fun _ hcrosses => ?_
  cases hcrosses with
  | globalRole role hrole hright =>
      rw [List.mem_singleton.mp hrole] at hright
      exact absurd hright (by decide)
  | tenantRole role hgrants => exact Table.not_mem_empty role hgrants.recorded
  | foreignRole role hgrants => exact Table.not_mem_empty role hgrants.recorded
  | app store hright hstored hfound hkind hpresent => cases hpresent
  | manifest hmanifest => exact absurd hmanifest (by decide)
  | owner howner => exact absurd howner (by decide)
  | internal hinternal => cases hinternal

end Capmesh
