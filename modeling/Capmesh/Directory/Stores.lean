import Capmesh.Directory.Identities
import Capmesh.Governance.Drafts

/-!
# Stores, their namespaces and their organizations

The tables of `governance.py` in which stores live, and their writers: `ensure_default_tenant`
and `ensure_principal_stores`, which provision what is missing by `INSERT OR IGNORE`, the whole of
`ensure_identity_for_principal`, and `create_store` and `create_namespace` of `stores.py`. Every
row refers to rows that are there: a dangling reference is an integrity error, also in a statement
that ignores conflicts.
-/

namespace Capmesh

open Python Relational

/-- A row of `tenants`. -/
structure TenantRow where
  id : String
  slug : String
  displayName : String
  status : String := "active"
  deriving DecidableEq, Repr

/-- The primary key and `slug`. -/
instance : Constrained TenantRow where
  Conflict a b := a.id = b.id ∨ a.slug = b.slug
  symm h := h.imp Eq.symm Eq.symm

/-- The row of a tenant, active and under the default name. -/
def TenantRow.refreshed (orgName tenant : String) (row : TenantRow) : TenantRow :=
  if row.id = tenant then { row with displayName := orgName, status := "active" } else row

theorem tenant_refreshed_conflict (orgName tenant : String) (a b : TenantRow)
    (h : Constrained.Conflict (TenantRow.refreshed orgName tenant a)
      (TenantRow.refreshed orgName tenant b)) : Constrained.Conflict a b := by
  unfold TenantRow.refreshed at h
  split at h <;> split at h <;> exact h

/-- A row of `stores`. -/
structure StoreRow where
  id : String
  tenantId : String
  kind : StoreKind
  name : String
  uriPrefix : String
  ownerIdentityId : Option String := none
  ownerAppId : Option String := none
  disabled : Bool := false
  metadata : Dict := []
  deriving DecidableEq

/-- The primary key and `uri_prefix`. -/
instance : Constrained StoreRow where
  Conflict a b := a.id = b.id ∨ a.uriPrefix = b.uriPrefix
  symm h := h.imp Eq.symm Eq.symm

/-- A row of `organizations`. -/
structure OrganizationRow where
  id : String
  tenantId : String
  slug : String
  displayName : String
  storeId : Option String
  status : String := "active"
  metadata : Dict := []
  deriving DecidableEq

/-- The primary key and `UNIQUE(tenant_id, slug)`. -/
instance : Constrained OrganizationRow where
  Conflict a b := a.id = b.id ∨ a.tenantId = b.tenantId ∧ a.slug = b.slug
  symm h := h.imp Eq.symm fun h => ⟨h.1.symm, h.2.symm⟩

/-- A row of `namespaces`. -/
structure NamespaceRow where
  id : String
  tenantId : String
  storeId : String
  name : String
  uriPrefix : String
  visibility : Visibility
  owner : String
  description : String := ""
  lifecycle : String := "active"
  metadata : Dict := []
  deriving DecidableEq

/-- The primary key, `uri_prefix`, and `UNIQUE(tenant_id, store_id, name)`. -/
instance : Constrained NamespaceRow where
  Conflict a b := a.id = b.id ∨ a.uriPrefix = b.uriPrefix ∨
    a.tenantId = b.tenantId ∧ a.storeId = b.storeId ∧ a.name = b.name
  symm h := h.imp Eq.symm (Or.imp Eq.symm fun h => ⟨h.1.symm, h.2.1.symm, h.2.2.symm⟩)

/-- A row of `apps`. -/
structure AppRow where
  id : String
  tenantId : String
  appId : String
  displayName : String
  active : Bool := true
  rawJson : Dict := []
  deriving DecidableEq

/-- The primary key and `UNIQUE(tenant_id, app_id)`. -/
instance : Constrained AppRow where
  Conflict a b := a.id = b.id ∨ a.tenantId = b.tenantId ∧ a.appId = b.appId
  symm h := h.imp Eq.symm fun h => ⟨h.1.symm, h.2.symm⟩

/-- The tables of a catalog's directory. -/
structure StoreTables where
  tenants : Table TenantRow
  identities : Table IdentityRow
  apps : Table AppRow
  stores : Table StoreRow
  organizations : Table OrganizationRow
  namespaces : Table NamespaceRow

/-- What access control reads of a store. -/
def StoreRow.store (row : StoreRow) : Store where
  id := row.id
  tenantId := row.tenantId
  kind := row.kind
  disabled := row.disabled
  ownerIdentityId := row.ownerIdentityId
  ownerAppId := row.ownerAppId

/-- What access control reads of a namespace. -/
def NamespaceRow.namespace (row : NamespaceRow) : Namespace where
  id := row.id
  tenantId := row.tenantId
  storeId := row.storeId
  uriPrefix := row.uriPrefix
  active := row.lifecycle = "active"

/-- What access control reads of an organization; one without a store belongs to none. -/
def OrganizationRow.organization (row : OrganizationRow) : Option Organization :=
  row.storeId.map fun storeId =>
    { tenantId := row.tenantId, storeId, active := row.status = "active", id := row.id }

/-- The directory access control reads. -/
def StoreTables.directory (tables : StoreTables) (members : List NamespaceMember) : Directory where
  stores := tables.stores.rows.map StoreRow.store
  namespaces := tables.namespaces.rows.map NamespaceRow.namespace
  organizations := tables.organizations.rows.filterMap OrganizationRow.organization
  identities := tables.identities.rows.map IdentityRow.identity
  members

/-- `all_users_store_prefix`. -/
def allUsersStorePrefix (tenant : String) : String := "cap://all/" ++ tenant

/-- A dangling reference. -/
def foreignKey {α : Type} (present : Bool) (value : α) : Except Failure α :=
  if present then .ok value else .error (.integrity "FOREIGN KEY constraint failed")

/-- A row that is provisioned unless one in its place is there. -/
inductive Provision where
  | store (row : StoreRow)
  | space (row : NamespaceRow)
  | org (row : OrganizationRow)

section

variable (p : Platform) (orgName tenant : String)

/-- The store of the default organization. -/
def defaultOrgStore : StoreRow where
  id := orgStoreId p tenant
  tenantId := tenant
  kind := .org
  name := orgName ++ " Org Store"
  uriPrefix := "cap://org/" ++ (tenant ++ "/" ++ p.defaultOrgSlug)
  metadata := [("auto", .bool true), ("defaultOrg", .bool true)]

/-- A private or shared store of an identity, as `ensure_principal_stores` names it. -/
def identityStore (subject identityId : String) (kind : StoreKind) (label title : String) :
    StoreRow where
  id := p.stableId "store" [tenant, kind.text, identityId]
  tenantId := tenant
  kind
  name := subject ++ " " ++ title
  uriPrefix := "cap://user/" ++ (tenant ++ "/" ++ identityId ++ "/" ++ label)
  ownerIdentityId := some identityId
  metadata := [("auto", .bool true)]

/-- The default namespace of such a store. -/
def identityNamespace (subject label name : String) (store : StoreRow) : NamespaceRow where
  id := p.stableId "ns" [store.tenantId, store.id, name]
  tenantId := store.tenantId
  storeId := store.id
  name
  uriPrefix := store.uriPrefix ++ "/" ++ name
  visibility := .protected
  owner := subject
  description := "Default " ++ label ++ " namespace for " ++ subject ++ "."
  metadata := [("auto", .bool true)]

/-- A subject as the names of its stores spell it. -/
def safeSubject (subject : String) : String :=
  String.ofList (subject.toList.map fun c => if c = '/' || c = ':' then '_' else c)

/-- The rows `ensure_principal_stores` provisions: the private and the shared store of an identity,
each with its namespace, and the store of the default organization. -/
def principalProvisions (principal : Principal) (identityId : String) : List Provision :=
  let tenant := p.tenantOr principal.tenantId
  let subject := safeSubject principal.subject
  let personal := identityStore p tenant subject identityId .userPrivate "private" "Private"
  let shared := identityStore p tenant subject identityId .userShared "shared" "Shared"
  [.store personal, .space (identityNamespace p principal.subject "private" "personal" personal),
    .store shared, .space (identityNamespace p principal.subject "shared" "shared" shared),
    .store (defaultOrgStore p orgName tenant)]

/-- A store or namespace of the default user. -/
def defaultOwnerMetadata : Dict := [("auto", .bool true), ("defaultOwner", .bool true)]

/-- The private store of the default user. -/
def defaultPrivateStore : StoreRow where
  id := defaultUserPrivateStoreId p tenant
  tenantId := tenant
  kind := .userPrivate
  name := p.defaultUserSubject ++ " Private"
  uriPrefix := defaultUserStorePrefix p tenant
  ownerIdentityId := some (defaultUserIdentityId p tenant)
  metadata := defaultOwnerMetadata

/-- The shared store of the default user. -/
def defaultSharedStore : StoreRow where
  id := p.stableId "store" [tenant, "user_shared", defaultUserIdentityId p tenant]
  tenantId := tenant
  kind := .userShared
  name := p.defaultUserSubject ++ " Shared"
  uriPrefix := "cap://user/" ++ (tenant ++ "/" ++ defaultUserIdentityId p tenant ++ "/shared")
  ownerIdentityId := some (defaultUserIdentityId p tenant)
  metadata := defaultOwnerMetadata

/-- The private namespace of the default user. -/
def defaultPrivateNamespace : NamespaceRow where
  id := defaultUserPrivateNamespaceId p tenant
  tenantId := tenant
  storeId := defaultUserPrivateStoreId p tenant
  name := "personal"
  uriPrefix := defaultUserNamespacePrefix p tenant
  visibility := .protected
  owner := p.defaultUserSubject
  description := "Default private namespace for current ingested capabilities."
  metadata := defaultOwnerMetadata

/-- The default organization. -/
def defaultOrganization : OrganizationRow where
  id := p.stableId "org" [tenant, p.defaultOrgSlug]
  tenantId := tenant
  slug := p.defaultOrgSlug
  displayName := orgName
  storeId := some (orgStoreId p tenant)
  metadata := [("defaultOrg", .bool true)]

/-- The system store. -/
def systemStore : StoreRow where
  id := p.stableId "store" [tenant, "system", "system"]
  tenantId := tenant
  kind := .system
  name := "System Governance"
  uriPrefix := "cap://system/" ++ tenant
  metadata := [("managed", .bool true)]

/-- The namespace of the system store. -/
def systemNamespace : NamespaceRow where
  id := p.stableId "ns" [tenant, (systemStore p tenant).id, "system"]
  tenantId := tenant
  storeId := (systemStore p tenant).id
  name := "system"
  uriPrefix := "cap://system/" ++ tenant
  visibility := .protected
  owner := "asg-platform"
  description := "Built-in governance capabilities."
  metadata := [("managed", .bool true)]

/-- The store of all users, which the platform owns. -/
def allUsersStore : StoreRow where
  id := allUsersStoreId p tenant
  tenantId := tenant
  kind := .allUsers
  name := orgName ++ " All Users Store"
  uriPrefix := allUsersStorePrefix tenant
  metadata := [("auto", .bool true), ("allUsers", .bool true)]

/-- The namespace of all users. -/
def allUsersNamespace : NamespaceRow where
  id := allUsersNamespaceId p tenant
  tenantId := tenant
  storeId := allUsersStoreId p tenant
  name := "everyone"
  uriPrefix := allUsersNamespacePrefix tenant
  visibility := .internal
  owner := "asg-platform"
  description := "Tenant-wide capabilities visible to every authenticated user."
  metadata := [("auto", .bool true), ("allUsers", .bool true)]

/-- The rows `ensure_default_tenant` provisions. -/
def defaultProvisions : List Provision :=
  [.store (defaultPrivateStore p tenant), .store (defaultSharedStore p tenant),
    .space (defaultPrivateNamespace p tenant), .store (defaultOrgStore p orgName tenant),
    .org (defaultOrganization p orgName tenant), .store (systemStore p tenant),
    .space (systemNamespace p tenant), .store (allUsersStore p orgName tenant),
    .space (allUsersNamespace p tenant)]

end

namespace StoreTables

variable (p : Platform) (tables : StoreTables)

/-- `INSERT` of a store. -/
def insertStore (row : StoreRow) : Except Failure StoreTables := do
  let stores ← constrained "stores" (tables.stores.insert? row)
  foreignKey (tables.tenants.any (·.id = row.tenantId) &&
    (row.ownerIdentityId.all fun id => tables.identities.any (·.id = id)) &&
    (row.ownerAppId.all fun id => tables.apps.any (·.id = id))) { tables with stores }

/-- `INSERT OR IGNORE` of a store. -/
def addStore (row : StoreRow) : Except Failure StoreTables :=
  if (tables.stores.insert? row).isSome then tables.insertStore row else .ok tables

/-- `INSERT` of a namespace. -/
def insertNamespace (row : NamespaceRow) : Except Failure StoreTables := do
  let namespaces ← constrained "namespaces" (tables.namespaces.insert? row)
  foreignKey (tables.tenants.any (·.id = row.tenantId) &&
    tables.stores.any (·.id = row.storeId)) { tables with namespaces }

/-- `INSERT OR IGNORE` of a namespace. -/
def addNamespace (row : NamespaceRow) : Except Failure StoreTables :=
  if (tables.namespaces.insert? row).isSome then tables.insertNamespace row else .ok tables

/-- `INSERT OR IGNORE` of an organization. -/
def addOrganization (row : OrganizationRow) : Except Failure StoreTables :=
  match tables.organizations.insert? row with
  | none => .ok tables
  | some organizations =>
      foreignKey (tables.tenants.any (·.id = row.tenantId) &&
        row.storeId.all fun id => tables.stores.any (·.id = id)) { tables with organizations }

/-- `INSERT OR IGNORE` of a row. -/
def add : Provision → Except Failure StoreTables
  | .store row => tables.addStore row
  | .space row => tables.addNamespace row
  | .org row => tables.addOrganization row

/-- `INSERT OR IGNORE`, for each row. -/
def addAll : StoreTables → List Provision → Except Failure StoreTables
  | tables, [] => .ok tables
  | tables, item :: items => do
      let tables ← tables.add item
      tables.addAll items

/-- `ensure_principal_stores`. -/
def ensurePrincipalStores (orgName : String) (principal : Principal) (identityId : String) :
    Except Failure StoreTables :=
  tables.addAll (principalProvisions p orgName principal identityId)

/-- The default identity of a tenant. -/
def defaultIdentity (tenant now : String) : IdentityRow where
  id := defaultUserIdentityId p tenant
  tenantId := tenant
  externalId := some p.defaultUserSubject
  userName := p.defaultUserSubject
  displayName := some p.defaultUserSubject
  email := some p.defaultUserSubject
  active := true
  rawJson := .obj [("defaultOwner", .bool true)]
  updatedAt := now

/-- Whether a tenant is there already, active and under the default name. -/
def hasTenant (orgName tenant : String) : Bool :=
  tables.tenants.any fun row =>
    row.id = tenant && row.status = "active" && row.displayName = orgName

/-- `ensure_default_tenant`. -/
def ensureDefaultTenant (orgName tenant now : String) : Except Failure StoreTables :=
  if tables.hasTenant orgName tenant then .ok tables
  else do
    let tenants := (tables.tenants.insertAll [{ id := tenant, slug := tenant
                                                displayName := orgName }]).map
      (TenantRow.refreshed orgName tenant) (tenant_refreshed_conflict orgName tenant)
    let identities := tables.identities.insertAll [defaultIdentity p tenant now]
    let tables ← foreignKey (tenants.any (·.id = tenant)) { tables with tenants, identities }
    tables.addAll (defaultProvisions p orgName tenant)

/-- Whether the private and the shared store of an identity are there. -/
def provisioned (tenant identityId : String) : Bool :=
  2 ≤ (tables.stores.rows.filter fun store =>
    store.tenantId = tenant && store.ownerIdentityId = some identityId &&
      (store.kind = .userPrivate || store.kind = .userShared)).length

/-- `ensure_identity_for_principal`. -/
def ensureIdentityForPrincipal (orgName now : String) (request : SignIn) :
    Except Failure StoreTables :=
  let tenant := p.tenantOr request.principal.tenantId
  let identityId := request.identityId p
  if tables.identities.any (request.isUnchanged p now) then
    if tables.provisioned tenant identityId then .ok tables
    else tables.ensurePrincipalStores p orgName request.principal identityId
  else do
    let tables ← tables.ensureDefaultTenant p orgName p.defaultTenant now
    let identities ← request.ensureIdentityForPrincipal p tables.identities now
    let tables ← foreignKey (tables.tenants.any (·.id = tenant)) { tables with identities }
    tables.ensurePrincipalStores p orgName request.principal identityId

end StoreTables

/-- The kind a text names. -/
def StoreKind.parse (text : String) : Option StoreKind :=
  [.userPrivate, .userShared, .org, .app, .system, .allUsers].find? fun kind : StoreKind =>
    kind.text = text

/-- The payload of `create_store`. -/
structure StorePayload where
  kind : Option String := none
  id : Option String := none
  name : Option String := none
  uriPrefix : Option String := none
  ownerAppId : Option String := none
  ownerIdentityId : Option String := none
  appDisplayName : Option String := none
  orgSlug : Option String := none
  orgId : Option String := none
  metadata : Dict := []

/-- The arguments of `create_store`, the decision it asks for, and the id it draws. -/
structure StoreCall where
  caller : SignIn
  payload : StorePayload
  access : Access
  newId : String

/-- `default_store_prefix`. -/
def defaultStorePrefix (tenant : String) (kind : StoreKind) (storeId identityId : String)
    (ownerAppId : Option String) : String :=
  match kind with
  | .org => "cap://org/" ++ (tenant ++ "/" ++ storeId)
  | .app => "cap://app/" ++ (tenant ++ "/" ++ optOr ownerAppId storeId)
  | .system => "cap://system/" ++ (tenant ++ "/" ++ storeId)
  | .allUsers => allUsersStorePrefix tenant
  | .userShared => "cap://user/" ++ (tenant ++ "/" ++ identityId ++ "/shared/" ++ storeId)
  | .userPrivate => "cap://user/" ++ (tenant ++ "/" ++ identityId ++ "/private/" ++ storeId)

/-- The kinds of store that `create_store` asks for `manage` on the tenant for. -/
def StoreKind.needsManage (kind : StoreKind) : Bool := [.org, .system, .allUsers].contains kind

/-- The kinds of store that belong to an identity. -/
def StoreKind.isUser (kind : StoreKind) : Bool := startsWith kind.text "user_"

namespace StoreCall

variable (p : Platform) (call : StoreCall)

/-- The tenant of a call. -/
def tenant : String := p.tenantOr call.caller.principal.tenantId

/-- The kind the payload asks for. -/
def kind : Option StoreKind := StoreKind.parse (optOr call.payload.kind "user_private")

/-- The id of the store. -/
def storeId : String := optOr call.payload.id call.newId

/-- The prefix the payload asks for, else the default one. -/
def uriPrefix (kind : StoreKind) : String :=
  optOr call.payload.uriPrefix (defaultStorePrefix (call.tenant p) kind call.storeId
    (call.caller.identityId p) call.payload.ownerAppId)

/-- The row a call inserts. -/
def row (kind : StoreKind) : StoreRow where
  id := call.storeId
  tenantId := call.tenant p
  kind
  name := optOr call.payload.name (kind.text ++ " store")
  uriPrefix := call.uriPrefix p kind
  ownerIdentityId :=
    if kind.isUser then some (call.caller.identityId p) else call.payload.ownerIdentityId
  ownerAppId := call.payload.ownerAppId
  metadata := call.payload.metadata

/-- The app a call registers. -/
def app (appId : String) (row : StoreRow) : AppRow where
  id := appId
  tenantId := row.tenantId
  appId
  displayName := optOr call.payload.appDisplayName row.name
  rawJson := [("auto", .bool true), ("source", .str "store.create")]

/-- The organization of a new organization store. -/
def organization (row : StoreRow) : OrganizationRow :=
  let orgSlug := optOr call.payload.orgSlug (slug p row.name)
  { id := optOr call.payload.orgId (p.stableId "org" [row.tenantId, orgSlug])
    tenantId := row.tenantId, slug := orgSlug, displayName := row.name, storeId := some row.id
    metadata := call.payload.metadata }

end StoreCall

/-- The app an app store registers, if the payload names one. -/
def StoreTables.registerApp (tables : StoreTables) (call : StoreCall) (row : StoreRow) :
    StoreTables :=
  match row.ownerAppId with
  | some appId =>
      if row.kind = .app && appId ≠ "" then
        { tables with apps := tables.apps.insertAll [call.app appId row] }
      else tables
  | none => tables

/-- `create_store`. -/
def createStore (p : Platform) (orgName now : String) (tables : StoreTables) (call : StoreCall) :
    Except Failure StoreTables :=
  match call.kind with
  | none => .error (.value "Unsupported store kind.")
  | some kind =>
      if kind.needsManage && !call.access.allowed then .error (.permission call.access.reason)
      else do
        let tables ← tables.ensureIdentityForPrincipal p orgName now call.caller
        let row := call.row p kind
        let tables := tables.registerApp call row
        let tables ← tables.insertStore row
        if kind = .org then tables.addOrganization (call.organization p row) else .ok tables

/-- The payload of `create_namespace`. -/
structure NamespacePayload where
  storeId : Option String
  name : Option String
  visibility : Option String := none
  id : Option String := none
  uriPrefix : Option String := none
  owner : Option String := none
  description : Option String := none
  metadata : Dict := []

/-- The arguments of `create_namespace`, the decision it asks for, and the id it draws. -/
structure NamespaceCall where
  principal : Principal
  payload : NamespacePayload
  access : Access
  newId : String

/-- The kinds of store that `create_namespace` asks for `manage` on the store for. -/
def StoreKind.guardsNamespaces (kind : StoreKind) : Bool := [.org, .system].contains kind

/-- The prefix of a namespace of a store that the payload names none for. -/
def defaultNamespacePrefix (storePrefix name : String) : String :=
  String.ofList (rstrip (· = '/') storePrefix.toList) ++ "/" ++
    String.ofList (strip (· = '/') name.toList)

namespace NamespaceCall

variable (p : Platform) (call : NamespaceCall)

/-- The tenant of a call. -/
def tenant : String := p.tenantOr call.principal.tenantId

/-- The store the payload names. -/
def storeId : String := optOr call.payload.storeId ""

/-- The name of the namespace. -/
def name : String := p.stripSpace (optOr call.payload.name "")

/-- The prefix the payload asks for, else the default one under the store's. -/
def uriPrefix (store : StoreRow) : String :=
  optOr call.payload.uriPrefix (defaultNamespacePrefix store.uriPrefix (call.name p))

/-- The row a call inserts. -/
def row (store : StoreRow) (visibility : Visibility) : NamespaceRow where
  id := optOr call.payload.id call.newId
  tenantId := call.tenant p
  storeId := call.storeId
  name := call.name p
  uriPrefix := call.uriPrefix p store
  visibility
  owner := optOr call.payload.owner call.principal.subject
  description := optOr call.payload.description ""
  metadata := call.payload.metadata

end NamespaceCall

/-- The store a call to `create_namespace` is about. -/
def StoreTables.storeOf (p : Platform) (tables : StoreTables) (call : NamespaceCall) :
    Option StoreRow :=
  tables.stores.find? fun store => store.id = call.storeId && store.tenantId = call.tenant p

/-- `create_namespace`. -/
def createNamespace (p : Platform) (tables : StoreTables) (call : NamespaceCall) :
    Except Failure StoreTables :=
  if call.storeId = "" then .error (.value "storeId is required.")
  else match tables.storeOf p call with
    | none => .error (.value "Store not found.")
    | some store =>
        if store.kind.guardsNamespaces && !call.access.allowed then
          .error (.permission call.access.reason)
        else if call.name p = "" then .error (.value "name is required.")
        else match Visibility.parse (optOr call.payload.visibility "internal") with
          | none => .error (.value "Unsupported visibility.")
          | some visibility => tables.insertNamespace (call.row p store visibility)

/-- No writer takes a row of these tables away or changes one: it appends. -/
structure StoreTables.Grew (before after : StoreTables) : Prop where
  stores : before.stores.rows <+: after.stores.rows
  organizations : before.organizations.rows <+: after.organizations.rows
  namespaces : before.namespaces.rows <+: after.namespaces.rows

namespace StoreTables

variable {p : Platform} {tables mid after : StoreTables} {orgName now tenant : String}
variable {row : NamespaceRow}

theorem Grew.refl (tables : StoreTables) : Grew tables tables :=
  ⟨List.prefix_refl _, List.prefix_refl _, List.prefix_refl _⟩

theorem Grew.trans (h : Grew tables mid) (hnext : Grew mid after) : Grew tables after :=
  ⟨h.stores.trans hnext.stores, h.organizations.trans hnext.organizations,
    h.namespaces.trans hnext.namespaces⟩

/-- Two writers in a row. -/
theorem Grew.bind {first : Except Failure StoreTables}
    {next : StoreTables → Except Failure StoreTables}
    (hfirst : ∀ mid, first = .ok mid → Grew tables mid)
    (hnext : ∀ mid after, next mid = .ok after → Grew mid after)
    (h : (first >>= next) = .ok after) : Grew tables after := by
  obtain ⟨mid, hmid, h⟩ := bind_eq_ok h
  exact (hfirst mid hmid).trans (hnext mid after h)

theorem foreign_key_ok {α : Type} {there : Bool} {value result : α}
    (h : foreignKey there value = .ok result) : there = true ∧ result = value := by
  unfold foreignKey at h
  split at h
  · cases h
    exact ⟨‹_›, rfl⟩
  · cases h

theorem insert_store_ok {row : StoreRow} (h : tables.insertStore row = .ok after) :
    tables.stores.insert? row = some after.stores ∧
      after = { tables with stores := after.stores } := by
  unfold insertStore at h
  obtain ⟨stores, hinsert, h⟩ := bind_eq_ok h
  obtain ⟨-, rfl⟩ := foreign_key_ok h
  exact ⟨constrained_ok hinsert, rfl⟩

theorem insert_store_grew {row : StoreRow} (h : tables.insertStore row = .ok after) :
    Grew tables after := by
  obtain ⟨hinsert, heq⟩ := insert_store_ok h
  rw [heq]
  refine ⟨?_, List.prefix_refl _, List.prefix_refl _⟩
  show tables.stores.rows <+: after.stores.rows
  rw [Table.rows_insert? hinsert]
  exact List.prefix_append _ _

theorem add_store_grew (row : StoreRow) (h : tables.addStore row = .ok after) :
    Grew tables after := by
  unfold addStore at h
  split at h
  · exact insert_store_grew h
  · cases h
    exact .refl tables

theorem insert_namespace_ok (h : tables.insertNamespace row = .ok after) :
    tables.namespaces.insert? row = some after.namespaces ∧
      after = { tables with namespaces := after.namespaces } := by
  unfold insertNamespace at h
  obtain ⟨namespaces, hinsert, h⟩ := bind_eq_ok h
  obtain ⟨-, rfl⟩ := foreign_key_ok h
  exact ⟨constrained_ok hinsert, rfl⟩

theorem insert_namespace_grew (h : tables.insertNamespace row = .ok after) : Grew tables after := by
  obtain ⟨hinsert, heq⟩ := insert_namespace_ok h
  rw [heq]
  refine ⟨List.prefix_refl _, List.prefix_refl _, ?_⟩
  show tables.namespaces.rows <+: after.namespaces.rows
  rw [Table.rows_insert? hinsert]
  exact List.prefix_append _ _

theorem add_namespace_grew (row : NamespaceRow) (h : tables.addNamespace row = .ok after) :
    Grew tables after := by
  unfold addNamespace at h
  split at h
  · exact insert_namespace_grew h
  · cases h
    exact .refl tables

theorem add_organization_grew (row : OrganizationRow) (h : tables.addOrganization row = .ok after) :
    Grew tables after := by
  unfold addOrganization at h
  split at h
  · cases h
    exact .refl tables
  · rename_i organizations hinsert
    obtain ⟨-, rfl⟩ := foreign_key_ok h
    refine ⟨List.prefix_refl _, ?_, List.prefix_refl _⟩
    show tables.organizations.rows <+: organizations.rows
    rw [Table.rows_insert? hinsert]
    exact List.prefix_append _ _

theorem add_all_grew {items : List Provision} (h : tables.addAll items = .ok after) :
    Grew tables after := by
  induction items generalizing tables after with
  | nil =>
      cases h
      exact .refl _
  | cons item items ih =>
      unfold addAll at h
      refine Grew.bind (fun mid hmid => ?_) (fun _ _ h => ih h) h
      cases item with
      | store row => exact add_store_grew row hmid
      | space row => exact add_namespace_grew row hmid
      | org row => exact add_organization_grew row hmid

theorem ensure_principal_stores_grew {principal : Principal} {identityId : String}
    (h : tables.ensurePrincipalStores p orgName principal identityId = .ok after) :
    Grew tables after := add_all_grew h

theorem ensure_default_tenant_grew
    (h : tables.ensureDefaultTenant p orgName tenant now = .ok after) : Grew tables after := by
  unfold ensureDefaultTenant at h
  split at h
  · cases h
    exact .refl tables
  · refine Grew.bind (fun mid hmid => ?_) (fun _ _ h => add_all_grew h) h
    obtain ⟨-, rfl⟩ := foreign_key_ok hmid
    exact ⟨List.prefix_refl _, List.prefix_refl _, List.prefix_refl _⟩

theorem ensure_identity_for_principal_grew {request : SignIn}
    (h : tables.ensureIdentityForPrincipal p orgName now request = .ok after) :
    Grew tables after := by
  unfold ensureIdentityForPrincipal at h
  dsimp only at h
  split at h
  · split at h
    · cases h
      exact .refl tables
    · exact ensure_principal_stores_grew h
  · refine Grew.bind (fun _ => ensure_default_tenant_grew) (fun mid _ h => ?_) h
    obtain ⟨identities, -, h⟩ := bind_eq_ok h
    refine Grew.bind (fun next hnext => ?_) (fun _ _ => ensure_principal_stores_grew) h
    obtain ⟨-, rfl⟩ := foreign_key_ok hnext
    exact ⟨List.prefix_refl _, List.prefix_refl _, List.prefix_refl _⟩

/-- What one provisioned row adds: the store it is, or the namespace of a store that is there. -/
structure Added (before after : StoreTables) (item : Provision) : Prop where
  tenants : after.tenants = before.tenants
  identities : after.identities = before.identities
  kept : ∀ store ∈ before.stores, store ∈ after.stores
  stores : ∀ store ∈ after.stores, store ∈ before.stores ∨ item = .store store
  namespaces : ∀ space ∈ after.namespaces, space ∈ before.namespaces ∨
    item = .space space ∧ ∃ store ∈ before.stores, store.id = space.storeId

theorem Added.unchanged (item : Provision) : Added tables tables item :=
  ⟨rfl, rfl, fun _ h => h, fun _ h => .inl h, fun _ h => .inl h⟩

theorem insert_namespace_store (h : tables.insertNamespace row = .ok after) :
    ∃ store ∈ tables.stores, store.id = row.storeId := by
  unfold insertNamespace at h
  obtain ⟨namespaces, -, h⟩ := bind_eq_ok h
  obtain ⟨hthere, -⟩ := foreign_key_ok h
  simp only [Bool.and_eq_true] at hthere
  obtain ⟨store, hstore, hid⟩ := Table.any_iff.mp hthere.2
  exact ⟨store, hstore, by simpa using hid⟩

theorem insert_store_added {row : StoreRow} (h : tables.insertStore row = .ok after) :
    Added tables after (.store row) := by
  obtain ⟨hinsert, heq⟩ := insert_store_ok h
  refine ⟨by rw [heq], by rw [heq], fun store hstore => ?_, fun store hstore => ?_,
    fun space hspace => .inl ?_⟩
  · exact (Table.mem_insert? hinsert store).mpr (.inl hstore)
  · cases (Table.mem_insert? hinsert store).mp hstore with
    | inl hold => exact .inl hold
    | inr hnew => exact .inr (by rw [hnew])
  · rw [heq] at hspace
    exact hspace

theorem insert_namespace_added (h : tables.insertNamespace row = .ok after) :
    Added tables after (.space row) := by
  obtain ⟨hinsert, heq⟩ := insert_namespace_ok h
  have hstores : after.stores = tables.stores := by rw [heq]
  refine ⟨by rw [heq], by rw [heq], fun store hstore => hstores ▸ hstore,
    fun store hstore => .inl (hstores ▸ hstore), fun space hspace => ?_⟩
  cases (Table.mem_insert? hinsert space).mp hspace with
  | inl hold => exact .inl hold
  | inr hnew =>
      subst hnew
      exact .inr ⟨rfl, insert_namespace_store h⟩

theorem add_organization_added {row : OrganizationRow} (h : tables.addOrganization row = .ok after) :
    Added tables after (.org row) := by
  unfold addOrganization at h
  split at h
  · cases h
    exact .unchanged _
  · obtain ⟨-, rfl⟩ := foreign_key_ok h
    exact ⟨rfl, rfl, fun _ h => h, fun _ h => .inl h, fun _ h => .inl h⟩

theorem add_added {item : Provision} (h : tables.add item = .ok after) :
    Added tables after item := by
  cases item with
  | store row =>
      simp only [add, addStore] at h
      split at h
      · exact insert_store_added h
      · cases h
        exact .unchanged _
  | space row =>
      simp only [add, addNamespace] at h
      split at h
      · exact insert_namespace_added h
      · cases h
        exact .unchanged _
  | org row => exact add_organization_added h

end StoreTables

/-- What a successful `create_store` checked and did. -/
theorem create_store_ok {p : Platform} {orgName now : String} {tables after : StoreTables}
    {call : StoreCall} (h : createStore p orgName now tables call = .ok after) :
    ∃ kind before stored, call.kind = some kind ∧
      (kind.needsManage = true → call.access.allowed = true) ∧
      tables.ensureIdentityForPrincipal p orgName now call.caller = .ok before ∧
      (before.registerApp call (call.row p kind)).insertStore (call.row p kind) = .ok stored ∧
      (if kind = .org then stored.addOrganization (call.organization p (call.row p kind))
        else .ok stored) = .ok after := by
  unfold createStore at h
  split at h
  · cases h
  rename_i kind hkind
  split at h
  · cases h
  rename_i hallowed
  obtain ⟨before, hbefore, h⟩ := bind_eq_ok h
  obtain ⟨stored, hstored, h⟩ := bind_eq_ok h
  refine ⟨kind, before, stored, hkind, fun hneeds => ?_, hbefore, hstored, h⟩
  simpa [hneeds] using hallowed

theorem create_store_grew {p : Platform} {orgName now : String} {tables after : StoreTables}
    {call : StoreCall} (h : createStore p orgName now tables call = .ok after) :
    tables.Grew after := by
  obtain ⟨kind, before, stored, -, -, hbefore, hstored, h⟩ := create_store_ok h
  have happ : before.Grew (before.registerApp call (call.row p kind)) := by
    unfold StoreTables.registerApp
    split
    · split
      · exact ⟨List.prefix_refl _, List.prefix_refl _, List.prefix_refl _⟩
      · exact .refl before
    · exact .refl before
  have hlast : stored.Grew after := by
    split at h
    · exact StoreTables.add_organization_grew _ h
    · cases h
      exact .refl _
  exact (StoreTables.ensure_identity_for_principal_grew hbefore).trans
    (happ.trans ((StoreTables.insert_store_grew hstored).trans hlast))

end Capmesh
