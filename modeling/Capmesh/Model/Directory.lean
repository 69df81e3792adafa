import Capmesh.Model.Platform

/-!
# Principals and the directory

The caller of an operation (`models.Principal`), and the directory tables that
promotion and access control read: stores, namespaces, organizations, identities,
and namespace members. The directory is an input of a call: what is proved about a
call holds for every directory.
-/

namespace Capmesh

/-- The kinds `create_store` accepts. -/
inductive StoreKind where
  | userPrivate | userShared | org | app | allUsers | system
  deriving DecidableEq, Repr

/-- The stored text of a store kind. -/
def StoreKind.text : StoreKind → String
  | .userPrivate => "user_private"
  | .userShared => "user_shared"
  | .org => "org"
  | .app => "app"
  | .allUsers => "all_users"
  | .system => "system"

/-- A row of `stores`. -/
structure Store where
  id : String
  tenantId : String
  kind : StoreKind
  disabled : Bool
  ownerIdentityId : Option String := none
  ownerAppId : Option String := none
  deriving DecidableEq, Repr

/-- A row of `namespaces`. -/
structure Namespace where
  id : String
  tenantId : String
  storeId : String
  uriPrefix : String
  active : Bool
  deriving DecidableEq, Repr

/-- A row of `organizations`. -/
structure Organization where
  tenantId : String
  storeId : String
  active : Bool
  id : String := ""
  deriving DecidableEq, Repr

/-- A row of `identities`. -/
structure Identity where
  id : String
  tenantId : String
  userName : String
  email : Option String
  active : Bool
  updatedAt : String
  deriving DecidableEq, Repr

/-- A row of `namespace_members`; `revoked` says that `revoked_at` is set. -/
structure NamespaceMember where
  namespaceId : String
  subjectType : String
  subjectId : String
  role : String
  rights : List String
  revoked : Bool
  deriving DecidableEq, Repr

/-- The directory tables. -/
structure Directory where
  stores : List Store
  namespaces : List Namespace
  organizations : List Organization
  identities : List Identity := []
  members : List NamespaceMember := []

/-- A decision of `evaluate_access`; the reason is read only when it denies. -/
structure Access where
  allowed : Bool
  reason : String
  deriving DecidableEq, Repr

/-- The caller of an operation (`models.Principal`). -/
structure Principal where
  subject : String
  tenantId : String
  identityId : Option String := none
  email : Option String := none
  appId : Option String := none
  groups : List String := ["asg:local"]
  roles : List String := ["member"]
  scopes : List String := ["cap:search", "cap:load", "cap:delegate", "cap:report", "cap:call"]
  authenticated : Bool := true
  disabled : Bool := false
  stepUpAuthenticated : Bool := false
  deriving DecidableEq, Repr

end Capmesh
