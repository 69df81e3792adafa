import Capmesh.Directory.Stores
import Capmesh.Execution.Run
import Capmesh.Python.Paths

/-!
# The addresses stores and namespaces are created under

`create_store` and `create_namespace` write the address prefix their payload names. Every owner has
a home that `default_store_prefix` files its stores under, and the homes and the reserved roots do
not overlap (`home_inj`, `not_reserved`). `Fits` is what a call has to name for the database to stay
`Fenced`: every store in the home of its owner, every namespace under its own store. Then nobody
without `manage` on the tenant creates anything in a reserved root or under the store of another
owner.
-/

namespace Capmesh

open Python Relational Execution

/-- The kinds of owner a store has. -/
inductive OwnerKind where
  | identity
  | app
  deriving DecidableEq, Repr

/-- Who owns a store. -/
structure Owner where
  kind : OwnerKind
  tenant : String
  id : String
  deriving DecidableEq, Repr

/-- The root of the homes of a kind. -/
def OwnerKind.root : OwnerKind → String
  | .identity => "cap://user"
  | .app => "cap://app"

namespace Owner

/-- Where the stores of an owner are filed. -/
def home (owner : Owner) : String :=
  owner.kind.root ++ ("/" ++ (owner.tenant ++ "/" ++ owner.id))

/-- The tenant and the id of an owner are segments of its home. -/
structure Plain (owner : Owner) : Prop where
  tenant : IsSegment owner.tenant
  id : IsSegment owner.id

end Owner

/-- The roots of the stores that no identity and no app owns. -/
def reservedRoots : List String := ["cap://org", "cap://all", "cap://system"]

/-- The owner of a store, in the sense of `store_owner_grant`. -/
def StoreRow.owner (store : StoreRow) : Option Owner :=
  if store.kind.isUser then store.ownerIdentityId.map (⟨.identity, store.tenantId, ·⟩)
  else if store.kind = .app && present store.ownerAppId then
    store.ownerAppId.map (⟨.app, store.tenantId, ·⟩)
  else none

/-- The identity and the app a principal acts as. -/
def Principal.owners (p : Platform) (principal : Principal) : List Owner :=
  ⟨.identity, p.tenantOr principal.tenantId, ensureIdentityForPrincipal p principal⟩ ::
    match principal.appId with
    | some app => if app ≠ "" then [⟨.app, p.tenantOr principal.tenantId, app⟩] else []
    | none => []

/-- A store in the home of its owner. -/
def StoreRow.Homed (store : StoreRow) : Prop :=
  ∀ owner, store.owner = some owner → owner.Plain ∧ under store.uriPrefix owner.home = true

/-- Every store is in the home of its owner, and every namespace under its own store. -/
structure StoreTables.Fenced (tables : StoreTables) : Prop where
  stores : ∀ store ∈ tables.stores, store.Homed
  namespaces : ∀ space ∈ tables.namespaces, ∃ store ∈ tables.stores,
    store.id = space.storeId ∧ under space.uriPrefix store.uriPrefix = true

/-- The rows `ensure_identity_for_principal` provisions when they are missing. -/
def SignIn.provisions (p : Platform) (orgName : String) (request : SignIn) : List Provision :=
  defaultProvisions p orgName p.defaultTenant ++
    principalProvisions p orgName request.principal (request.identityId p)

/-- The stores of a list of rows have owners with a home, and no other store has the id of one. -/
structure StoreTables.Clear (tables : StoreTables) (items : List Provision) : Prop where
  plain : ∀ row, .store row ∈ items → ∀ owner, row.owner = some owner → owner.Plain
  distinct : ∀ row other, .store row ∈ items → .store other ∈ items → row.id = other.id →
    row.uriPrefix = other.uriPrefix
  free : ∀ row, .store row ∈ items → ∀ store ∈ tables.stores, store.id = row.id →
    store.uriPrefix = row.uriPrefix

/-- What a decision reads beside the stores. -/
structure Surroundings where
  db : Database
  members : List NamespaceMember
  now : String

/-- `evaluate_access` for `manage` on a resource that is no capability. -/
def StoreTables.manage (p : Platform) (tables : StoreTables) (rest : Surroundings)
    (principal : Principal) (resource : String) : Access :=
  evaluateAccess p ⟨rest.db, tables.directory rest.members, fun _ _ => none, rest.now⟩
    { principal, right := "manage", resourceUri := some resource }

/-- Whether a principal owns a store. -/
def StoreRow.ownedBy (p : Platform) (store : StoreRow) (principal : Principal) : Bool :=
  store.owner.any fun owner => (principal.owners p).contains owner

/-- A store or a namespace that was created: who its creator is, whether the creator may manage the
tenant, whether it owns the store of a namespace or may manage it, and the prefix. -/
structure Creation where
  owners : List Owner
  managed : Bool
  authorized : Bool
  uriPrefix : String

/-- A call of `create_store` or `create_namespace`, and what it finds beside the stores. -/
inductive Creating where
  | store (rest : Surroundings) (caller : SignIn) (payload : StorePayload) (newId : String)
  | space (rest : Surroundings) (principal : Principal) (payload : NamespacePayload)
      (newId : String)

namespace StoreTables

variable (p : Platform) (tables : StoreTables) (rest : Surroundings)

/-- The call of `create_store`, with its decision. -/
def storeCall (caller : SignIn) (payload : StorePayload) (newId : String) : StoreCall where
  caller
  payload
  access := tables.manage p rest caller.principal
    ("tenant:" ++ p.tenantOr caller.principal.tenantId)
  newId

/-- The call of `create_namespace`, with its decision. -/
def namespaceCall (principal : Principal) (payload : NamespacePayload) (newId : String) :
    NamespaceCall where
  principal
  payload
  access := tables.manage p rest principal ("store:" ++ optOr payload.storeId "")
  newId

/-- Whether a principal may manage its tenant. -/
def managesTenant (principal : Principal) : Bool :=
  (tables.manage p rest principal ("tenant:" ++ p.tenantOr principal.tenantId)).allowed

end StoreTables

/-- What a call of `create_store` creates. -/
def StoreCall.creation (p : Platform) (call : StoreCall) (kind : StoreKind) : Creation where
  owners := call.caller.principal.owners p
  managed := call.access.allowed
  authorized := true
  uriPrefix := call.uriPrefix p kind

/-- What a call of `create_namespace` creates. -/
def NamespaceCall.creation (p : Platform) (call : NamespaceCall) (managed : Bool)
    (store : StoreRow) : Creation where
  owners := call.principal.owners p
  managed
  authorized := store.ownedBy p call.principal || call.access.allowed
  uriPrefix := call.uriPrefix p store

/-- The tables, and what the calls of a run created. -/
structure Creations where
  tables : StoreTables
  created : List Creation := []

namespace Creations

variable (p : Platform) (orgName : String) (state : Creations)

/-- One call; one that fails is rolled back. -/
def step : Creating → Creations
  | .store rest caller payload newId =>
      let call := state.tables.storeCall p rest caller payload newId
      match createStore p orgName rest.now state.tables call with
      | .ok tables => ⟨tables, state.created ++ (call.kind.map (call.creation p)).toList⟩
      | .error _ => state
  | .space rest principal payload newId =>
      let call := state.tables.namespaceCall p rest principal payload newId
      let managed := state.tables.managesTenant p rest principal
      match createNamespace p state.tables call with
      | .ok tables =>
          ⟨tables, state.created ++
            ((state.tables.storeOf p call).map (call.creation p managed)).toList⟩
      | .error _ => state

/-- Whoever created a namespace owned its store or could manage it; every namespace is under its own
store; and nothing that was created without `manage` on the tenant is in a reserved root or under
the store of another owner. -/
structure Confined : Prop where
  authorized : ∀ creation ∈ state.created, creation.authorized = true
  namespaces : ∀ space ∈ state.tables.namespaces, ∃ store ∈ state.tables.stores,
    store.id = space.storeId ∧ under space.uriPrefix store.uriPrefix = true
  reserved : ∀ creation ∈ state.created, creation.managed = false → ∀ root ∈ reservedRoots,
    under creation.uriPrefix root = false
  apart : ∀ creation ∈ state.created, creation.managed = false →
    ∀ store ∈ state.tables.stores, ∀ owner, store.owner = some owner →
      owner ∉ creation.owners → under creation.uriPrefix store.uriPrefix = false

end Creations

/-- A call of `create_store` that stays in the home of its store's owner: a prefix it names is in
that home, a caller without `manage` on the tenant creates an app store for its own app, and the
ids of the stores it provisions are free. -/
structure StoreCall.Fits (p : Platform) (orgName : String) (tables : StoreTables)
    (call : StoreCall) : Prop where
  plain : ∀ kind owner, call.kind = some kind → (call.row p kind).owner = some owner → owner.Plain
  named : present call.payload.uriPrefix = true → ∀ kind owner, call.kind = some kind →
    (call.row p kind).owner = some owner → under (call.uriPrefix p kind) owner.home = true
  app : call.kind = some .app → call.access.allowed = false →
    (call.row p .app).ownedBy p call.caller.principal = true
  clear : tables.Clear (call.caller.provisions p orgName)

/-- A call of `create_namespace` that stays in the caller's authority: a prefix it names is under
the store, the store is of a kind the call asks for `manage` for, or the caller's, or one it may
manage, and it is the caller's if the caller may not manage the tenant. -/
structure NamespaceCall.Fits (p : Platform) (managed : Bool) (store : StoreRow)
    (call : NamespaceCall) : Prop where
  named : present call.payload.uriPrefix = true →
    under (call.uriPrefix p store) store.uriPrefix = true
  authorized : store.kind.guardsNamespaces = true ∨ store.ownedBy p call.principal = true ∨
    call.access.allowed = true
  owned : managed = false → store.ownedBy p call.principal = true

/-- A call that stays in its caller's authority. -/
def Creations.Fits (p : Platform) (orgName : String) (state : Creations) : Creating → Prop
  | .store rest caller payload newId =>
      (state.tables.storeCall p rest caller payload newId).Fits p orgName state.tables
  | .space rest principal payload newId =>
      let call := state.tables.namespaceCall p rest principal payload newId
      ∀ store, state.tables.storeOf p call = some store →
        call.Fits p (state.tables.managesTenant p rest principal) store

/-! ## Homes -/

theorem root_length (kind : OwnerKind) : (kind.root.toList.splitOn '/').length = 3 := by
  cases kind <;> rfl

theorem root_inj (kind other : OwnerKind)
    (h : kind.root.toList.splitOn '/' = other.root.toList.splitOn '/') : kind = other := by
  revert h
  cases kind <;> cases other <;> decide

theorem reserved_root (kind : OwnerKind) : ∀ root ∈ reservedRoots,
    (segments root).length = 3 ∧ segments root ≠ kind.root.toList.splitOn '/' := by
  cases kind <;> decide

namespace Owner

variable {owner other : Owner} {path : String}

theorem home_segments (h : owner.Plain) : segments owner.home =
    owner.kind.root.toList.splitOn '/' ++ [owner.tenant.toList, owner.id.toList] :=
  segments_append_two _ h.tenant h.id

/-- The homes of two owners do not overlap. -/
theorem home_inj (h : owner.Plain) (hother : other.Plain) (hpath : under path owner.home = true)
    (hpathOther : under path other.home = true) : owner = other := by
  have hsegments := eq_of_under hpath hpathOther (by
    rw [home_segments h, home_segments hother, List.length_append, List.length_append, root_length,
      root_length]
    rfl)
  rw [home_segments h, home_segments hother] at hsegments
  obtain ⟨hroot, hends⟩ := List.append_inj hsegments (by rw [root_length, root_length])
  obtain ⟨kind, tenant, id⟩ := owner
  obtain ⟨kind', tenant', id'⟩ := other
  have htexts : tenant = tenant' ∧ id = id' := by simpa [String.toList_inj] using hends
  rw [root_inj kind kind' hroot, htexts.1, htexts.2]

theorem not_reserved (h : owner.Plain) (hpath : under path owner.home = true) {root : String}
    (hroot : root ∈ reservedRoots) : under path root = false := by
  obtain ⟨hlength, hne⟩ := reserved_root owner.kind root hroot
  by_contra hunder
  rw [Bool.not_eq_false, under_iff] at hunder
  have hfirst : owner.kind.root.toList.splitOn '/' <+: segments path := by
    refine List.IsPrefix.trans ?_ (under_iff.mp hpath)
    rw [home_segments h]
    exact List.prefix_append _ _
  have hsame : (segments root).length = (owner.kind.root.toList.splitOn '/').length := by
    rw [hlength, root_length]
  exact hne ((List.prefix_of_prefix_length_le hunder hfirst hsame.le).eq_of_length hsame)

end Owner

/-! ## Provisioned rows -/

section

variable {p : Platform} {orgName tenant : String} {tables mid after : StoreTables}
variable {items : List Provision} {row : StoreRow} {store : StoreRow}

theorem is_user_iff (kind : StoreKind) :
    kind.isUser = true ↔ kind = .userPrivate ∨ kind = .userShared := by
  cases kind <;> decide

theorem owner_of_user {id : String} (hkind : store.kind = .userPrivate ∨ store.kind = .userShared)
    (hid : store.ownerIdentityId = some id) :
    store.owner = some ⟨.identity, store.tenantId, id⟩ := by
  rw [StoreRow.owner, if_pos ((is_user_iff _).mpr hkind), hid]
  rfl

/-- The stores that `create_store` asks for `manage` on the tenant for belong to nobody. -/
theorem owner_of_managed (h : store.kind.needsManage = true) : store.owner = none := by
  have hkind : store.kind.isUser = false ∧ store.kind ≠ .app := by
    revert h
    cases store.kind <;> decide
  simp [StoreRow.owner, hkind.1, hkind.2]

theorem owner_of_app {owner : Owner} (hkind : store.kind = .app) (h : store.owner = some owner) :
    ∃ id, store.ownerAppId = some id ∧ id ≠ "" ∧
      owner = ⟨.app, store.tenantId, id⟩ := by
  have hnot : store.kind.isUser = false := by rw [hkind]; decide
  unfold StoreRow.owner at h
  rw [if_neg (by rw [hnot]; decide)] at h
  split at h
  · rename_i hpresent
    cases hid : store.ownerAppId with
    | none => simp [hid] at h
    | some id =>
        rw [hid] at h hpresent
        cases h
        exact ⟨id, rfl, by simpa [hkind, present] using hpresent, rfl⟩
  · cases h

theorem homed_of_user {id : String} (rest : String)
    (hkind : store.kind = .userPrivate ∨ store.kind = .userShared)
    (hid : store.ownerIdentityId = some id)
    (hspelled : store.uriPrefix = "cap://user/" ++ (store.tenantId ++ "/" ++ id ++ "/" ++ rest))
    (hplain : ∀ owner, store.owner = some owner → owner.Plain) : store.Homed := by
  intro owner howner
  refine ⟨hplain owner howner, under_of_eq_append rest ?_⟩
  rw [owner_of_user hkind hid] at howner
  cases howner
  rw [hspelled]
  simp [Owner.home, OwnerKind.root, ← String.toList_inj]

theorem homed_of_managed (h : store.kind.needsManage = true) : store.Homed := by
  intro owner howner
  rw [owner_of_managed h] at howner
  cases howner

theorem default_provisions_homed (h : .store row ∈ defaultProvisions p orgName tenant)
    (hplain : ∀ owner, row.owner = some owner → owner.Plain) : row.Homed := by
  simp only [defaultProvisions, List.mem_cons, Provision.store.injEq, reduceCtorEq,
    List.not_mem_nil, or_false, false_or] at h
  rcases h with rfl | rfl | rfl | rfl | rfl
  · refine homed_of_user "private" (.inl rfl) rfl ?_ hplain
    simp [defaultPrivateStore, defaultUserStorePrefix, ← String.toList_inj]
  · refine homed_of_user "shared" (.inr rfl) rfl ?_ hplain
    simp [defaultSharedStore, ← String.toList_inj]
  · exact homed_of_managed rfl
  · exact homed_of_managed rfl
  · exact homed_of_managed rfl

theorem principal_provisions_homed {principal : Principal} {identityId : String}
    (h : .store row ∈ principalProvisions p orgName principal identityId)
    (hplain : ∀ owner, row.owner = some owner → owner.Plain) : row.Homed := by
  simp only [principalProvisions, List.mem_cons, Provision.store.injEq, reduceCtorEq,
    List.not_mem_nil, or_false, false_or] at h
  rcases h with rfl | rfl | rfl
  · exact homed_of_user "private" (.inl rfl) rfl rfl hplain
  · exact homed_of_user "shared" (.inr rfl) rfl rfl hplain
  · exact homed_of_managed rfl

theorem default_provisions_spaces {space : NamespaceRow}
    (h : .space space ∈ defaultProvisions p orgName tenant) :
    ∃ row, .store row ∈ defaultProvisions p orgName tenant ∧ row.id = space.storeId ∧
      under space.uriPrefix row.uriPrefix = true := by
  simp only [defaultProvisions, List.mem_cons, Provision.space.injEq, reduceCtorEq,
    List.not_mem_nil, or_false, false_or] at h
  rcases h with rfl | rfl | rfl
  · refine ⟨defaultPrivateStore p tenant, by simp [defaultProvisions], rfl,
      under_of_eq_append "personal" ?_⟩
    simp [defaultPrivateNamespace, defaultUserNamespacePrefix, defaultPrivateStore]
  · exact ⟨systemStore p tenant, by simp [defaultProvisions], rfl, under_refl _⟩
  · refine ⟨allUsersStore p orgName tenant, by simp [defaultProvisions], rfl,
      under_of_eq_append "everyone" ?_⟩
    simp [allUsersNamespace, allUsersNamespacePrefix, allUsersStore, allUsersStorePrefix,
      ← String.toList_inj]

theorem identity_namespace_under {subject label name : String} :
    under (identityNamespace p subject label name store).uriPrefix store.uriPrefix = true := by
  rw [identityNamespace, String.append_assoc]
  exact under_append _ _

theorem principal_provisions_spaces {principal : Principal} {identityId : String}
    {space : NamespaceRow} (h : .space space ∈ principalProvisions p orgName principal identityId) :
    ∃ row, .store row ∈ principalProvisions p orgName principal identityId ∧
      row.id = space.storeId ∧ under space.uriPrefix row.uriPrefix = true := by
  simp only [principalProvisions, List.mem_cons, Provision.space.injEq, reduceCtorEq,
    List.not_mem_nil, or_false, false_or] at h ⊢
  rcases h with rfl | rfl
  · exact ⟨_, .inl rfl, rfl, identity_namespace_under⟩
  · exact ⟨_, .inr (.inl rfl), rfl, identity_namespace_under⟩

theorem StoreTables.Added.fenced {item : Provision} (h : tables.Added after item)
    (hstore : ∀ row, item = .store row → row.Homed)
    (hspace : ∀ space, item = .space space → ∀ store ∈ tables.stores, store.id = space.storeId →
      under space.uriPrefix store.uriPrefix = true) (hfenced : tables.Fenced) : after.Fenced := by
  refine ⟨fun store hmem => ?_, fun space hmem => ?_⟩
  · rcases h.stores store hmem with hold | hnew
    · exact hfenced.stores store hold
    · exact hstore store hnew
  · rcases h.namespaces space hmem with hold | ⟨hnew, store, hold, hid⟩
    · obtain ⟨store, hold, hunder⟩ := hfenced.namespaces space hold
      exact ⟨store, h.kept store hold, hunder⟩
    · exact ⟨store, h.kept store hold, hid, hspace space hnew store hold hid⟩

/-- Rows whose namespaces are under their stores, added where their ids are free. -/
theorem add_all_fenced {all : List Provision}
    (hhomed : ∀ row, .store row ∈ all → row.Homed)
    (hspaces : ∀ space, .space space ∈ all → ∃ row, .store row ∈ all ∧ row.id = space.storeId ∧
      under space.uriPrefix row.uriPrefix = true)
    (hitems : ∀ item ∈ items, item ∈ all) (hfenced : tables.Fenced) (hclear : tables.Clear all)
    (h : tables.addAll items = .ok after) : after.Fenced ∧ after.Clear all := by
  induction items generalizing tables with
  | nil =>
      cases h
      exact ⟨hfenced, hclear⟩
  | cons item items ih =>
      unfold StoreTables.addAll at h
      obtain ⟨mid, hmid, h⟩ := bind_eq_ok h
      have hadded := StoreTables.add_added hmid
      have hitem := hitems item List.mem_cons_self
      refine ih (fun other hother => hitems other (List.mem_cons_of_mem _ hother)) ?_ ?_ h
      · refine hadded.fenced (fun row heq => hhomed row (heq ▸ hitem)) ?_ hfenced
        intro space heq store hstore hid
        obtain ⟨row, hrow, hrowId, hunder⟩ := hspaces space (heq ▸ hitem)
        rw [hclear.free row hrow store hstore (by rw [hid, hrowId])]
        exact hunder
      · refine ⟨hclear.plain, hclear.distinct, fun row hrow store hstore hid => ?_⟩
        rcases hadded.stores store hstore with hold | rfl
        · exact hclear.free row hrow store hold hid
        · exact hclear.distinct store row hitem hrow hid

/-- What `ensure_identity_for_principal` provisions stays fenced. -/
theorem provisions_homed {request : SignIn}
    (hclear : tables.Clear (request.provisions p orgName)) :
    ∀ row, .store row ∈ request.provisions p orgName → row.Homed := by
  intro row hrow
  rcases List.mem_append.mp hrow with h | h
  · exact default_provisions_homed h (hclear.plain row hrow)
  · exact principal_provisions_homed h (hclear.plain row hrow)

theorem provisions_spaces (request : SignIn) (space : NamespaceRow)
    (h : .space space ∈ request.provisions p orgName) :
    ∃ row, .store row ∈ request.provisions p orgName ∧ row.id = space.storeId ∧
      under space.uriPrefix row.uriPrefix = true := by
  rcases List.mem_append.mp h with h | h
  · obtain ⟨row, hrow, hunder⟩ := default_provisions_spaces h
    exact ⟨row, List.mem_append_left _ hrow, hunder⟩
  · obtain ⟨row, hrow, hunder⟩ := principal_provisions_spaces h
    exact ⟨row, List.mem_append_right _ hrow, hunder⟩

theorem ensure_default_tenant_fenced {all : List Provision} {now : String}
    (hhomed : ∀ row, .store row ∈ all → row.Homed)
    (hspaces : ∀ space, .space space ∈ all → ∃ row, .store row ∈ all ∧ row.id = space.storeId ∧
      under space.uriPrefix row.uriPrefix = true)
    (hitems : ∀ item ∈ defaultProvisions p orgName tenant, item ∈ all) (hfenced : tables.Fenced)
    (hclear : tables.Clear all)
    (h : tables.ensureDefaultTenant p orgName tenant now = .ok after) :
    after.Fenced ∧ after.Clear all := by
  unfold StoreTables.ensureDefaultTenant at h
  split at h
  · cases h
    exact ⟨hfenced, hclear⟩
  · obtain ⟨mid, hmid, h⟩ := bind_eq_ok h
    obtain ⟨-, rfl⟩ := StoreTables.foreign_key_ok hmid
    refine add_all_fenced hhomed hspaces hitems ?_ ?_ h
    · exact ⟨hfenced.stores, hfenced.namespaces⟩
    · exact ⟨hclear.plain, hclear.distinct, hclear.free⟩

theorem ensure_identity_for_principal_fenced {now : String} {request : SignIn}
    (hfenced : tables.Fenced) (hclear : tables.Clear (request.provisions p orgName))
    (h : tables.ensureIdentityForPrincipal p orgName now request = .ok after) : after.Fenced := by
  have hhomed := provisions_homed hclear
  unfold StoreTables.ensureIdentityForPrincipal at h
  dsimp only at h
  split at h
  · split at h
    · cases h
      exact hfenced
    · exact (add_all_fenced hhomed (provisions_spaces request)
        (fun _ => List.mem_append_right _) hfenced hclear h).1
  · obtain ⟨mid, hmid, h⟩ := bind_eq_ok h
    obtain ⟨identities, -, h⟩ := bind_eq_ok h
    obtain ⟨next, hnext, h⟩ := bind_eq_ok h
    obtain ⟨-, rfl⟩ := StoreTables.foreign_key_ok hnext
    obtain ⟨hmidFenced, hmidClear⟩ := ensure_default_tenant_fenced hhomed
      (provisions_spaces request) (fun _ => List.mem_append_left _) hfenced hclear hmid
    refine (add_all_fenced hhomed (provisions_spaces request)
      (fun _ => List.mem_append_right _) ?_ ?_ h).1
    · exact ⟨hmidFenced.stores, hmidFenced.namespaces⟩
    · exact ⟨hmidClear.plain, hmidClear.distinct, hmidClear.free⟩

end

/-! ## Calls -/

section

variable {p : Platform} {orgName now : String} {tables after : StoreTables} {call : StoreCall}

theorem opt_or_of_absent {text : Option String} (h : present text = false) (default : String) :
    optOr text default = default := by
  cases text with
  | none => rfl
  | some text =>
      have hempty : text = "" := by simpa [present] using h
      simp [optOr, orElse, hempty]

theorem default_prefix_homed {kind : StoreKind} {owner : Owner}
    (howner : (call.row p kind).owner = some owner)
    (hnamed : present call.payload.uriPrefix = false) :
    under (call.uriPrefix p kind) owner.home = true := by
  have hdefault : call.uriPrefix p kind = defaultStorePrefix (call.tenant p) kind call.storeId
      (call.caller.identityId p) call.payload.ownerAppId := opt_or_of_absent hnamed _
  rw [hdefault]
  cases kind with
  | userPrivate =>
      rw [owner_of_user (.inl rfl) rfl] at howner
      cases howner
      refine under_of_eq_append ("private/" ++ call.storeId) ?_
      simp [defaultStorePrefix, Owner.home, OwnerKind.root, StoreCall.row, ← String.toList_inj]
  | userShared =>
      rw [owner_of_user (.inr rfl) rfl] at howner
      cases howner
      refine under_of_eq_append ("shared/" ++ call.storeId) ?_
      simp [defaultStorePrefix, Owner.home, OwnerKind.root, StoreCall.row, ← String.toList_inj]
  | app =>
      obtain ⟨id, hid, hne, rfl⟩ := owner_of_app rfl howner
      have happ : call.payload.ownerAppId = some id := hid
      rw [show defaultStorePrefix (call.tenant p) .app call.storeId (call.caller.identityId p)
        call.payload.ownerAppId = (Owner.mk .app (call.tenant p) id).home by
          simp [defaultStorePrefix, happ, optOr, orElse, hne, Owner.home, OwnerKind.root,
            ← String.toList_inj]]
      exact under_refl _
  | org | system | allUsers =>
      rw [owner_of_managed rfl] at howner
      cases howner

theorem StoreCall.Fits.homed {kind : StoreKind} (h : call.Fits p orgName tables)
    (hkind : call.kind = some kind) :
    (call.row p kind).Homed := by
  intro owner howner
  refine ⟨h.plain kind owner hkind howner, ?_⟩
  cases hnamed : present call.payload.uriPrefix with
  | true => exact h.named hnamed kind owner hkind howner
  | false => exact default_prefix_homed howner hnamed

/-- What a successful `create_namespace` checked and did. -/
theorem create_namespace_ok {call : NamespaceCall} (h : createNamespace p tables call = .ok after) :
    ∃ store visibility, tables.storeOf p call = some store ∧ store ∈ tables.stores ∧
      store.id = call.storeId ∧
      (store.kind.guardsNamespaces = true → call.access.allowed = true) ∧
      tables.insertNamespace (call.row p store visibility) = .ok after := by
  unfold createNamespace at h
  split at h
  · cases h
  split at h
  · cases h
  rename_i store hstore
  split at h
  · cases h
  rename_i hallowed
  split at h
  · cases h
  split at h
  · cases h
  rename_i visibility hvisibility
  obtain ⟨hmem, hfound⟩ := Table.find?_some hstore
  simp only [Bool.and_eq_true, decide_eq_true_eq] at hfound
  refine ⟨store, visibility, hstore, hmem, hfound.1, fun hguards => ?_, h⟩
  simpa [hguards] using hallowed

theorem create_store_fenced (hfits : call.Fits p orgName tables) (hfenced : tables.Fenced)
    (h : createStore p orgName now tables call = .ok after) : after.Fenced := by
  obtain ⟨kind, before, stored, hkind, -, hbefore, hstored, h⟩ := create_store_ok h
  have hregistered : (before.registerApp call (call.row p kind)).Fenced := by
    have hbeforeFenced := ensure_identity_for_principal_fenced hfenced hfits.clear hbefore
    unfold StoreTables.registerApp
    split
    · split <;> exact ⟨hbeforeFenced.stores, hbeforeFenced.namespaces⟩
    · exact hbeforeFenced
  have hstoredFenced : stored.Fenced := by
    refine (StoreTables.insert_store_added hstored).fenced (fun row heq => ?_) (fun _ heq => nomatch heq)
      hregistered
    cases heq
    exact hfits.homed hkind
  split at h
  · exact (StoreTables.add_organization_added h).fenced (fun _ heq => nomatch heq) (fun _ heq => nomatch heq)
      hstoredFenced
  · cases h
    exact hstoredFenced

theorem NamespaceCall.Fits.under {call : NamespaceCall} {managed : Bool} {store : StoreRow}
    (h : call.Fits p managed store) :
    Python.under (call.uriPrefix p store) store.uriPrefix = true := by
  cases hnamed : present call.payload.uriPrefix with
  | true => exact h.named hnamed
  | false =>
      rw [show call.uriPrefix p store = defaultNamespacePrefix store.uriPrefix (call.name p) from
        opt_or_of_absent hnamed _]
      exact under_rstrip_append _ _

theorem create_namespace_fenced {call : NamespaceCall} {managed : Bool} {store : StoreRow}
    {visibility : Visibility} (hfits : call.Fits p managed store) (hmem : store ∈ tables.stores)
    (hid : store.id = call.storeId) (hfenced : tables.Fenced)
    (h : tables.insertNamespace (call.row p store visibility) = .ok after) : after.Fenced := by
  refine (StoreTables.insert_namespace_added h).fenced (fun _ heq => nomatch heq) ?_ hfenced
  intro space heq other hother hotherId
  cases heq
  have hsame : other = store := Table.eq_of_conflict hother hmem (.inl (hotherId.trans hid.symm))
  rw [hsame]
  exact hfits.under

end

/-! ## Runs -/

section

variable {p : Platform} {orgName : String} {state : Creations} {principal : Principal}
variable {rest : Surroundings} {newId : String}

/-- What a run keeps: the tables are fenced, and whatever was created without `manage` on the tenant
is in a home of its creator. -/
structure Creations.Sound (state : Creations) : Prop where
  fenced : state.tables.Fenced
  created : ∀ creation ∈ state.created, creation.authorized = true ∧
    (creation.managed = false → ∃ owner ∈ creation.owners, owner.Plain ∧
      under creation.uriPrefix owner.home = true)

theorem Creations.Sound.confined (h : state.Sound) : state.Confined := by
  refine ⟨fun creation hcreation => (h.created creation hcreation).1, h.fenced.namespaces,
    fun creation hcreation hmanaged root hroot => ?_,
    fun creation hcreation hmanaged store hstore owner howner hother => ?_⟩
  · obtain ⟨owner, -, hplain, hunder⟩ := (h.created creation hcreation).2 hmanaged
    exact Owner.not_reserved hplain hunder hroot
  · obtain ⟨mine, hmine, hplain, hunder⟩ := (h.created creation hcreation).2 hmanaged
    obtain ⟨hownerPlain, hhome⟩ := h.fenced.stores store hstore owner howner
    by_contra hover
    rw [Bool.not_eq_false] at hover
    have hsame := Owner.home_inj hplain hownerPlain hunder (under_trans hover hhome)
    exact hother (hsame ▸ hmine)

theorem owned_by_iff {store : StoreRow} :
    store.ownedBy p principal = true ↔
      ∃ owner ∈ principal.owners p, store.owner = some owner := by
  unfold StoreRow.ownedBy
  cases store.owner with
  | none => simp
  | some owner => simp

/-- A store that is created without `manage` on the tenant is its creator's. -/
theorem created_owned {tables : StoreTables} {call : StoreCall} {kind : StoreKind}
    (hfits : call.Fits p orgName tables) (hkind : call.kind = some kind)
    (hneeds : kind.needsManage = true → call.access.allowed = true)
    (hmanaged : call.access.allowed = false) :
    (call.row p kind).ownedBy p call.caller.principal = true := by
  cases kind with
  | userPrivate => exact owned_by_iff.mpr ⟨_, List.mem_cons_self, owner_of_user (.inl rfl) rfl⟩
  | userShared => exact owned_by_iff.mpr ⟨_, List.mem_cons_self, owner_of_user (.inr rfl) rfl⟩
  | app => exact hfits.app hkind hmanaged
  | org | system | allUsers => exact absurd (hneeds rfl) (by rw [hmanaged]; decide)

/-- A call of `create_store` keeps it. -/
theorem store_step_sound {caller : SignIn} {payload : StorePayload}
    (hfits : state.Fits p orgName (.store rest caller payload newId)) (h : state.Sound) :
    (state.step p orgName (.store rest caller payload newId)).Sound := by
  simp only [Creations.step]
  split
  · rename_i after hcreated
    refine ⟨create_store_fenced hfits h.fenced hcreated, fun creation hcreation => ?_⟩
    rcases List.mem_append.mp hcreation with hold | hnew
    · exact h.created creation hold
    · obtain ⟨kind, -, -, hkind, hneeds, -⟩ := create_store_ok hcreated
      rw [hkind] at hnew
      cases List.mem_singleton.mp hnew
      refine ⟨rfl, fun hmanaged => ?_⟩
      obtain ⟨owner, hmine, howner⟩ :=
        owned_by_iff.mp (created_owned hfits hkind hneeds hmanaged)
      exact ⟨owner, hmine, hfits.homed hkind owner howner⟩
  · exact h

/-- A call of `create_namespace` keeps it. -/
theorem space_step_sound {payload : NamespacePayload} (hfits : state.Fits p orgName
    (.space rest principal payload newId)) (h : state.Sound) :
    (state.step p orgName (.space rest principal payload newId)).Sound := by
  simp only [Creations.step]
  split
  · rename_i after hcreated
    obtain ⟨store, visibility, hfound, hmem, hid, hguards, hinsert⟩ := create_namespace_ok hcreated
    have hcall := hfits store hfound
    refine ⟨create_namespace_fenced hcall hmem hid h.fenced hinsert, fun creation hcreation => ?_⟩
    rcases List.mem_append.mp hcreation with hold | hnew
    · exact h.created creation hold
    · rw [hfound] at hnew
      cases List.mem_singleton.mp hnew
      refine ⟨?_, fun hmanaged => ?_⟩
      · simp only [NamespaceCall.creation, Bool.or_eq_true]
        rcases hcall.authorized with hguarded | howned | hallowed
        · exact .inr (hguards hguarded)
        · exact .inl howned
        · exact .inr hallowed
      · obtain ⟨owner, hmine, howner⟩ := owned_by_iff.mp (hcall.owned hmanaged)
        obtain ⟨hplain, hhome⟩ := h.fenced.stores store hmem owner howner
        exact ⟨owner, hmine, hplain, under_trans hcall.under hhome⟩
  · exact h

/-- A namespace that was created without leaving its creator's authority was asked for so. -/
theorem confined_space {payload : NamespacePayload} {after : StoreTables} {store : StoreRow}
    (hfound : state.tables.storeOf p
      (state.tables.namespaceCall p rest principal payload newId) = some store)
    (hcreated : createNamespace p state.tables
      (state.tables.namespaceCall p rest principal payload newId) = .ok after)
    (h : (state.step p orgName (.space rest principal payload newId)).Confined) :
    under ((state.tables.namespaceCall p rest principal payload newId).uriPrefix p store)
      store.uriPrefix = true ∧
    (store.ownedBy p principal = true ∨
      (state.tables.namespaceCall p rest principal payload newId).access.allowed = true) := by
  obtain ⟨found, visibility, hsame, hmem, hid, -, hinsert⟩ := create_namespace_ok hcreated
  cases hfound.symm.trans hsame
  have hstep : state.step p orgName (.space rest principal payload newId) =
      ⟨after, state.created ++ [NamespaceCall.creation p
        (state.tables.namespaceCall p rest principal payload newId)
        (state.tables.managesTenant p rest principal) store]⟩ := by
    simp only [Creations.step, hcreated, hfound]
    rfl
  rw [hstep] at h
  have hadded := StoreTables.insert_namespace_added hinsert
  obtain ⟨hrow, -⟩ := StoreTables.insert_namespace_ok hinsert
  refine ⟨?_, ?_⟩
  · obtain ⟨other, hother, hotherId, hunder⟩ :=
      h.namespaces _ ((Table.mem_insert? hrow _).mpr (.inr rfl))
    rcases hadded.stores other hother with hold | hnew
    · have hsameStore : other = store :=
        Table.eq_of_conflict hold hmem (.inl (hotherId.trans hid.symm))
      rwa [hsameStore] at hunder
    · cases hnew
  · have hauthorized := h.authorized _ (List.mem_append_right _ (List.mem_singleton.mpr rfl))
    simp only [NamespaceCall.creation, Bool.or_eq_true] at hauthorized
    exact hauthorized

end

/-- In a database in which every store is in the home of its owner and every namespace under its
own store, calls that stay in their caller's authority leave everything that is created inside it. A
namespace whose call names a prefix elsewhere, or whose creator neither owns the store nor may
manage it, is created outside. -/
theorem creation_confined (p : Platform) (orgName : String) (start : StoreTables)
    (hstart : start.Fenced) :
    (∀ actions, Along (Creations.step p orgName) (Creations.Fits p orgName) ⟨start, []⟩ actions →
      (run (Creations.step p orgName) ⟨start, []⟩ actions).Confined) ∧
    ∀ (state : Creations) rest principal payload newId after store,
      let call := state.tables.namespaceCall p rest principal payload newId
      state.tables.storeOf p call = some store → createNamespace p state.tables call = .ok after →
      (state.step p orgName (.space rest principal payload newId)).Confined →
      under (call.uriPrefix p store) store.uriPrefix = true ∧
        (store.ownedBy p principal = true ∨ call.access.allowed = true) := by
  refine ⟨fun actions hfits => ?_, fun state rest principal payload newId after store hfound
    hcreated => confined_space hfound hcreated⟩
  refine Creations.Sound.confined (run_invariant_along (I := Creations.Sound) ?_ hfits
    ⟨hstart, fun _ h => absurd h List.not_mem_nil⟩)
  intro state action hfits h
  cases action with
  | store rest caller payload newId => exact store_step_sound hfits h
  | space rest principal payload newId => exact space_step_sound hfits h

theorem commons_tenant : [({ id := "asg", slug := "asg", displayName := "ASG" } : TenantRow)].Pairwise
    fun a b => ¬ Relational.Constrained.Conflict a b :=
  List.pairwise_singleton _ _

/-- The store of all users, and the private store of alice. -/
def commons : StoreTables where
  tenants := ⟨[{ id := "asg", slug := "asg", displayName := "ASG" }], commons_tenant⟩
  identities := .empty
  apps := .empty
  stores :=
    ⟨[{ id := "all", tenantId := "asg", kind := .allUsers, name := "All"
        uriPrefix := "cap://all/asg" },
      { id := "hers", tenantId := "asg", kind := .userPrivate, name := "Hers"
        uriPrefix := "cap://user/asg/alice/private", ownerIdentityId := some "alice" }],
      by decide⟩
  organizations := .empty
  namespaces := .empty

theorem commons_fenced : commons.Fenced := by
  refine ⟨fun store hstore => ?_, fun space hspace => absurd hspace List.not_mem_nil⟩
  rcases List.mem_cons.mp hstore with rfl | hstore
  · exact homed_of_managed rfl
  · cases List.mem_singleton.mp hstore
    refine homed_of_user "private" (.inl rfl) rfl (by decide) fun owner howner => ?_
    rw [owner_of_user (.inl rfl) rfl] at howner
    cases howner
    exact ⟨by decide, by decide⟩

/-- A call for a new namespace, in a catalog where nobody was given anything. -/
def newSpace (subject : String) (payload : NamespacePayload) : Creating :=
  .space ⟨.empty, [], "2026-01-01 00:00:00"⟩
    { subject, tenantId := "asg", identityId := some subject } payload "ns_new"

/-- A namespace that mallory, who owns and manages nothing, asks for in the store of all users. -/
def forgedSpace : Creating :=
  newSpace "mallory"
    { storeId := some "all", name := some "hr", uriPrefix := some "cap://org/asg/hr" }

/-- Mallory gets a namespace in a store that is not hers, at an address of the organization. -/
theorem creation_confined_counterexample :
    (¬ ∀ p orgName (start : StoreTables) actions, start.Fenced →
      ∀ creation ∈ (run (Creations.step p orgName) ⟨start, []⟩ actions).created,
        creation.authorized = true) ∧
    (¬ ∀ p orgName (start : StoreTables) actions, start.Fenced →
      let state := run (Creations.step p orgName) ⟨start, []⟩ actions
      ∀ space ∈ state.tables.namespaces, ∃ store ∈ state.tables.stores,
        store.id = space.storeId ∧ under space.uriPrefix store.uriPrefix = true) ∧
    ¬ ∀ p orgName (start : StoreTables) actions, start.Fenced →
      ∀ creation ∈ (run (Creations.step p orgName) ⟨start, []⟩ actions).created,
        creation.managed = false → ∀ root ∈ reservedRoots,
          under creation.uriPrefix root = false := by
  refine ⟨fun hclaim => ?_, fun hclaim => ?_, fun hclaim => ?_⟩
  · have hauthorized := hclaim .sample "ASG" commons [forgedSpace] commons_fenced
    revert hauthorized
    decide +kernel
  · have hunder := hclaim .sample "ASG" commons [forgedSpace] commons_fenced
    revert hunder
    decide +kernel
  · have hreserved := hclaim .sample "ASG" commons [forgedSpace] commons_fenced
    revert hreserved
    decide +kernel

/-- Alice creates a namespace in her own store. -/
theorem creation_confined_own :
    (run (Creations.step .sample "ASG") ⟨commons, []⟩
      [newSpace "alice" { storeId := some "hers", name := some "drafts" }]).Confined := by
  refine (creation_confined .sample "ASG" commons commons_fenced).1 _ ⟨?_, trivial⟩
  intro store hfound
  obtain ⟨hstore, hid⟩ := Table.find?_some hfound
  rcases List.mem_cons.mp hstore with rfl | hstore
  · exact absurd hid (by decide)
  · cases List.mem_singleton.mp hstore
    exact ⟨fun hnamed => absurd hnamed (by decide), .inr (.inl (by decide)), fun _ => by decide⟩

end Capmesh
