import Capmesh.Directory.Stores

/-!
# One person, three sources

SCIM, the tailnet sync and the first request of a principal all write a person's row of
`identities`. Each derives its id from a key of its own and handles a conflict on the id alone,
while the user name and the external id are unique in a tenant too. Once a row has the user name, a write
under another id fails (`arrive_same_id`), and writes under one id never do (`arrive_reached`): so
the order does not matter exactly when the calls resolve to one id.
-/

namespace Capmesh

open Python Relational

/-- A source reports a person. -/
inductive Arrival where
  | scim (user : ScimUser) (now : String)
  | tailnet (user : TailnetIdentity) (now : String)
  | signIn (request : SignIn) (now : String)

namespace Arrival

variable (p : Platform)

/-- The row a call inserts. -/
def row : Arrival → IdentityRow
  | scim user now => user.row p now
  | tailnet user now => user.row p now
  | signIn request now => request.row p now

/-- The identity a call is about. -/
def identityId (call : Arrival) : String := (call.row p).id

/-- What a call makes of the row with its id. -/
def refresh : Arrival → IdentityRow → IdentityRow
  | scim user now, old =>
      { user.row p now with tenantId := old.tenantId, identityType := old.identityType }
  | tailnet user now, old =>
      { user.row p now with
        tenantId := old.tenantId, identityType := old.identityType
        entraObjectId := old.entraObjectId }
  | signIn request now, old =>
      { request.row p now with
        tenantId := old.tenantId, externalId := old.externalId
        email := (request.row p now).email.or old.email
        identityType := old.identityType, entraObjectId := old.entraObjectId }

/-- Whether a call is a request of the person itself. -/
def isSignIn : Arrival → Bool
  | signIn _ _ => true
  | _ => false

/-- A call that concerns one person: a user name of a tenant. -/
structure Concerns (tenant name : String) (call : Arrival) : Prop where
  tenant : (call.row p).tenantId = tenant
  name : (call.row p).userName = name

end Arrival

/-- One call, on the tables of the directory. -/
def StoreTables.arrive (p : Platform) (orgName : String) (tables : StoreTables) :
    Arrival → Except Failure StoreTables
  | .scim user now => do
      let identities ← upsertUser p tables.identities user now
      foreignKey (tables.tenants.any (·.id = user.tenantId)) { tables with identities }
  | .tailnet user now => do
      let identities ← upsertIdentityFromTailnet p tables.identities user now
      foreignKey (tables.tenants.any (·.id = user.tenantId)) { tables with identities }
  | .signIn request now => tables.ensureIdentityForPrincipal p orgName now request

/-- The calls in their order, each of which has to succeed. -/
def StoreTables.arriveAll (p : Platform) (orgName : String) :
    StoreTables → List Arrival → Except Failure StoreTables
  | tables, [] => .ok tables
  | tables, call :: calls => do
      let tables ← tables.arrive p orgName call
      tables.arriveAll p orgName calls

/-- The private and the shared store of a person. -/
def personalStore (p : Platform) (tenant name id : String) : StoreRow :=
  identityStore p tenant (safeSubject name) id .userPrivate "private" "Private"

def sharedStore (p : Platform) (tenant name id : String) : StoreRow :=
  identityStore p tenant (safeSubject name) id .userShared "shared" "Shared"

/-- A person the tables do not know yet, in a deployment that is set up: the default tenant and the
person's are there, no row of the tenant has the name or one of the external ids the calls bring,
none the id, and no store is the person's or stands where its stores will. -/
structure StoreTables.Unknown (p : Platform) (orgName : String) (tables : StoreTables)
    (tenant name : String) (calls : List Arrival) : Prop where
  ready : tables.hasTenant orgName p.defaultTenant = true
  known : tables.tenants.any (·.id = tenant) = true
  named : name ≠ ""
  identities : ∀ old ∈ tables.identities, ∀ call ∈ calls, ¬ Constrained.Conflict old (call.row p)
  owned : ∀ store ∈ tables.stores, ∀ call ∈ calls,
    store.ownerIdentityId ≠ some (call.identityId p)
  free : ∀ store ∈ tables.stores, ∀ call ∈ calls,
    ¬ Constrained.Conflict store (personalStore p tenant name (call.identityId p)) ∧
      ¬ Constrained.Conflict store (sharedStore p tenant name (call.identityId p))
  distinct : ∀ call ∈ calls,
    (personalStore p tenant name (call.identityId p)).id ≠
        (sharedStore p tenant name (call.identityId p)).id ∧
      (personalStore p tenant name (call.identityId p)).id ≠ (defaultOrgStore p orgName tenant).id ∧
      (sharedStore p tenant name (call.identityId p)).id ≠ (defaultOrgStore p orgName tenant).id

/-- One row of the tenant has the user name, and the person's stores are its own: those the calls
created, and a private and a shared one once the person itself was there. -/
structure OneIdentity (start after : StoreTables) (tenant name : String) (calls : List Arrival) :
    Prop where
  row : ∃ mine ∈ after.identities, (mine.tenantId = tenant ∧ mine.userName = name) ∧
    (∀ other ∈ after.identities, other.tenantId = tenant → other.userName = name →
      other = mine) ∧
    (∀ store ∈ after.stores, store.kind.isUser = true →
      store ∈ start.stores ∨ store.ownerIdentityId = some mine.id) ∧
    (calls.any Arrival.isSignIn = true → ∀ kind, kind = .userPrivate ∨ kind = .userShared →
      ∃ store ∈ after.stores, store.kind = kind ∧ store.tenantId = tenant ∧
        store.ownerIdentityId = some mine.id)

/-! ## What one call writes -/

section

variable {p : Platform} {orgName tenant name : String} {tables after start : StoreTables}
variable {call : Arrival} {calls : List Arrival}

theorem refresh_eq (call : Arrival) (old : IdentityRow) :
    (call.refresh p old).id = call.identityId p ∧ (call.refresh p old).tenantId = old.tenantId ∧
      (call.refresh p old).userName = (call.row p).userName ∧
      ((call.refresh p old).externalId = (call.row p).externalId ∨
        (call.refresh p old).externalId = old.externalId) := by
  cases call with
  | scim user now => exact ⟨rfl, rfl, rfl, .inl rfl⟩
  | tailnet user now => exact ⟨rfl, rfl, rfl, .inl rfl⟩
  | signIn request now => exact ⟨rfl, rfl, rfl, .inr rfl⟩

theorem add_all_added {items : List Provision} (h : tables.addAll items = .ok after) :
    after.tenants = tables.tenants ∧ after.identities = tables.identities := by
  induction items generalizing tables with
  | nil =>
      cases h
      exact ⟨rfl, rfl⟩
  | cons item items ih =>
      unfold StoreTables.addAll at h
      obtain ⟨mid, hmid, h⟩ := bind_eq_ok h
      have hadded := StoreTables.add_added hmid
      obtain ⟨htenants, hidentities⟩ := ih h
      exact ⟨htenants.trans hadded.tenants, hidentities.trans hadded.identities⟩

theorem ensure_default_tenant_ready {now : String}
    (hready : tables.hasTenant orgName p.defaultTenant = true) :
    tables.ensureDefaultTenant p orgName p.defaultTenant now = .ok tables := if_pos hready

theorem arrive_ok (hready : tables.hasTenant orgName p.defaultTenant = true)
    (h : tables.arrive p orgName call = .ok after) :
    after.tenants = tables.tenants ∧
      (upsertIdentity tables.identities (call.row p) (call.refresh p) = .ok after.identities ∨
        after.identities = tables.identities ∧ ∃ old ∈ tables.identities,
          old.id = call.identityId p ∧ old.tenantId = (call.row p).tenantId ∧
            old.userName = (call.row p).userName) := by
  cases call with
  | scim user now =>
      obtain ⟨identities, hupsert, h⟩ := bind_eq_ok h
      obtain ⟨-, rfl⟩ := StoreTables.foreign_key_ok h
      refine ⟨rfl, .inl ?_⟩
      unfold upsertUser at hupsert
      dsimp only at hupsert
      split at hupsert
      · cases hupsert
      · split at hupsert
        · cases hupsert
        · exact hupsert
  | tailnet user now =>
      obtain ⟨identities, hupsert, h⟩ := bind_eq_ok h
      obtain ⟨-, rfl⟩ := StoreTables.foreign_key_ok h
      exact ⟨rfl, .inl hupsert⟩
  | signIn request now =>
      simp only [StoreTables.arrive, StoreTables.ensureIdentityForPrincipal,
        ensure_default_tenant_ready hready] at h
      split at h
      · rename_i hunchanged
        obtain ⟨old, hold, hsame⟩ := Table.any_iff.mp hunchanged
        have hkeys : old.id = (request.row p now).id ∧
            old.tenantId = (request.row p now).tenantId ∧
            old.userName = (request.row p now).userName := by
          simp only [SignIn.isUnchanged, Bool.and_eq_true, decide_eq_true_eq] at hsame
          exact ⟨hsame.1.1.1.1.1.1.1, hsame.1.1.1.1.1.1.2, hsame.1.1.1.1.1.2⟩
        split at h
        · cases h
          exact ⟨rfl, .inr ⟨rfl, old, hold, hkeys⟩⟩
        · obtain ⟨htenants, hidentities⟩ := add_all_added h
          exact ⟨htenants, .inr ⟨hidentities, old, hold, hkeys⟩⟩
      · rename_i hchanged
        obtain ⟨mid, hmid, h⟩ := bind_eq_ok h
        cases hmid
        obtain ⟨identities, hupsert, h⟩ := bind_eq_ok h
        obtain ⟨next, hnext, h⟩ := bind_eq_ok h
        obtain ⟨-, rfl⟩ := StoreTables.foreign_key_ok hnext
        obtain ⟨htenants, hidentities⟩ := add_all_added h
        refine ⟨htenants, .inl ?_⟩
        rw [hidentities]
        unfold SignIn.ensureIdentityForPrincipal at hupsert
        dsimp only at hupsert
        rwa [if_neg hchanged] at hupsert

/-! ## Calls that succeed -/

/-- Rows of the tenant in place of those a start does not have. -/
structure StoreTables.Reported (start tables : StoreTables) (tenant : String) : Prop where
  tenants : tables.tenants = start.tenants
  identities : ∀ row ∈ tables.identities, row ∈ start.identities ∨ row.tenantId = tenant

theorem arrive_named (hunknown : start.Unknown p orgName tenant name calls)
    (hreported : start.Reported tables tenant) (hcall : call ∈ calls)
    (hconcerns : call.Concerns p tenant name) (h : tables.arrive p orgName call = .ok after) :
    start.Reported after tenant ∧ (∃ mine ∈ after.identities, mine.id = call.identityId p ∧
      mine.tenantId = tenant ∧ mine.userName = name) ∧
    ∀ old ∈ tables.identities, old.id = call.identityId p ∨ old ∈ after.identities := by
  have hready : tables.hasTenant orgName p.defaultTenant = true := by
    unfold StoreTables.hasTenant
    rw [hreported.tenants]
    exact hunknown.ready
  have hforeign : ∀ old ∈ tables.identities, old.id = call.identityId p →
      old.tenantId = tenant := by
    intro old hold hid
    refine (hreported.identities old hold).resolve_left fun hstart => ?_
    exact hunknown.identities old hstart call hcall (.inl hid)
  obtain ⟨htenants, hupsert | ⟨hsame, old, hold, hid, htenant, hname⟩⟩ := arrive_ok hready h
  · obtain ⟨written, hreplaced, hwritten⟩ := Table.mem_upsert? identity_conflict_of_id
      (constrained_ok hupsert) fun old => (refresh_eq call old).1
    have hkeys : written.id = call.identityId p ∧ written.tenantId = tenant ∧
        written.userName = name := by
      rcases hwritten with ⟨rfl, -⟩ | ⟨old, hold, hid, rfl⟩
      · exact ⟨rfl, hconcerns.tenant, hconcerns.name⟩
      · obtain ⟨hrowId, htenant, hname, -⟩ := refresh_eq (p := p) call old
        exact ⟨hrowId, htenant.trans (hforeign old hold hid), hname.trans hconcerns.name⟩
    refine ⟨⟨htenants.trans hreported.tenants, fun row hrow => ?_⟩,
      ⟨written, (hreplaced written).mpr (.inl rfl), hkeys⟩, fun old hold => ?_⟩
    · rcases (hreplaced row).mp hrow with rfl | ⟨hold, -⟩
      · exact .inr hkeys.2.1
      · exact hreported.identities row hold
    · by_cases hid : old.id = call.identityId p
      · exact .inl hid
      · exact .inr ((hreplaced old).mpr (.inr ⟨hold, fun h => hid (h.trans hkeys.1)⟩))
  · refine ⟨⟨htenants.trans hreported.tenants, ?_⟩, ?_, fun row hrow => .inr ?_⟩
    · rw [hsame]
      exact hreported.identities
    · rw [hsame]
      exact ⟨old, hold, hid, htenant.trans hconcerns.tenant, hname.trans hconcerns.name⟩
    · rw [hsame]
      exact hrow

theorem arrive_same_id (hunknown : start.Unknown p orgName tenant name calls)
    (hreported : start.Reported tables tenant) (hcall : call ∈ calls)
    (hconcerns : call.Concerns p tenant name) (h : tables.arrive p orgName call = .ok after)
    {old : IdentityRow} (hold : old ∈ tables.identities) (htenant : old.tenantId = tenant)
    (hname : old.userName = name) : old.id = call.identityId p := by
  obtain ⟨-, ⟨mine, hmine, hid, hmineTenant, hmineName⟩, hkept⟩ :=
    arrive_named hunknown hreported hcall hconcerns h
  rcases hkept old hold with hsame | hstays
  · exact hsame
  · have hsame : old = mine := Table.eq_of_conflict hstays hmine
      (.inr ⟨htenant.trans hmineTenant.symm, .inl (hname.trans hmineName.symm)⟩)
    rw [hsame, hid]

theorem arrive_all_same_id {rest : List Arrival}
    (hunknown : start.Unknown p orgName tenant name calls)
    (hconcerns : ∀ call ∈ calls, call.Concerns p tenant name) (hrest : ∀ call ∈ rest, call ∈ calls)
    (hreported : start.Reported tables tenant) {old : IdentityRow} (hold : old ∈ tables.identities)
    (htenant : old.tenantId = tenant) (hname : old.userName = name)
    (h : tables.arriveAll p orgName rest = .ok after) :
    ∀ call ∈ rest, call.identityId p = old.id := by
  induction rest generalizing tables old with
  | nil => exact fun call hcall => absurd hcall List.not_mem_nil
  | cons call rest ih =>
      unfold StoreTables.arriveAll at h
      obtain ⟨mid, hmid, h⟩ := bind_eq_ok h
      have hcall := hrest call List.mem_cons_self
      have hid := arrive_same_id hunknown hreported hcall (hconcerns call hcall) hmid hold htenant
        hname
      obtain ⟨hmidReported, ⟨mine, hmine, hmineId, hmineTenant, hmineName⟩, -⟩ :=
        arrive_named hunknown hreported hcall (hconcerns call hcall) hmid
      have hlater := ih (fun next hnext => hrest next (List.mem_cons_of_mem _ hnext)) hmidReported
        hmine hmineTenant hmineName h
      intro next hnext
      rcases List.mem_cons.mp hnext with rfl | hnext
      · exact hid.symm
      · rw [hlater next hnext, hmineId, hid]

/-! ## Calls under one id -/

theorem add_store_succeeds {row : StoreRow} (htenant : tables.tenants.any (·.id = row.tenantId))
    (howner : row.ownerIdentityId.all fun id => tables.identities.any (·.id = id))
    (happ : row.ownerAppId = none) : ∃ mid, tables.add (.store row) = .ok mid := by
  simp only [StoreTables.add, StoreTables.addStore]
  cases hinsert : tables.stores.insert? row with
  | none => exact ⟨tables, rfl⟩
  | some stores =>
      refine ⟨{ tables with stores }, ?_⟩
      simp only [Option.isSome_some, if_true, StoreTables.insertStore, hinsert, constrained,
        foreignKey, htenant, howner, happ, Option.all_none, Bool.and_self]
      rfl

/-- A provisioned store whose place is free, or taken by itself, is there afterwards. -/
theorem add_store_mem {row : StoreRow} {mid : StoreTables}
    (hfree : ∀ store ∈ tables.stores, Constrained.Conflict store row → store = row)
    (h : tables.add (.store row) = .ok mid) : row ∈ mid.stores := by
  simp only [StoreTables.add, StoreTables.addStore] at h
  split at h
  · obtain ⟨hinsert, -⟩ := StoreTables.insert_store_ok h
    exact (Table.mem_insert? hinsert row).mpr (.inr rfl)
  · rename_i hsome
    cases h
    rw [Table.insert?_isSome_iff] at hsome
    simp only [not_forall, not_not] at hsome
    obtain ⟨store, hstore, hconflict⟩ := hsome
    exact hfree store hstore hconflict ▸ hstore

theorem add_space_succeeds {row : NamespaceRow}
    (htenant : tables.tenants.any (·.id = row.tenantId)) {store : StoreRow}
    (hstore : store ∈ tables.stores) (hid : store.id = row.storeId) :
    ∃ mid, tables.add (.space row) = .ok mid := by
  have hthere : tables.stores.any (·.id = row.storeId) = true :=
    Table.any_iff.mpr ⟨store, hstore, by simpa using hid⟩
  simp only [StoreTables.add, StoreTables.addNamespace]
  cases hinsert : tables.namespaces.insert? row with
  | none => exact ⟨tables, rfl⟩
  | some namespaces =>
      refine ⟨{ tables with namespaces }, ?_⟩
      simp only [Option.isSome_some, if_true, StoreTables.insertNamespace, hinsert, constrained,
        foreignKey, htenant, hthere, Bool.and_self]
      rfl

/-- Where the stores of a person are: those of the start, and the three that its first request
provisions. -/
structure StoreTables.Housed (start tables : StoreTables) (p : Platform)
    (orgName tenant name id : String) : Prop where
  tenants : tables.tenants = start.tenants
  owner : tables.identities.any (·.id = id) = true
  stores : ∀ store ∈ tables.stores, store ∈ start.stores ∨
    store ∈ [personalStore p tenant name id, sharedStore p tenant name id,
      defaultOrgStore p orgName tenant]

theorem StoreTables.Housed.added {id : String} {item : Provision} {mid : StoreTables}
    (h : start.Housed tables p orgName tenant name id)
    (hitem : ∀ row, item = .store row → row ∈ [personalStore p tenant name id,
      sharedStore p tenant name id, defaultOrgStore p orgName tenant])
    (hadd : tables.add item = .ok mid) : start.Housed mid p orgName tenant name id := by
  have hadded := StoreTables.add_added hadd
  refine ⟨hadded.tenants.trans h.tenants, ?_, fun store hstore => ?_⟩
  · rw [hadded.identities]
    exact h.owner
  · rcases hadded.stores store hstore with hold | hnew
    · exact h.stores store hold
    · exact .inr (hitem store hnew)

/-- The three stores have prefixes of their own. -/
theorem store_prefixes_ne (p : Platform) (orgName tenant name id : String) :
    (personalStore p tenant name id).uriPrefix ≠ (sharedStore p tenant name id).uriPrefix ∧
      (personalStore p tenant name id).uriPrefix ≠ (defaultOrgStore p orgName tenant).uriPrefix ∧
      (sharedStore p tenant name id).uriPrefix ≠ (defaultOrgStore p orgName tenant).uriPrefix := by
  simp [personalStore, sharedStore, identityStore, defaultOrgStore, ← String.toList_inj]

/-- The provisioned stores of a person are free, or its own already. -/
theorem housed_free {id : String} (hunknown : start.Unknown p orgName tenant name calls)
    (hcall : call ∈ calls) (hid : call.identityId p = id)
    (h : start.Housed tables p orgName tenant name id) {row : StoreRow}
    (hrow : row = personalStore p tenant name id ∨ row = sharedStore p tenant name id) :
    ∀ store ∈ tables.stores, Constrained.Conflict store row → store = row := by
  subst hid
  intro store hstore hconflict
  obtain ⟨hids, hpersonalOrg, hsharedOrg⟩ := hunknown.distinct call hcall
  obtain ⟨hprefixes, hpersonalPrefix, hsharedPrefix⟩ :=
    store_prefixes_ne p orgName tenant name (call.identityId p)
  rcases h.stores store hstore with hstart | hthree
  · obtain ⟨hpersonal, hshared⟩ := hunknown.free store hstart call hcall
    rcases hrow with rfl | rfl
    · exact absurd hconflict hpersonal
    · exact absurd hconflict hshared
  · simp only [List.mem_cons, List.not_mem_nil, or_false] at hthree
    rcases hthree with rfl | rfl | rfl <;> rcases hrow with rfl | rfl
    · rfl
    · exact absurd hconflict (not_or.mpr ⟨hids, hprefixes⟩)
    · exact absurd hconflict (not_or.mpr ⟨hids.symm, hprefixes.symm⟩)
    · rfl
    · exact absurd hconflict (not_or.mpr ⟨hpersonalOrg.symm, hpersonalPrefix.symm⟩)
    · exact absurd hconflict (not_or.mpr ⟨hsharedOrg.symm, hsharedPrefix.symm⟩)

theorem add_all_cons {item : Provision} {items : List Provision} {mid : StoreTables}
    (h : tables.add item = .ok mid) : tables.addAll (item :: items) = mid.addAll items := by
  rw [StoreTables.addAll, h]
  rfl

theorem add_home {id subject label space : String} {row : StoreRow}
    (hunknown : start.Unknown p orgName tenant name calls) (hcall : call ∈ calls)
    (hid : call.identityId p = id) (h : start.Housed tables p orgName tenant name id)
    (hrow : row = personalStore p tenant name id ∨ row = sharedStore p tenant name id) :
    ∃ mid after, tables.add (.store row) = .ok mid ∧
      mid.add (.space (identityNamespace p subject label space row)) = .ok after ∧
      after.identities = tables.identities ∧ start.Housed after p orgName tenant name id ∧
      row ∈ after.stores ∧ ∀ store ∈ tables.stores, store ∈ after.stores := by
  have hplace : row.tenantId = tenant ∧ row.ownerIdentityId = some id ∧ row.ownerAppId = none ∧
      row ∈ [personalStore p tenant name id, sharedStore p tenant name id,
        defaultOrgStore p orgName tenant] := by
    rcases hrow with rfl | rfl
    · exact ⟨rfl, rfl, rfl, by simp⟩
    · exact ⟨rfl, rfl, rfl, by simp⟩
  obtain ⟨htenant, howner, happ, hthree⟩ := hplace
  have hknown : ∀ {mid : StoreTables}, mid.tenants = start.tenants →
      mid.tenants.any (·.id = row.tenantId) = true := by
    intro mid hmid
    rw [hmid, htenant]
    exact hunknown.known
  obtain ⟨mid, hmid⟩ := add_store_succeeds (hknown h.tenants)
    (by rw [howner]; exact h.owner) happ
  have hmem := add_store_mem (housed_free hunknown hcall hid h hrow) hmid
  have hmidHoused := h.added (fun other heq => by cases heq; exact hthree) hmid
  obtain ⟨after, hafter⟩ := @add_space_succeeds mid (identityNamespace p subject label space row)
    (hknown hmidHoused.tenants) row hmem rfl
  have hfirst := StoreTables.add_added hmid
  have hsecond := StoreTables.add_added hafter
  exact ⟨mid, after, hmid, hafter, hsecond.identities.trans hfirst.identities,
    hmidHoused.added (fun _ heq => by cases heq) hafter, hsecond.kept row hmem,
    fun store hstore => hsecond.kept store (hfirst.kept store hstore)⟩

/-- `ensure_principal_stores` succeeds for such a person, and then both stores are there. -/
theorem ensure_principal_stores_housed {id : String} {principal : Principal}
    (hunknown : start.Unknown p orgName tenant name calls) (hcall : call ∈ calls)
    (hid : call.identityId p = id) (hsubject : principal.subject = name)
    (htenant : p.tenantOr principal.tenantId = tenant)
    (h : start.Housed tables p orgName tenant name id) :
    ∃ after, tables.ensurePrincipalStores p orgName principal id = .ok after ∧
      after.identities = tables.identities ∧ start.Housed after p orgName tenant name id ∧
      personalStore p tenant name id ∈ after.stores ∧
      sharedStore p tenant name id ∈ after.stores := by
  obtain ⟨first, second, hfirst, hsecond, hsame, hhoused, hpersonal, -⟩ :=
    @add_home p orgName tenant name tables start call calls id principal.subject "private"
      "personal" _ hunknown hcall hid h (.inl rfl)
  obtain ⟨third, fourth, hthird, hfourth, hsameNext, hhousedNext, hshared, hkept⟩ :=
    @add_home p orgName tenant name second start call calls id principal.subject "shared" "shared"
      _ hunknown hcall hid hhoused (.inr rfl)
  obtain ⟨after, hafter⟩ : ∃ after,
      fourth.add (.store (defaultOrgStore p orgName tenant)) = .ok after := by
    refine add_store_succeeds ?_ rfl rfl
    rw [hhousedNext.tenants]
    exact hunknown.known
  have hlast := StoreTables.add_added hafter
  refine ⟨after, ?_, hlast.identities.trans (hsameNext.trans hsame),
    hhousedNext.added (fun row heq => by cases heq; simp) hafter,
    hlast.kept _ (hkept _ hpersonal), hlast.kept _ hshared⟩
  subst hsubject htenant
  show tables.addAll [.store (personalStore p _ principal.subject id),
    .space (identityNamespace p principal.subject "private" "personal"
      (personalStore p _ principal.subject id)),
    .store (sharedStore p _ principal.subject id),
    .space (identityNamespace p principal.subject "shared" "shared"
      (sharedStore p _ principal.subject id)),
    .store (defaultOrgStore p orgName _)] = _
  rw [add_all_cons hfirst, add_all_cons hsecond, add_all_cons hthird, add_all_cons hfourth,
    add_all_cons hafter]
  rfl

/-- Whoever owns a private and a shared store owns the provisioned ones. -/
theorem provisioned_there {id : String} (hunknown : start.Unknown p orgName tenant name calls)
    (hcall : call ∈ calls) (hid : call.identityId p = id)
    (h : start.Housed tables p orgName tenant name id)
    (hprovisioned : tables.provisioned tenant id = true) :
    personalStore p tenant name id ∈ tables.stores ∧
      sharedStore p tenant name id ∈ tables.stores := by
  unfold StoreTables.provisioned at hprovisioned
  rw [decide_eq_true_eq] at hprovisioned
  have hmine : ∀ store ∈ tables.stores.rows.filter fun store =>
      store.tenantId = tenant && store.ownerIdentityId = some id &&
        (store.kind = .userPrivate || store.kind = .userShared),
      store ∈ tables.stores ∧
        (store = personalStore p tenant name id ∨ store = sharedStore p tenant name id) := by
    intro store hstore
    obtain ⟨hmem, htest⟩ := List.mem_filter.mp hstore
    simp only [Bool.and_eq_true, decide_eq_true_eq] at htest
    refine ⟨hmem, ?_⟩
    rcases h.stores store hmem with hstart | hthree
    · exact absurd htest.1.2 (hid ▸ hunknown.owned store hstart call hcall)
    · simp only [List.mem_cons, List.not_mem_nil, or_false] at hthree
      rcases hthree with hpersonal | hshared | rfl
      · exact .inl hpersonal
      · exact .inr hshared
      · exact absurd htest.1.2 (by simp [defaultOrgStore])
  have hunique := tables.stores.unique.filter fun store =>
      decide (store.tenantId = tenant) && decide (store.ownerIdentityId = some id) &&
        (decide (store.kind = .userPrivate) || decide (store.kind = .userShared))
  generalize tables.stores.rows.filter _ = mine at hmine hunique hprovisioned
  match mine, hprovisioned with
  | first :: second :: rest, _ =>
      obtain ⟨hfirstMem, hfirst⟩ := hmine first List.mem_cons_self
      obtain ⟨hsecondMem, hsecond⟩ := hmine second (by simp)
      have hapart : ¬ Constrained.Conflict first second :=
        (List.pairwise_cons.mp hunique).1 second List.mem_cons_self
      rcases hfirst with rfl | rfl <;> rcases hsecond with rfl | rfl
      · exact absurd (.inl rfl) hapart
      · exact ⟨hfirstMem, hsecondMem⟩
      · exact ⟨hsecondMem, hfirstMem⟩
      · exact absurd (.inl rfl) hapart

/-- A row with the keys of the person: the id, the user name, and an external id of a call. -/
structure IsPerson (p : Platform) (tenant name id : String) (calls : List Arrival)
    (row : IdentityRow) : Prop where
  id : row.id = id
  tenant : row.tenantId = tenant
  name : row.userName = name
  external : ∃ call ∈ calls, row.externalId = (call.row p).externalId

end

/-! ## Runs of calls under one id -/

section

variable {p : Platform} {orgName tenant name id : String} {tables start : StoreTables}
variable {call : Arrival} {calls : List Arrival} {row : IdentityRow}

theorem call_is_person (hcall : call ∈ calls) (hid : call.identityId p = id)
    (hconcerns : call.Concerns p tenant name) : IsPerson p tenant name id calls (call.row p) :=
  ⟨hid, hconcerns.tenant, hconcerns.name, call, hcall, rfl⟩

theorem person_free (hunknown : start.Unknown p orgName tenant name calls)
    (hconcerns : ∀ call ∈ calls, call.Concerns p tenant name)
    (hids : ∀ call ∈ calls, call.identityId p = id) (h : IsPerson p tenant name id calls row) :
    ∀ old ∈ start.identities, ¬ Constrained.Conflict old row := by
  intro old hold hconflict
  obtain ⟨call, hcall, hexternal⟩ := h.external
  refine hunknown.identities old hold call hcall ?_
  have hid : row.id = (call.row p).id := h.id.trans (hids call hcall).symm
  have htenant := h.tenant.trans (hconcerns call hcall).tenant.symm
  have hname := h.name.trans (hconcerns call hcall).name.symm
  rcases hconflict with hsame | ⟨hsame, hkey⟩
  · exact .inl (hsame.trans hid)
  · rw [hname, hexternal] at hkey
    exact .inr ⟨hsame.trans htenant, hkey⟩

/-- The rows are those of the start and the person. -/
def Known (p : Platform) (start : StoreTables) (tenant name id : String) (calls : List Arrival)
    (table : Table IdentityRow) : Prop :=
  ∀ row ∈ table, row ∈ start.identities ∨ IsPerson p tenant name id calls row

theorem upsert_person {table : Table IdentityRow}
    (hunknown : start.Unknown p orgName tenant name calls)
    (hconcerns : ∀ call ∈ calls, call.Concerns p tenant name)
    (hids : ∀ call ∈ calls, call.identityId p = id) (hcall : call ∈ calls)
    (h : Known p start tenant name id calls table) :
    ∃ result, upsertIdentity table (call.row p) (call.refresh p) = .ok result ∧
      Known p start tenant name id calls result ∧
      ∃ mine ∈ result, IsPerson p tenant name id calls mine := by
  have hperson := call_is_person hcall (hids call hcall) (hconcerns call hcall)
  have hstart : ∀ old ∈ table, old.id ≠ (call.row p).id → old ∈ start.identities := by
    intro old hold hne
    exact (h old hold).resolve_right fun hmine => hne (hmine.id.trans (hids call hcall).symm)
  have hmine : ∀ old ∈ table, old.id = (call.row p).id →
      IsPerson p tenant name id calls (call.refresh p old) := by
    intro old hold hsame
    have holdPerson := (h old hold).resolve_left fun hold =>
      hunknown.identities old hold call hcall (.inl hsame)
    obtain ⟨hid, htenant, hname, hexternal⟩ := refresh_eq (p := p) call old
    refine ⟨hid.trans (hids call hcall), htenant.trans holdPerson.tenant,
      hname.trans (hconcerns call hcall).name, ?_⟩
    rcases hexternal with hnew | hkept
    · exact ⟨call, hcall, hnew⟩
    · obtain ⟨other, hother, hsameExternal⟩ := holdPerson.external
      exact ⟨other, hother, hkept.trans hsameExternal⟩
  have hsucceeds : ∃ result, table.upsert? (·.id) (call.row p) (call.refresh p) = some result :=
    Table.upsert?_succeeds identity_conflict_of_id
      (fun hnone old hold => person_free hunknown hconcerns hids hperson old
        (hstart old hold (hnone old hold)))
      fun old hold hsame other hother hne => person_free hunknown hconcerns hids
        (hmine old hold hsame) other (hstart other hother hne)
  obtain ⟨result, hresult⟩ := hsucceeds
  obtain ⟨written, hreplaced, hwritten⟩ := Table.mem_upsert? identity_conflict_of_id hresult
    fun old => (refresh_eq call old).1
  have hwrittenPerson : IsPerson p tenant name id calls written := by
    rcases hwritten with ⟨rfl, -⟩ | ⟨old, hold, hsame, rfl⟩
    · exact hperson
    · exact hmine old hold hsame
  refine ⟨result, ?_, fun row hrow => ?_, written, (hreplaced written).mpr (.inl rfl),
    hwrittenPerson⟩
  · rw [upsertIdentity, hresult]
    rfl
  · rcases (hreplaced row).mp hrow with rfl | ⟨hold, -⟩
    · exact .inr hwrittenPerson
    · exact h row hold

/-- What calls under one id leave: the rows and the stores are those of the start and the person's,
the person is there once one call was made, and its stores once it was there itself. -/
structure StoreTables.Reached (start tables : StoreTables) (p : Platform)
    (orgName tenant name id : String) (calls : List Arrival) (called signedIn : Prop) : Prop where
  tenants : tables.tenants = start.tenants
  known : Known p start tenant name id calls tables.identities
  person : called → ∃ mine ∈ tables.identities, IsPerson p tenant name id calls mine
  stores : ∀ store ∈ tables.stores, store ∈ start.stores ∨
    store ∈ [personalStore p tenant name id, sharedStore p tenant name id,
      defaultOrgStore p orgName tenant]
  there : signedIn → personalStore p tenant name id ∈ tables.stores ∧
    sharedStore p tenant name id ∈ tables.stores

theorem StoreTables.Reached.housed {called signedIn : Prop} {other : Table IdentityRow}
    (h : start.Reached tables p orgName tenant name id calls called signedIn)
    {mine : IdentityRow} (hmine : mine ∈ other) (hid : mine.id = id) :
    start.Housed { tables with identities := other } p orgName tenant name id :=
  ⟨h.tenants, Table.any_iff.mpr ⟨mine, hmine, by simpa using hid⟩, h.stores⟩

theorem StoreTables.Reached.upserted {called signedIn : Prop} {other : Table IdentityRow}
    (h : start.Reached tables p orgName tenant name id calls called signedIn)
    (hknown : Known p start tenant name id calls other)
    (hmine : ∃ mine ∈ other, IsPerson p tenant name id calls mine) :
    start.Reached { tables with identities := other } p orgName tenant name id calls True
      signedIn :=
  ⟨h.tenants, hknown, fun _ => hmine, h.stores, h.there⟩

theorem arrive_reached {called signedIn : Prop}
    (hunknown : start.Unknown p orgName tenant name calls)
    (hconcerns : ∀ call ∈ calls, call.Concerns p tenant name)
    (hids : ∀ call ∈ calls, call.identityId p = id) (hcall : call ∈ calls)
    (h : start.Reached tables p orgName tenant name id calls called signedIn) :
    ∃ after, tables.arrive p orgName call = .ok after ∧
      start.Reached after p orgName tenant name id calls True
        (signedIn ∨ call.isSignIn = true) := by
  obtain ⟨result, hupsert, hknown, hmine⟩ := upsert_person hunknown hconcerns hids hcall h.known
  have hthere : tables.tenants.any (·.id = (call.row p).tenantId) = true := by
    rw [h.tenants, (hconcerns call hcall).tenant]
    exact hunknown.known
  have hupserted : call.isSignIn = false →
      start.Reached { tables with identities := result } p orgName tenant name id calls True
        (signedIn ∨ call.isSignIn = true) := by
    intro hother
    have hreached := h.upserted hknown hmine
    refine ⟨hreached.tenants, hreached.known, hreached.person, hreached.stores, fun hsigned => ?_⟩
    exact hreached.there (hsigned.resolve_right (by rw [hother]; decide))
  cases call with
  | scim user now =>
      have hempty : ¬ (user.row p now).userName = "" := by
        have hname : (user.row p now).userName = name := (hconcerns _ hcall).name
        rw [hname]
        exact hunknown.named
      have hforeign : ¬ tables.identities.any (fun old =>
          old.id = (user.row p now).id && old.tenantId ≠ user.tenantId) = true := by
        intro hany
        obtain ⟨old, hold, hsame⟩ := Table.any_iff.mp hany
        simp only [Bool.and_eq_true, decide_eq_true_eq] at hsame
        rcases h.known old hold with hstart | hperson
        · exact hunknown.identities old hstart _ hcall (.inl hsame.1)
        · exact hsame.2 (hperson.tenant.trans (hconcerns _ hcall).tenant.symm)
      have hwrite : upsertUser p tables.identities user now = .ok result := by
        unfold upsertUser
        dsimp only
        rw [if_neg hempty, if_neg hforeign]
        exact hupsert
      refine ⟨{ tables with identities := result }, ?_, hupserted rfl⟩
      simp only [StoreTables.arrive, hwrite]
      exact if_pos hthere
  | tailnet user now =>
      have hwrite : upsertIdentityFromTailnet p tables.identities user now = .ok result := hupsert
      refine ⟨{ tables with identities := result }, ?_, hupserted rfl⟩
      simp only [StoreTables.arrive, hwrite]
      exact if_pos hthere
  | signIn request now =>
      have hid : request.identityId p = id := hids _ hcall
      have hready : tables.hasTenant orgName p.defaultTenant = true := by
        unfold StoreTables.hasTenant
        rw [h.tenants]
        exact hunknown.ready
      simp only [StoreTables.arrive, StoreTables.ensureIdentityForPrincipal,
        ensure_default_tenant_ready hready]
      have hfinish : ∀ {mid : StoreTables}, start.Housed mid p orgName tenant name id →
          Known p start tenant name id calls mid.identities →
          (∃ mine ∈ mid.identities, IsPerson p tenant name id calls mine) →
          ∃ after, mid.ensurePrincipalStores p orgName request.principal id = .ok after ∧
            start.Reached after p orgName tenant name id calls True
              (signedIn ∨ (Arrival.signIn request now).isSignIn = true) := by
        intro mid hhoused hmidKnown hmidMine
        obtain ⟨after, hafter, hsame, hafterHoused, hboth⟩ := ensure_principal_stores_housed
          hunknown hcall (hids _ hcall) (hconcerns _ hcall).name (hconcerns _ hcall).tenant hhoused
        refine ⟨after, hafter, hafterHoused.tenants, ?_, fun _ => ?_, hafterHoused.stores,
          fun _ => hboth⟩
        · rw [hsame]
          exact hmidKnown
        · rw [hsame]
          exact hmidMine
      rw [hid]
      split
      · rename_i hunchanged
        obtain ⟨old, hold, hsame⟩ := Table.any_iff.mp hunchanged
        have holdId : old.id = request.identityId p := by
          simp only [SignIn.isUnchanged, Bool.and_eq_true, decide_eq_true_eq] at hsame
          exact hsame.1.1.1.1.1.1.1
        have hperson := (h.known old hold).resolve_left fun hstart =>
          hunknown.identities old hstart _ hcall (.inl holdId)
        have hhoused := h.housed hold hperson.id
        split
        · rename_i hprovisioned
          rw [show p.tenantOr request.principal.tenantId = tenant from
            (hconcerns _ hcall).tenant] at hprovisioned
          exact ⟨tables, rfl, h.tenants, h.known, fun _ => ⟨old, hold, hperson⟩, h.stores,
            fun _ => provisioned_there hunknown hcall (hids _ hcall) hhoused hprovisioned⟩
        · exact hfinish hhoused h.known ⟨old, hold, hperson⟩
      · rename_i hchanged
        have hwrite : request.ensureIdentityForPrincipal p tables.identities now = .ok result := by
          unfold SignIn.ensureIdentityForPrincipal
          dsimp only
          rw [if_neg hchanged]
          exact hupsert
        obtain ⟨mine, hmineMem, hminePerson⟩ := hmine
        obtain ⟨after, hafter, hreached⟩ := hfinish (h.housed hmineMem hminePerson.id) hknown
          ⟨mine, hmineMem, hminePerson⟩
        refine ⟨after, ?_, hreached⟩
        have htenant : tables.tenants.any (·.id = p.tenantOr request.principal.tenantId) = true :=
          hthere
        show (do
          let identities ← request.ensureIdentityForPrincipal p tables.identities now
          let tables ← foreignKey
            (tables.tenants.any (·.id = p.tenantOr request.principal.tenantId))
            { tables with identities }
          tables.ensurePrincipalStores p orgName request.principal id) = .ok after
        rw [hwrite, htenant]
        exact hafter

theorem arrive_all_reached {rest : List Arrival} {called signedIn : Prop}
    (hunknown : start.Unknown p orgName tenant name calls)
    (hconcerns : ∀ call ∈ calls, call.Concerns p tenant name)
    (hids : ∀ call ∈ calls, call.identityId p = id) (hrest : ∀ call ∈ rest, call ∈ calls)
    (h : start.Reached tables p orgName tenant name id calls called signedIn) :
    ∃ after, tables.arriveAll p orgName rest = .ok after ∧
      start.Reached after p orgName tenant name id calls (called ∨ rest ≠ [])
        (signedIn ∨ rest.any Arrival.isSignIn = true) := by
  induction rest generalizing tables called signedIn with
  | nil =>
      refine ⟨tables, rfl, h.tenants, h.known, fun hcalled => ?_, h.stores, fun hsigned => ?_⟩
      · exact h.person (hcalled.resolve_right fun hne => hne rfl)
      · exact h.there (hsigned.resolve_right (by simp))
  | cons call rest ih =>
      obtain ⟨mid, hmid, hreached⟩ :=
        arrive_reached hunknown hconcerns hids (hrest call List.mem_cons_self) h
      obtain ⟨after, hafter, hlast⟩ :=
        ih (fun next hnext => hrest next (List.mem_cons_of_mem _ hnext)) hreached
      refine ⟨after, ?_, hlast.tenants, hlast.known, fun _ => hlast.person (.inl trivial),
        hlast.stores, fun hsigned => hlast.there ?_⟩
      · rw [StoreTables.arriveAll, hmid]
        exact hafter
      · rw [List.any_cons, Bool.or_eq_true] at hsigned
        exact or_assoc.mpr hsigned

theorem StoreTables.Reached.one_identity
    (h : start.Reached tables p orgName tenant name id calls True
      (calls.any Arrival.isSignIn = true)) : OneIdentity start tables tenant name calls := by
  obtain ⟨mine, hmine, hperson⟩ := h.person trivial
  refine ⟨mine, hmine, ⟨hperson.tenant, hperson.name⟩, fun other hother htenant hname => ?_,
    fun store hstore huser => ?_, fun hsigned kind hkind => ?_⟩
  · exact Table.eq_of_conflict hother hmine
      (.inr ⟨htenant.trans hperson.tenant.symm, .inl (hname.trans hperson.name.symm)⟩)
  · refine (h.stores store hstore).imp_right fun hthree => ?_
    simp only [List.mem_cons, List.not_mem_nil, or_false] at hthree
    rcases hthree with rfl | rfl | rfl
    · exact congrArg some hperson.id.symm
    · exact congrArg some hperson.id.symm
    · exact absurd huser (by simp [defaultOrgStore, StoreKind.isUser, StoreKind.text, startsWith])
  · obtain ⟨hpersonal, hshared⟩ := h.there hsigned
    rw [hperson.id]
    rcases hkind with rfl | rfl
    · exact ⟨_, hpersonal, rfl, rfl, rfl⟩
    · exact ⟨_, hshared, rfl, rfl, rfl⟩

end

/-- Calls about a person the tables do not know succeed in every order, and leave one row that owns
the person's stores, exactly when they resolve to one id. -/
theorem provisioning_order_iff (p : Platform) (orgName tenant name : String) (start : StoreTables)
    (calls : List Arrival) (hcalls : calls ≠ [])
    (hunknown : start.Unknown p orgName tenant name calls)
    (hconcerns : ∀ call ∈ calls, call.Concerns p tenant name) :
    (∃ after, start.arriveAll p orgName calls = .ok after ∧
      OneIdentity start after tenant name calls) ↔
      ∀ a ∈ calls, ∀ b ∈ calls, a.identityId p = b.identityId p := by
  obtain ⟨first, rest, rfl⟩ := List.exists_cons_of_ne_nil hcalls
  constructor
  · rintro ⟨after, h, -⟩
    unfold StoreTables.arriveAll at h
    obtain ⟨mid, hmid, h⟩ := bind_eq_ok h
    obtain ⟨hreported, ⟨mine, hmine, hid, htenant, hname⟩, -⟩ := arrive_named hunknown
      ⟨rfl, fun _ hrow => .inl hrow⟩ List.mem_cons_self (hconcerns first List.mem_cons_self) hmid
    have hrest := arrive_all_same_id hunknown hconcerns (fun _ => List.mem_cons_of_mem _) hreported
      hmine htenant hname h
    have hfirst : ∀ call ∈ first :: rest, call.identityId p = first.identityId p := by
      intro call hcall
      rcases List.mem_cons.mp hcall with rfl | hcall
      · rfl
      · rw [hrest call hcall, hid]
    intro a ha b hb
    rw [hfirst a ha, hfirst b hb]
  · intro hids
    have hstart : start.Reached start p orgName tenant name (first.identityId p) (first :: rest)
        False False :=
      ⟨rfl, fun _ hrow => .inl hrow, False.elim, fun _ hstore => .inl hstore, False.elim⟩
    obtain ⟨after, hafter, hreached⟩ := arrive_all_reached hunknown hconcerns
      (fun call hcall => hids call hcall first List.mem_cons_self) (fun _ hcall => hcall) hstart
    refine ⟨after, hafter, StoreTables.Reached.one_identity ⟨hreached.tenants, hreached.known,
      fun _ => hreached.person (.inr (List.cons_ne_nil _ _)), hreached.stores, fun hsigned => ?_⟩⟩
    exact hreached.there (.inr hsigned)

/-- The digests of the ids of alice and of her stores. -/
def personDigests : List (String × String) :=
  [("asg\x1fentra-1", "72bc8b9893ae8c16ae3ae97497089b9e32e01d8873a244c9a6a004b5d121f87d"),
    ("asg\x1fts-1", "a5f4a773a6832ecc5253428c8d2a6a181ac68b81f2f080f1dfc27de88fb254b3"),
    ("asg\x1fuser_private\x1fidn_72bc8b9893ae8c16ae3ae974",
      "fd2bc4d8f0ae6c12e6e6886c2098338e6ed23b55b95afd98eb9076dc5382f445"),
    ("asg\x1fuser_shared\x1fidn_72bc8b9893ae8c16ae3ae974",
      "5f33694c403aa2a337a4189dbdfb9b72457f6004aca0105d8f593183f8709809"),
    ("asg\x1fuser_private\x1fidn_a5f4a773a6832ecc5253428c",
      "83c94d16e271218edada2836b1ac471369686bf54f7430eef013043f3f680573"),
    ("asg\x1fuser_shared\x1fidn_a5f4a773a6832ecc5253428c",
      "cbf9c1538052c507a9b4d928b44c4939a323f6fc17a78ebf340a0eaee9b55f91"),
    ("asg\x1fuser_private\x1fidn_alice",
      "4f2b2b59bc034e88532e6981cd0618191bc13e5823122b79624fbacb93e4db72"),
    ("asg\x1fuser_shared\x1fidn_alice",
      "4b77891faf168273a4ae7de8d712cd5ea3d701abf50c328677501c43da71a0c3"),
    ("asg\x1forg\x1fasg", "a9f0c2e05abea15e4cbf0af03b8d4b5e5c3b5b98a275d33aef9dbee371afa255")]

/-- A deployment that knows them. -/
def personPlatform : Platform := .ascii fun content =>
  ((personDigests.find? fun entry => entry.1.toUTF8.data.toList = content).map (·.2)).getD ""

/-- A deployment that is set up and knows nobody. -/
def nobody : StoreTables where
  tenants := ⟨[{ id := "asg", slug := "asg", displayName := "ASG" }], List.pairwise_singleton _ _⟩
  identities := .empty
  apps := .empty
  stores := .empty
  organizations := .empty
  namespaces := .empty

theorem nobody_unknown {calls : List Arrival}
    (hdistinct : ∀ call ∈ calls,
      (personalStore personPlatform "asg" "alice@asg.dev" (call.identityId personPlatform)).id ≠
        (sharedStore personPlatform "asg" "alice@asg.dev" (call.identityId personPlatform)).id ∧
      (personalStore personPlatform "asg" "alice@asg.dev" (call.identityId personPlatform)).id ≠
        (defaultOrgStore personPlatform "ASG" "asg").id ∧
      (sharedStore personPlatform "asg" "alice@asg.dev" (call.identityId personPlatform)).id ≠
        (defaultOrgStore personPlatform "ASG" "asg").id) :
    nobody.Unknown personPlatform "ASG" "asg" "alice@asg.dev" calls :=
  ⟨by decide, by decide, by decide, fun _ hold => absurd hold List.not_mem_nil,
    fun _ hstore => absurd hstore List.not_mem_nil, fun _ hstore => absurd hstore List.not_mem_nil,
    hdistinct⟩

/-- Alice as SCIM and as the tailnet report her, each under its own external id. -/
def aliceReports : List Arrival :=
  [.scim { tenantId := "asg", externalId := some "entra-1", userName := some "alice@asg.dev" }
      "2026-01-01 00:00:00",
    .tailnet { tenantId := "asg", externalId := "ts-1", loginName := "alice@asg.dev"
               active := true } "2026-01-02 00:00:00"]

/-- The tailnet sync of a user whom SCIM provisioned fails. -/
theorem provisioning_order_counterexample :
    ¬ ∀ (p : Platform) (orgName tenant name : String) (start : StoreTables)
      (calls : List Arrival), calls ≠ [] → start.Unknown p orgName tenant name calls →
      (∀ call ∈ calls, call.Concerns p tenant name) →
      ∃ after, start.arriveAll p orgName calls = .ok after ∧
        OneIdentity start after tenant name calls := by
  intro hclaim
  have hconcerns : ∀ call ∈ aliceReports,
      call.Concerns personPlatform "asg" "alice@asg.dev" := by
    have hrows : ∀ call ∈ aliceReports, (call.row personPlatform).tenantId = "asg" ∧
        (call.row personPlatform).userName = "alice@asg.dev" := by decide +kernel
    exact fun call hcall => ⟨(hrows call hcall).1, (hrows call hcall).2⟩
  obtain ⟨after, hafter, -⟩ := hclaim personPlatform "ASG" "asg" "alice@asg.dev" nobody
    aliceReports (by decide) (nobody_unknown (by decide +kernel)) hconcerns
  have hfails : (nobody.arriveAll personPlatform "ASG" aliceReports).toOption.isSome = false := by
    decide +kernel
  rw [hafter] at hfails
  cases hfails

/-- Alice, whose SCIM record and session name one identity. -/
def aliceOnce : List Arrival :=
  [.scim { tenantId := "asg", id := some "idn_alice", userName := some "alice@asg.dev" }
      "2026-01-01 00:00:00",
    .signIn ⟨{ subject := "alice@asg.dev", tenantId := "asg", identityId := some "idn_alice" },
      none⟩ "2026-01-02 00:00:00"]

/-- Her calls succeed and leave one identity. -/
theorem provisioning_order_once :
    ∃ after, nobody.arriveAll personPlatform "ASG" aliceOnce = .ok after ∧
      OneIdentity nobody after "asg" "alice@asg.dev" aliceOnce := by
  have hrows : ∀ call ∈ aliceOnce, (call.row personPlatform).tenantId = "asg" ∧
      (call.row personPlatform).userName = "alice@asg.dev" := by decide +kernel
  refine (provisioning_order_iff personPlatform "ASG" "asg" "alice@asg.dev" nobody aliceOnce
    (by decide) (nobody_unknown (by decide +kernel))
    fun call hcall => ⟨(hrows call hcall).1, (hrows call hcall).2⟩).mpr ?_
  decide +kernel

end Capmesh
