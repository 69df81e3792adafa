import Capmesh.Access.OrgMembers
import Capmesh.Execution.Reporting
import Capmesh.Governance.SystemRows
import Capmesh.Index.Initialization
import Capmesh.Registry.Records

/-!
# Starting on a database that is current

`init_db` of `index.py` with all its stages, each of which reports whether it wrote a row: the
tenant bootstrap, the role policy, the versioned migrations, the namespace normalization, the
vector table, and the upserts of the built-in capabilities. Each stage reads first, and
`upsert_counted_honest` says that an upsert that reports no write left its tables as they were. The
built-in capabilities name one source file, and a source file has one row: each of them takes that
row from the one before. So `init_site_busy` says that no start is silent.
-/

namespace Capmesh

open Python Relational Execution

/-- A database with its directory, its roles, and what `init_db` keeps beside the rows of the
catalog: two entries of `meta`, the vector table and the audit trail. -/
structure Site extends OrgRoster where
  schemaVersion : Int := 0
  embeddingSignature : Option String := none
  vectorTable : Bool := false
  audit : List AuditEvent := []
  keys : KeyStore

/-- What a start is configured with: the directory of the package and the path of `governance.py`,
the name of the default organization, `superadmin_subjects`, and the signature of the embedding
where vectors are enabled and `sqlite_vec` loads. -/
structure InitConfig where
  package : String
  module : String
  orgName : String
  superadmins : List String
  vector : Option String := none

/-- A role assignment that a start enforces. -/
structure PolicyGrant where
  id : String
  tenantId : String
  subjectType : String
  subjectId : String
  role : String
  scopeType : String
  scopeId : String
  source : String
  eventType : String

/-- The assignment of `ensure_platform_superadmins` to a superadmin. -/
def superadminGrant (p : Platform) (subject : String) : PolicyGrant where
  id := p.stableId "rol" [p.defaultTenant, "platform-superadmin", subject]
  tenantId := p.defaultTenant
  subjectType := "user"
  subjectId := subject
  role := "platform_admin"
  scopeType := "tenant"
  scopeId := p.defaultTenant
  source := "operator-policy"
  eventType := "role.operator_policy_enforced"

/-- The assignment of `ensure_local_service_org_access`. -/
def localServiceGrant (p : Platform) : PolicyGrant :=
  let orgId := p.stableId "org" [p.defaultTenant, p.defaultOrgSlug]
  { id := p.stableId "rol" [p.defaultTenant, "local-service-org-access", "capmesh-service", orgId]
    tenantId := p.defaultTenant
    subjectType := "app"
    subjectId := "capmesh-service"
    role := "app_service"
    scopeType := "org"
    scopeId := orgId
    source := "authority-policy"
    eventType := "role.authority_policy_enforced" }

/-- The assignments a start enforces. -/
def policyGrants (p : Platform) (config : InitConfig) : List PolicyGrant :=
  config.superadmins.map (superadminGrant p) ++ [localServiceGrant p]

namespace PolicyGrant

variable (grant : PolicyGrant)

/-- Whether a row is the assignment as the policy has it. -/
def isCorrect (row : RoleRow) : Bool :=
  row.id = grant.id && row.subjectType = grant.subjectType && row.subjectId = grant.subjectId &&
    row.role = grant.role && row.scopeType = grant.scopeType && row.scopeId = grant.scopeId &&
    row.source = grant.source && !row.revoked

/-- A new row of the assignment. -/
def row (now : String) : RoleRow where
  id := grant.id
  tenantId := grant.tenantId
  subjectType := grant.subjectType
  subjectId := grant.subjectId
  role := grant.role
  scopeType := grant.scopeType
  scopeId := grant.scopeId
  expiresAt := none
  revoked := false
  source := grant.source
  createdBy := "capmesh-system"
  createdAt := now

/-- The row of the assignment, enforced: its expiry and the time of its creation stay. -/
def refresh (old : RoleRow) : RoleRow :=
  { grant.row old.createdAt with expiresAt := old.expiresAt }

/-- The event of an enforcement. -/
def event : AuditEvent :=
  ⟨grant.tenantId, grant.eventType, "capmesh-system", grant.id, "assign"⟩

/-- Enforce an assignment, unless its row is correct. -/
def enforce (now : String) : Reporting Site Failure := fun site =>
  if site.roles.any grant.isCorrect then .ok (site, false)
  else do
    let roles ← constrained "role_assignments.id"
      (site.roles.upsert? (·.id) (grant.row now) grant.refresh)
    foreignKey (site.catalog.tables.tenants.any (·.id = grant.tenantId))
      ({ site with roles, audit := site.audit ++ [grant.event] }, true)

end PolicyGrant

/-- The versions of `register_builtin_migrations`. -/
def builtinMigrations : List Int := [1, 2, 3]

/-- `run_migrations`: the migrations add tables and columns, and record the last version. -/
def runMigrations : Reporting Int Failure := fun version =>
  match (builtinMigrations.filter (version < ·)).getLast? with
  | none => .ok (version, false)
  | some last => .ok (last, true)

/-- `ensure_default_tenant`, for the default tenant. -/
def ensureTenant (p : Platform) (orgName now : String) : Reporting StoreTables Failure :=
  fun tables => do
    let after ← tables.ensureDefaultTenant p orgName p.defaultTenant now
    .ok (after, !tables.hasTenant orgName p.defaultTenant)

/-- `normalize_existing_capability_namespaces`. -/
def normalizeCounted (p : Platform) : Reporting Database Failure := fun db => do
  let (changed, after) ← normalizeExistingCapabilityNamespaces p db
  .ok (after, changed ≠ 0)

/-- The vector table: one of another signature is dropped, and the signature is written again. -/
def prepareVectors (signature : String) : Reporting Site Failure := fun site =>
  let recreated := site.vectorTable && site.embeddingSignature ≠ some signature
  .ok ({ site with
    vectorTable := true
    embeddingSignature := some signature
    catalog.db.vectors := if recreated then .empty else site.catalog.db.vectors }, true)

/-- Whether the upsert of a capability writes a row: there is no row at its URI or one that
changes, or its source rows or its full-text row are not as expected. -/
def upsertWrites (db : Database) (cap : Capability) (id : Nat) (expected : List SourceRow) : Bool :=
  (db.capabilityAt cap.uri).all (changes ·.cap cap.stored) ||
    (db.sources.rows.filter (·.uri = cap.uri)).insertionSort
      (fun a b => a.sourcePath ≤ b.sourcePath) ≠ expected ||
    db.fts.find? (·.rowid = id) ≠ some (cap.ftsRow id)

/-- `upsert_capability`. -/
def upsertCounted (p : Platform) (cap : Capability) : Reporting Database Failure := fun db => do
  let (id, after) ← upsertCapability p db cap
  let expected ← capabilitySourceRows p (incoming p db cap)
  .ok (after, upsertWrites db (incoming p db cap) id expected)

/-- The upserts of capabilities. -/
def upsertAll (p : Platform) (caps : List Capability) : Reporting Database Failure :=
  .all (caps.map (upsertCounted p))

section

variable (p : Platform) (config : InitConfig) (now : String)

/-- A stage on the rows of the catalog. -/
def onCatalog (op : Reporting Database Failure) : Reporting Site Failure :=
  op.on (·.catalog.db) fun site db => { site with catalog.db := db }

/-- A stage on the directory. -/
def onTables (op : Reporting StoreTables Failure) : Reporting Site Failure :=
  op.on (·.catalog.tables) fun site tables => { site with catalog.tables := tables }

/-- The stages of `init_db` before the built-in capabilities. -/
def openingStages : List (Reporting Site Failure) :=
  [onTables (ensureTenant p config.orgName now)] ++
  (policyGrants p config).map (·.enforce now) ++
  [runMigrations.on (·.schemaVersion) fun site schemaVersion => { site with schemaVersion },
    onCatalog (normalizeCounted p)] ++
  (config.vector.map prepareVectors).toList ++
  [onTables (ensureTenant p config.orgName now)]

/-- `init_db` up to the built-in capabilities. -/
def opening : Reporting Site Failure := .all (openingStages p config now)

/-- `init_db`. -/
def initSite : Reporting Site Failure :=
  (opening p config now).andThen
    (onCatalog (upsertAll p (builtinSystemCapabilities p config.package config.module)))

/-- A further start writes no row and leaves every table as it was. -/
def Site.StartsQuietly (site : Site) : Prop := initSite p config now site = .ok (site, false)

/-- The assignments of the policy are in place. -/
def Site.PolicyIntact (site : Site) : Prop :=
  ∀ grant ∈ policyGrants p config, site.roles.any grant.isCorrect = true

end

/-- The catalog and the keys, as the governance operations find them. -/
def Site.host (site : Site) : Host :=
  ⟨{ site.catalog.db with roles := site.assignments }, site.keys⟩

/-- What happens between two starts: an ingest, a review, a submission, an approval, a share or a
CapGuard call, a change of an organization's members, or a new store. -/
inductive SiteStep (p : Platform) where
  | call (call : CatalogCall p)
  | addMember (call : MemberCall)
  | removeMember (call : MemberCall)
  | createStore (now : String) (call : StoreCall)

/-- One step; one that is refused changes nothing. -/
def siteStep (p : Platform) (crypto : Crypto) (config : InitConfig) (site : Site) :
    SiteStep p → Site
  | .call call =>
      let host := vaultStep p crypto site.host call
      { site with catalog.db := host.db, keys := host.keys }
  | .addMember call =>
      match addOrgMember p site.toOrgRoster call with
      | .ok (_, roster) => { site with toOrgRoster := roster }
      | .error _ => site
  | .removeMember call =>
      match removeOrgMember p site.toOrgRoster call with
      | .ok (_, roster) => { site with toOrgRoster := roster }
      | .error _ => site
  | .createStore now call =>
      match createStore p config.orgName now site.catalog.tables call with
      | .ok tables => { site with catalog.tables := tables }
      | .error _ => site

section

variable {p : Platform} {config : InitConfig} {now : String} {site after : Site}
variable {db next result : Database} {cap other : Capability} {caps : List Capability}

/-- An upsert that finds its rows as expected changes nothing. -/
theorem upsert_counted_honest (cap : Capability) : (upsertCounted p cap).Honest := by
  intro db after h
  unfold upsertCounted at h
  obtain ⟨⟨id, result⟩, hupsert, h⟩ := bind_eq_ok h
  obtain ⟨expected, hexpected, h⟩ := bind_eq_ok h
  simp only [Except.ok.injEq, Prod.mk.injEq] at h
  obtain ⟨rfl, hwrites⟩ := h
  simp only [upsertWrites, Bool.or_eq_false_iff, decide_eq_false_iff_not, ne_eq, not_not] at hwrites
  obtain ⟨⟨hrow, hsources⟩, hfts⟩ := hwrites
  obtain ⟨table, expected', hwrite, hexpected', -, rfl⟩ := upsert_capability_ok hupsert
  obtain rfl : expected' = expected := Except.ok.inj (hexpected'.symm.trans hexpected)
  have htable : table = db.capabilities := by
    unfold writeRow at hwrite
    cases hat : db.capabilityAt (incoming p db cap).uri with
    | none =>
        rw [hat] at hrow
        cases hrow
    | some row =>
        rw [hat, Option.all_some] at hrow
        simp only [hat, hrow, Bool.and_false, Bool.false_eq_true, if_false,
          Table.update?_eq_self fun _ _ => rfl, constrained] at hwrite
        cases hwrite
        rfl
  have hsame : syncSources db.sources (incoming p db cap).uri expected' = db.sources :=
    if_pos hsources
  have hindexed : syncFts db.fts ((incoming p db cap).ftsRow id) = db.fts := if_pos hfts
  rw [htable, hsame, hindexed]

theorem incoming_system (p : Platform) (db : Database)
    (hsystem : cap.sourceKind = "system_capability") : (incoming p db cap).uri = cap.uri ∧
    (incoming p db cap).sourcePath = cap.sourcePath := by
  rw [incoming_of_governed (system_governed hsystem)]
  obtain ⟨lifecycle, heq⟩ := clamp_lifecycle_eq (db.capabilityAt cap.uri) cap
  rw [heq]
  exact ⟨rfl, rfl⟩

theorem upsert_counted_ok {wrote : Bool} (h : upsertCounted p cap db = .ok (next, wrote)) :
    ∃ id, upsertCapability p db cap = .ok (id, next) := by
  unfold upsertCounted at h
  obtain ⟨⟨id, result⟩, hupsert, h⟩ := bind_eq_ok h
  obtain ⟨expected, -, h⟩ := bind_eq_ok h
  cases h
  exact ⟨id, hupsert⟩

/-- The row of the source file of a capability. -/
def Database.HoldsSource (db : Database) (p : Platform) (cap : Capability) : Prop :=
  ∃ source ∈ db.sources, source.uri = cap.uri ∧
    source.sourcePath = p.normalizePath cap.sourcePath

/-- A source file has one row. -/
theorem Database.HoldsSource.same_uri (hcap : db.HoldsSource p cap)
    (hother : db.HoldsSource p other) (hpath : cap.sourcePath = other.sourcePath) :
    cap.uri = other.uri := by
  obtain ⟨source, hsource, huri, hfile⟩ := hcap
  obtain ⟨last, hlast, hlastUri, hlastFile⟩ := hother
  have hsame : source = last := by
    refine Table.eq_of_conflict hsource hlast ?_
    show source.sourcePath = last.sourcePath
    rw [hfile, hlastFile, hpath]
  rw [← huri, ← hlastUri, hsame]

theorem upsert_counted_holds (hsystem : cap.sourceKind = "system_capability") {wrote : Bool}
    (h : upsertCounted p cap db = .ok (next, wrote)) : next.HoldsSource p cap := by
  obtain ⟨id, hupsert⟩ := upsert_counted_ok h
  obtain ⟨table, expected, -, hexpected, -, rfl⟩ := upsert_capability_ok hupsert
  obtain ⟨hkeyed, -, source, hsource, hfile⟩ := capability_source_rows_ok hexpected
  obtain ⟨huri, hpath⟩ := incoming_system p db hsystem
  refine ⟨source, (mem_sync_sources hkeyed source).mpr (.inl hsource), ?_, ?_⟩
  · rw [hkeyed.1 source hsource, huri]
  · rw [hfile, hpath]

theorem upsert_silent_holds (hsystem : cap.sourceKind = "system_capability")
    (h : upsertCounted p cap db = .ok (next, false)) : db.HoldsSource p cap := by
  have hsame := upsert_counted_honest cap db next h
  subst hsame
  exact upsert_counted_holds hsystem h

/-- Of two system capabilities from one file, the one upserted second writes. -/
theorem upsert_pair_busy (hcap : cap.sourceKind = "system_capability")
    (hother : other.sourceKind = "system_capability") (hpath : cap.sourcePath = other.sourcePath)
    (huri : cap.uri ≠ other.uri) :
    ((upsertCounted p cap).andThen (upsertCounted p other)).Busy := by
  refine Reporting.busy_pair fun db mid after earlier later hfirst hsecond => ?_
  cases later with
  | true => rfl
  | false =>
      have hheld := upsert_counted_holds hcap hfirst
      exact absurd (hheld.same_uri (upsert_silent_holds hother hsecond) hpath) huri

/-- Where several system capabilities come from one file, their upserts write. -/
theorem upsert_all_busy (hsystem : ∀ cap ∈ caps, cap.sourceKind = "system_capability")
    (hpath : ∀ cap ∈ caps, ∀ other ∈ caps, cap.sourcePath = other.sourcePath)
    (huris : caps.Pairwise fun a b => a.uri ≠ b.uri) (hlength : 2 ≤ caps.length) :
    (upsertAll p caps).Busy := by
  match caps with
  | [] | [_] => simp at hlength
  | cap :: other :: rest =>
      have hother : other ∈ cap :: other :: rest := List.mem_cons_of_mem cap List.mem_cons_self
      have hpair : ((upsertCounted p cap).andThen (upsertCounted p other)).Busy :=
        upsert_pair_busy (hsystem cap List.mem_cons_self) (hsystem other hother)
          (hpath cap List.mem_cons_self other hother)
          ((List.pairwise_cons.mp huris).1 other List.mem_cons_self)
      show ((upsertCounted p cap).andThen ((upsertCounted p other).andThen (upsertAll p rest))).Busy
      rw [← Reporting.and_then_assoc]
      exact Reporting.busy_left hpair (upsertAll p rest)

theorem builtin_uris (p : Platform) (package module : String) :
    (builtinSystemCapabilities p package module).Pairwise fun a b => a.uri ≠ b.uri := by
  have hpaths : systemCapabilities.Pairwise fun a b => a.path ≠ b.path := by decide
  refine List.pairwise_map.mpr (hpaths.imp fun {a b} hne huri => hne ?_)
  have hchars := congrArg String.toList huri
  simp only [SystemEntry.capability, String.toList_append, List.append_cancel_left_eq] at hchars
  exact String.toList_injective hchars

/-- The built-in capabilities of a server. -/
def systemBuiltins (p : Platform) (package module : String) : Builtins where
  capabilities := builtinSystemCapabilities p package module
  system cap hcap := by
    obtain ⟨entry, -, rfl⟩ := List.mem_map.mp hcap
    rfl
  uris := builtin_uris p package module

/-- No start is silent: one that succeeds has written a row. -/
theorem init_site_busy : (initSite p config now).Busy := by
  refine Reporting.busy_right _ (Reporting.busy_on (upsert_all_busy ?_ ?_ ?_ ?_))
  · exact (systemBuiltins p config.package config.module).system
  · intro cap hcap other hother
    obtain ⟨entry, -, rfl⟩ := List.mem_map.mp hcap
    obtain ⟨last, -, rfl⟩ := List.mem_map.mp hother
    rfl
  · exact builtin_uris p config.package config.module
  · show 2 ≤ (systemCapabilities.map _).length
    rw [List.length_map]
    decide

end

/-- **A start writes.** After any run of ingests and governance operations, from any site, a
further start either fails or writes a row: none leaves the database as a current one. -/
theorem restart_never_quiet (p : Platform) (crypto : Crypto) (config : InitConfig) (now : String)
    (start : Site) (steps : List (SiteStep p)) :
    ¬ (run (siteStep p crypto config) start steps).StartsQuietly p config now := by
  intro hquiet
  have hwrote := init_site_busy _ _ _ hquiet
  cases hwrote

/-- A new database. -/
def newSite : Site where
  catalog := ⟨.empty, ⟨.empty, .empty, .empty, .empty, .empty, .empty⟩⟩
  roles := .empty
  keys := ⟨true, .key "k", true⟩

/-- SHA-256 on the texts that name what a start provisions for the tenant `asg`. -/
def provisionDigests : List (String × String) :=
  sampleDigests ++
  [("asg\x1fuser_shared\x1fidn_8a771be063fbef53149d218b",
      "44560db2303cc4a711462f8afdbf730db7c5b1e087a0a8e205aa342f2c4dd17f"),
    ("asg\x1fasg", "c6db50eb07fdc64c79b2129e07dab818add440affdc4b5e341b46197f9477b8a"),
    ("asg\x1fsystem\x1fsystem",
      "23c14037e2024da7dffb58a48b7da42eb7774eed2df16c2ef1dc06b86cdd727c"),
    ("asg\x1fstore_23c14037e2024da7dffb58a4\x1fsystem",
      "65964ae6c530b05f86024240393e891856f08f944c06dd0289e2b02e5f5ed6e8"),
    ("asg\x1fplatform-superadmin\x1froot@example.com",
      "753b7a2e868b586d478dbd638e8f44156872a40a4c3ad8e1eb124402e2d44ac4"),
    ("asg\x1flocal-service-org-access\x1fcapmesh-service\x1forg_c6db50eb07fdc64c79b2129e",
      "ea21689286d972fc1dcaa5e767b16d3039b431c9a6b86b1729823b56e1065833")]

/-- A deployment that names them. -/
def startPlatform : Platform := .ascii fun content =>
  ((provisionDigests.find? fun entry => entry.1.toUTF8.data.toList = content).map (·.2)).getD ""

/-- A server with one superadmin and without vectors. -/
def serverConfig : InitConfig :=
  ⟨"/srv/capmesh", "/srv/capmesh/governance.py", "ASG", ["root@example.com"], none⟩

/-- Right after the first start of the server, with its policy in place, a second one succeeds and
writes rows. -/
theorem restart_never_quiet_counterexample :
    ¬ ∀ (p : Platform) (crypto : Crypto) (config : InitConfig) (fresh first : Site) (wrote : Bool)
      (steps : List (SiteStep p)) (now later : String),
      initSite p config now fresh = .ok (first, wrote) →
      (run (siteStep p crypto config) first steps).PolicyIntact p config →
      (run (siteStep p crypto config) first steps).StartsQuietly p config later := by
  intro hclaim
  have hstarts : ((initSite startPlatform serverConfig "2026-01-01T00:00:00Z" newSite).map
      fun first => (policyGrants startPlatform serverConfig).all fun grant =>
        first.1.roles.any grant.isCorrect) = .ok true := by decide +kernel
  obtain ⟨⟨first, wrote⟩, hfirst, hintact⟩ := map_eq_ok hstarts
  have hquiet : initSite startPlatform serverConfig "2026-01-02T00:00:00Z" first =
      .ok (first, false) :=
    hclaim startPlatform .transparent serverConfig newSite first wrote [] _ _ hfirst
      (List.all_eq_true.mp hintact)
  have hwrote := init_site_busy _ _ _ hquiet
  cases hwrote

end Capmesh
