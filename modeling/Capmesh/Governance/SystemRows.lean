import Capmesh.Governance.AllUsers
import Capmesh.Governance.CatalogIndex
import Capmesh.Python.Canonical

/-!
# Rows that call themselves system capabilities

`SYSTEM_CAPABILITIES` and `builtin_system_capabilities` of `governance.py`, and what a run makes of
the flag `systemCapability` in the metadata of a row. `from_cap_manifest` takes the metadata of a
`cap.json` over as it is. `mesh_run_declared` says where the flag of a row comes from, together with
the name, the kind and the mutating column that stand beside it: from a built-in capability, or from
a capability of some batch.
-/

namespace Capmesh

open Python Relational Execution

/-- An entry of `SYSTEM_CAPABILITIES`; the path is the part of the URI after the tenant. -/
structure SystemEntry where
  name : String
  description : String
  path : String
  riskTier : RiskTier
  rights : List String

/-- `SYSTEM_CAPABILITIES`. -/
def systemCapabilities : List SystemEntry :=
  [⟨"system.help",
      "Show capmesh syntax, examples, JSON schemas, and LLM/coder operating guidance.",
      "help@0.1.0", .low, ["discover", "load", "call"]⟩,
    ⟨"system.onboard",
      "Guide a tailnet user or LLM client through M365 sign-in, gateway setup, direct MCP " ++
        "fallback, and diagnostics.",
      "onboard@0.1.0", .low, ["discover", "load", "call"]⟩,
    ⟨"system.auth",
      "Inspect capmesh auth status and return safe refresh/login guidance without exposing raw " ++
        "secrets.",
      "auth@0.1.0", .medium, ["discover", "load", "call"]⟩,
    ⟨"system.capabilities",
      "Create, edit, diff, validate, share, submit, and prepare Git review artifacts for " ++
        "capabilities where permitted.",
      "capabilities@0.1.0", .high, ["discover", "load", "call", "share", "submit", "manage"]⟩,
    ⟨"system.me",
      "Show the current capmesh identity, tenant, roles, groups, stores, and namespace grants.",
      "me@0.1.0", .low, ["discover", "load", "call"]⟩,
    ⟨"system.stores",
      "List or create capmesh stores for users, org namespaces, apps, the tenant-wide all-user " ++
        "(everyone) store, and system governance.",
      "stores@0.1.0", .medium, ["discover", "load", "call", "manage"]⟩,
    ⟨"system.namespaces",
      "List or create governed namespaces under user, org, app, or system stores.",
      "namespaces@0.1.0", .medium, ["discover", "load", "call", "manage"]⟩,
    ⟨"system.share",
      "Share or revoke selected capabilities with users, groups, roles, or app service identities.",
      "share@0.1.0", .medium, ["discover", "load", "call", "share"]⟩,
    ⟨"system.submit",
      "Submit private or shared capabilities for immutable org namespace promotion.",
      "submit@0.1.0", .medium, ["discover", "load", "call", "submit"]⟩,
    ⟨"system.requests", "List promotion requests and approval state for a tenant.",
      "requests@0.1.0", .low, ["discover", "load", "call"]⟩,
    ⟨"system.gates",
      "Run static integrity, provenance, prompt-safety, retrieval, and risk gates before " ++
        "approving capabilities.",
      "gates@0.1.0", .high, ["discover", "load", "call", "approve", "manage"]⟩,
    ⟨"system.approve",
      "Approve, reject, recall, demote, or yank promotion requests with audit records.",
      "approve@0.1.0", .high, ["discover", "load", "call", "approve"]⟩,
    ⟨"system.roles",
      "Assign, revoke, and list capmesh role grants and OpenFGA-compatible relationship tuples.",
      "roles@0.1.0", .high, ["discover", "load", "call", "manage"]⟩,
    ⟨"system.audit", "Query sanitized governance audit events and policy decisions.",
      "audit@0.1.0", .medium, ["discover", "load", "call", "audit"]⟩,
    ⟨"system.sync",
      "Inspect SCIM, Graph subscription, Teams binding, and reconciliation state.",
      "sync@0.1.0", .medium, ["discover", "load", "call", "manage"]⟩]

/-- The system capabilities whose built-in row is visible to every user. -/
def internalSystemNames : List String :=
  ["system.me", "system.requests", "system.help", "system.onboard", "system.auth",
    "system.capabilities"]

/-- The system capabilities whose built-in row is mutating. -/
def mutatingSystemNames : List String :=
  ["system.auth", "system.capabilities", "system.stores", "system.namespaces", "system.share",
    "system.submit", "system.gates", "system.approve", "system.roles", "system.sync"]

/-- `name.replace(".", " ").title()`, for the names of the table. -/
def systemTitle (name : String) : String :=
  join " " ((splitOn '.' name.toList).map fun word =>
    match word with
    | first :: rest => String.ofList (first.toUpper :: rest)
    | [] => "")

/-- The capability of an entry; `module` is the path of `governance.py`, in the directory
`package`. -/
def SystemEntry.capability (p : Platform) (package module : String) (entry : SystemEntry) :
    Capability :=
  let storeId := p.stableId "store" [p.defaultTenant, "system", "system"]
  { uri := "cap://system/" ++ p.defaultTenant ++ "/" ++ entry.path
    capabilityType := .workflow
    name := entry.name
    version := "0.1.0"
    title := systemTitle entry.name
    description := entry.description
    packagePath := p.normalizePath package
    entrypoint := "governance.py"
    sourcePath := p.normalizePath module
    sourceKind := "system_capability"
    sourceSystem := "capmesh.system"
    canonicalKey := "workflow:system:" ++ entry.name ++ ":0.1.0"
    contentHash := "sha256:" ++ p.sha256Text (entry.name ++ ":" ++ entry.description)
    visibility := if internalSystemNames.contains entry.name then .internal else .protected
    discoveryMode := if entry.riskTier = .high then .locked else .public
    owner := "asg-platform"
    plugin := some "capmesh-system"
    category := some "governance"
    keywords := ["governance", "identity", "namespace", "store", "approval", entry.name]
    requiredScopes := (entry.rights.filter (!readRights.contains ·)).map fun right =>
      "cap." ++ right ++ ":system"
    riskTier := entry.riskTier
    mutating := mutatingSystemNames.contains entry.name
    lifecycle := .published
    tenantId := p.defaultTenant
    storeId := some storeId
    namespaceId := some (p.stableId "ns" [p.defaultTenant, storeId, "system"])
    createdBy := some "capmesh-system"
    approvalState := .approved
    signatureStatus := .system
    provenanceStatus := .system
    riskReviewStatus := .approved
    metadata := [("systemCapability", .bool true), ("rights", .arr (entry.rights.map .str))] }

/-- `builtin_system_capabilities`. -/
def builtinSystemCapabilities (p : Platform) (package module : String) : List Capability :=
  systemCapabilities.map (·.capability p package module)

/-- The test that makes `cap.call` dispatch: `cap.metadata.get("systemCapability")`. -/
def Capability.isMarked (cap : Capability) : Bool := Dict.truthy cap.metadata "systemCapability"

/-- Two capabilities that `cap.call` treats alike: the flag, the name and the mutating column decide
its course, and the kind says where the row comes from. -/
structure SameDeclaration (a b : Capability) : Prop where
  marked : a.isMarked = b.isMarked
  name : a.name = b.name
  mutating : a.mutating = b.mutating
  sourceKind : a.sourceKind = b.sourceKind

/-- Every row of a database is declared as one of these. -/
def Database.DeclaredBy (db : Database) (known : Capability → Prop) : Prop :=
  ∀ row ∈ db.capabilities, ∃ cap, known cap ∧ SameDeclaration row.cap cap

/-- A step of the mesh: a start of the server, which runs `init_db`, or a call. -/
inductive MeshStep (p : Platform) where
  | start
  | call (call : CatalogCall p)

/-- One step, with the built-in capabilities of the server. -/
def meshStep (p : Platform) (crypto : Crypto) (builtins : List Capability) (host : Host) :
    MeshStep p → Host
  | .start => { host with db := committed host.db (initDb p builtins host.db) }
  | .call call => vaultStep p crypto host call

/-- The capabilities a step brings from files: the batch of an ingest. -/
def MeshStep.discovered {p : Platform} : MeshStep p → List Capability
  | .call (.ingest input) => input.batch.capabilities
  | _ => []

/-- A step that brings no capability with the flag. -/
def MeshStep.Plain {p : Platform} (step : MeshStep p) : Prop :=
  ∀ cap ∈ step.discovered, cap.isMarked = false

section

variable {p : Platform} {crypto : Crypto} {host : Host} {db result : Database} {cap : Capability}
variable {known : Capability → Prop} {input : IngestInput p} {builtins : List Capability}

theorem SameDeclaration.refl (cap : Capability) : SameDeclaration cap cap := ⟨rfl, rfl, rfl, rfl⟩

theorem SameDeclaration.trans {a b c : Capability} (hab : SameDeclaration a b)
    (hbc : SameDeclaration b c) : SameDeclaration a c :=
  ⟨hab.marked.trans hbc.marked, hab.name.trans hbc.name, hab.mutating.trans hbc.mutating,
    hab.sourceKind.trans hbc.sourceKind⟩

/-- The columns that a database stores. -/
theorem SameDeclaration.stored (cap : Capability) : SameDeclaration cap.stored cap :=
  ⟨Dict.truthy_canonical_fields cap.metadata "systemCapability", rfl, rfl, rfl⟩

/-- The namespace rewrite adds to the metadata under other keys. -/
theorem SameDeclaration.applyDefault (p : Platform) (cap : Capability) :
    SameDeclaration (applyDefaultUserNamespace p cap) cap := by
  unfold applyDefaultUserNamespace
  split
  · exact .refl cap
  · dsimp only
    split
    · exact ⟨rfl, rfl, rfl, rfl⟩
    · refine ⟨?_, rfl, rfl, rfl⟩
      simp only [Capability.isMarked]
      rw [Dict.truthy_set_default_of_ne _ _ (by decide),
        Dict.truthy_set_default_of_ne _ _ (by decide), Dict.truthy_set_of_ne _ _ (by decide)]

theorem SameDeclaration.placeInVault (p : Platform) (cap : Capability) (vault : Vault) :
    SameDeclaration (placeInVault p cap vault) cap := by
  have hmetadata : ∀ uri owner text : Json,
      Dict.truthy ((((cap.metadata.setDefault "originalUri" uri).setDefault "originalOwner" owner)
        ).set "vaultPlacement" text) "systemCapability" = cap.isMarked := by
    intro uri owner text
    rw [Dict.truthy_set_of_ne _ _ (by decide), Dict.truthy_set_default_of_ne _ _ (by decide),
      Dict.truthy_set_default_of_ne _ _ (by decide)]
    rfl
  unfold Capmesh.placeInVault
  dsimp only
  split <;> exact ⟨hmetadata _ _ _, rfl, rfl, rfl⟩

theorem SameDeclaration.effective (p : Platform) (index : PlacementIndex)
    (catalog : Table CapabilityRow) (cap : Capability) :
    SameDeclaration (effective p index catalog cap) cap := by
  unfold Capmesh.effective
  rw [apply_vault_placement_eq]
  cases placedVault p index catalog cap with
  | some vault => exact .placeInVault p cap vault
  | none => exact .applyDefault p cap

/-- The merge of a group adds to the metadata of its winner under other keys. -/
theorem SameDeclaration.grouped (p : Platform) (winner : Capability) (rows : List SourceRow)
    (ambiguous : List String) :
    SameDeclaration { winner with metadata := groupMetadata p winner rows ambiguous } winner := by
  refine ⟨?_, rfl, rfl, rfl⟩
  show Dict.truthy (groupMetadata p winner rows ambiguous) "systemCapability" = winner.isMarked
  unfold groupMetadata Capability.isMarked
  dsimp only
  split <;> split <;> simp [Dict.truthy_set_of_ne]

theorem SameDeclaration.carryOver (previous : Option CapabilityRow) (cap : Capability) :
    SameDeclaration (carryOver previous cap) cap := by
  unfold Capmesh.carryOver
  split
  · split <;> exact ⟨rfl, rfl, rfl, rfl⟩
  · exact .refl cap

theorem SameDeclaration.holdDowngrade (held : Bool) (cap : Capability) :
    SameDeclaration (holdDowngrade held cap) cap := by
  unfold Capmesh.holdDowngrade
  split <;> exact ⟨rfl, rfl, rfl, rfl⟩

/-- What an upsert stores, over a row or in a new one. -/
theorem SameDeclaration.written (existing : Option CapabilityRow) (cap : Capability) :
    SameDeclaration (written existing cap) cap := by
  cases existing with
  | none => exact .stored cap
  | some row =>
      have hmerged : SameDeclaration (merged row.cap cap.stored) cap.stored := ⟨rfl, rfl, rfl, rfl⟩
      exact hmerged.trans (.stored cap)

theorem SameDeclaration.incoming (p : Platform) (db : Database) (cap : Capability) :
    SameDeclaration (incoming p db cap) cap := by
  obtain ⟨lifecycle, heq⟩ := incoming_lifecycle p db cap
  rw [heq]
  have hdefault := SameDeclaration.applyDefault p cap
  exact ⟨hdefault.marked, hdefault.name, hdefault.mutating, hdefault.sourceKind⟩

/-- Flagging a failed embedding adds to the metadata under another key. -/
theorem SameDeclaration.markFailed (id : Nat) (row : CapabilityRow) :
    SameDeclaration (row.markFailed id).cap row.cap := by
  unfold CapabilityRow.markFailed
  split
  · refine ⟨?_, rfl, rfl, rfl⟩
    show Dict.truthy (failedMetadata row.cap.metadata) "systemCapability" = row.cap.isMarked
    unfold failedMetadata
    split
    · rfl
    · rw [Dict.truthy_canonical_fields, Dict.truthy_set_of_ne _ _ (by decide)]
      rfl
  · exact .refl row.cap

theorem Database.DeclaredBy.of_rows (h : db.DeclaredBy known)
    (hrows : ∀ x ∈ result.capabilities, (∃ y ∈ db.capabilities, SameDeclaration x.cap y.cap) ∨
      ∃ cap, known cap ∧ SameDeclaration x.cap cap) : result.DeclaredBy known := by
  intro x hx
  rcases hrows x hx with ⟨y, hy, hsame⟩ | hcap
  · obtain ⟨cap, hcap, hdeclared⟩ := h y hy
    exact ⟨cap, hcap, hsame.trans hdeclared⟩
  · exact hcap

theorem Database.DeclaredBy.congr (h : db.DeclaredBy known)
    (hsame : result.capabilities = db.capabilities) : result.DeclaredBy known := by
  unfold Database.DeclaredBy
  rw [hsame]
  exact h

theorem Database.DeclaredBy.upsert {id : Nat} (h : db.DeclaredBy known) (hcap : known cap)
    (hupsert : upsertCapability p db cap = .ok (id, result)) : result.DeclaredBy known := by
  obtain ⟨table, expected, hwrite, -, -, rfl⟩ := upsert_capability_ok hupsert
  obtain ⟨hmem, -, -⟩ := write_row_ok hwrite
  refine h.of_rows fun x hx => ?_
  rcases (hmem x).mp hx with rfl | ⟨hx, -⟩
  · exact .inr ⟨cap, hcap, (SameDeclaration.written _ _).trans (.incoming p db cap)⟩
  · exact .inl ⟨x, hx, .refl x.cap⟩

theorem Relocated.declared {previous : Option CapabilityRow} {uri : String}
    (hrelocated : Relocated previous uri db result)
    (hprevious : ∀ r, previous = some r → r ∈ db.capabilities) (h : db.DeclaredBy known) :
    result.DeclaredBy known := by
  refine h.of_rows fun x hx => .inl ?_
  rcases (hrelocated.capabilities x).mp hx with ⟨r, hr, rfl⟩ | ⟨hx, -⟩
  · exact ⟨r, hprevious r hr, rfl, rfl, rfl, rfl⟩
  · exact ⟨x, hx, .refl x.cap⟩

/-- The loop body of an ingest writes a row declared as its capability. -/
theorem index_one_declared {state next : Indexing} {e : Capability} (h : state.db.DeclaredBy known)
    (he : ∃ cap, known cap ∧ SameDeclaration e cap) (hindex : indexOne p input state e = .ok next) :
    next.db.DeclaredBy known := by
  obtain ⟨moved, id, written, hrelocate, hupsert, rfl⟩ := index_one_inv hindex
  have hprevious : ∀ r, previousRow state.db e = some r → r ∈ state.db.capabilities :=
    fun r hr => previous_row_mem hr
  have hmoved := (relocate_ok hprevious hrelocate).declared hprevious h
  obtain ⟨cap, hcap, hsame⟩ := he
  -- The capability as it is upserted stands for the declared one.
  have hwritten : written.DeclaredBy known := by
    obtain ⟨table, expected, hwrite, -, -, rfl⟩ := upsert_capability_ok hupsert
    obtain ⟨hmem, -, -⟩ := write_row_ok hwrite
    refine hmoved.of_rows fun x hx => ?_
    rcases (hmem x).mp hx with rfl | ⟨hx, -⟩
    · refine .inr ⟨cap, hcap, (SameDeclaration.written _ _).trans ?_⟩
      exact (SameDeclaration.incoming p moved _).trans
        ((SameDeclaration.holdDowngrade _ _).trans ((SameDeclaration.carryOver _ e).trans hsame))
    · exact .inl ⟨x, hx, .refl x.cap⟩
  obtain ⟨vectors, hdb | hdb⟩ := embed_db
    (({ state with db := written }).count (previousRow state.db e)
      (carryOver (previousRow state.db e) e).contentHash) input id
    (carryOver (previousRow state.db e) e).indexText
    (previousIndexText state.db (previousRow state.db e) =
      some (carryOver (previousRow state.db e) e).indexText)
  · rw [hdb, count_db]
    exact hwritten
  · rw [hdb, count_db]
    refine hwritten.of_rows fun x hx => .inl ?_
    obtain ⟨y, hy, rfl⟩ := (Table.mem_map (mark_failed_conflict id) x).mp hx
    exact ⟨y, hy, .markFailed id y⟩

theorem index_all_declared {state final : Indexing} {planned : List Capability}
    (h : state.db.DeclaredBy known)
    (hplanned : ∀ e ∈ planned, ∃ cap, known cap ∧ SameDeclaration e cap)
    (hindex : indexAll p input state planned = .ok final) : final.db.DeclaredBy known := by
  induction planned generalizing state with
  | nil =>
      cases hindex
      exact h
  | cons e planned ih =>
      unfold indexAll at hindex
      obtain ⟨next, hnext, hindex⟩ := bind_eq_ok hindex
      exact ih (index_one_declared h (hplanned e List.mem_cons_self) hnext)
        (fun other hother => hplanned other (List.mem_cons_of_mem e hother)) hindex

theorem merge_group_declared {uri : String} {caps merged : List Capability}
    (h : mergeGroup p uri caps = .ok merged) :
    ∀ e ∈ merged, ∃ cap ∈ caps, SameDeclaration e cap := by
  unfold mergeGroup at h
  split at h
  · cases h
    exact fun e he => ⟨e, he, .refl e⟩
  · cases hranked : caps.insertionSort fun a b => outranks p a b with
    | nil =>
        simp only [hranked] at h
        cases h
        simp
    | cons winner others =>
        simp only [hranked] at h
        split at h
        · cases h
        · obtain ⟨provenance, -, h⟩ := bind_eq_ok h
          cases h
          intro e he
          rw [List.mem_singleton.mp he]
          have hwinner : winner ∈ caps.insertionSort fun a b => outranks p a b := by
            rw [hranked]
            exact List.mem_cons_self
          exact ⟨winner, (List.mem_insertionSort _).mp hwinner, .grouped p winner _ _⟩

theorem merge_groups_declared {uris : List String} {caps merged : List Capability}
    (h : mergeGroups p caps uris = .ok merged) :
    ∀ e ∈ merged, ∃ cap ∈ caps, SameDeclaration e cap := by
  induction uris generalizing merged with
  | nil =>
      cases h
      simp
  | cons uri uris ih =>
      unfold mergeGroups at h
      obtain ⟨group, hgroup, h⟩ := bind_eq_ok h
      obtain ⟨rest, hrest, h⟩ := bind_eq_ok h
      cases h
      intro e he
      rcases List.mem_append.mp he with he | he
      · obtain ⟨cap, hcap, hsame⟩ := merge_group_declared hgroup e he
        exact ⟨cap, (List.mem_filter.mp hcap).1, hsame⟩
      · exact ih hrest e he

theorem plan_declared {catalog : Table CapabilityRow} {planned : List Capability}
    (h : plan p input catalog = .ok planned) :
    ∀ e ∈ planned, ∃ cap ∈ input.batch.capabilities, SameDeclaration e cap := by
  intro e he
  obtain ⟨placed, hplaced, hsame⟩ := merge_groups_declared h e he
  obtain ⟨cap, hcap, rfl⟩ := List.mem_map.mp hplaced
  exact ⟨cap, hcap, hsame.trans (.effective p input.placement catalog cap)⟩

theorem ingest_declared (h : db.DeclaredBy known)
    (hbatch : ∀ cap ∈ input.batch.capabilities, known cap) :
    (ingest p db input).1.DeclaredBy known := by
  cases hingest : ingest p db input with
  | mk result outcome =>
      cases outcome with
      | error failure => exact h.congr (ingest_error hingest).capabilities
      | ok changes =>
          obtain ⟨held, counts, planned, final, removed, -, hadded, hplan, hindex, hdelete, -⟩ :=
            ingest_ok hingest
          have hfinal : final.db.DeclaredBy known := by
            refine index_all_declared (h.congr hadded.capabilities) (fun e he => ?_) hindex
            obtain ⟨cap, hcap, hsame⟩ := plan_declared hplan e he
            exact ⟨cap, hbatch cap hcap, hsame⟩
          refine hfinal.of_rows fun x hx => .inl ?_
          exact ⟨x, (((delete_source_orphaned_ok hdelete).capabilities x).mp hx).1, .refl x.cap⟩

theorem govern_step_declared (crypto : Crypto) {call : CatalogCall p}
    (hcall : ∀ input, call ≠ .ingest input) (h : host.db.DeclaredBy known) :
    (vaultStep p crypto host call).db.DeclaredBy known := by
  refine h.of_rows fun row hrow => .inl ?_
  obtain ⟨old, hold, hrestated | ⟨namespaceId, uri, storeId, hmoved, -⟩⟩ :=
    govern_step_row crypto hcall hrow
  · obtain ⟨_, _, _, _, _, _, _, hcap⟩ := hrestated
    rw [hcap]
    exact ⟨old, hold, rfl, rfl, rfl, rfl⟩
  · rw [hmoved]
    exact ⟨old, hold, rfl, rfl, rfl, rfl⟩

theorem normalize_row_declared {row : CapabilityRow} {changed : Nat} (hrow : row ∈ db.capabilities)
    (h : db.DeclaredBy known) (hnormalize : normalizeRow p db row = .ok (changed, result)) :
    result.DeclaredBy known := by
  rcases normalize_row_ok hrow hnormalize with ⟨-, rfl⟩ | ⟨-, -, hmem⟩
  · exact h
  · refine h.of_rows fun x hx => .inl ?_
    rcases (hmem x).mp hx with rfl | ⟨hx, -⟩
    · have hstored := (SameDeclaration.stored (applyDefaultUserNamespace p row.cap)).trans
        (.applyDefault p row.cap)
      exact ⟨row, hrow, hstored.marked, hstored.name, hstored.mutating, hstored.sourceKind⟩
    · exact ⟨x, hx, .refl x.cap⟩

theorem upsert_builtins_declared (h : db.DeclaredBy known) (hbuiltins : ∀ cap ∈ builtins, known cap)
    (hupsert : upsertBuiltins p db builtins = .ok result) : result.DeclaredBy known := by
  induction builtins generalizing db with
  | nil =>
      cases hupsert
      exact h
  | cons cap builtins ih =>
      unfold upsertBuiltins at hupsert
      obtain ⟨⟨id, next⟩, hnext, hupsert⟩ := bind_eq_ok hupsert
      exact ih (h.upsert (hbuiltins cap List.mem_cons_self) hnext)
        (fun other hother => hbuiltins other (List.mem_cons_of_mem cap hother)) hupsert

/-- A start of the server declares the built-in capabilities. -/
theorem init_db_declared (h : db.DeclaredBy known) (hbuiltins : ∀ cap ∈ builtins, known cap)
    (hinit : initDb p builtins db = .ok result) : result.DeclaredBy known := by
  unfold initDb at hinit
  obtain ⟨⟨changed, normalized⟩, hnormalize, hinit⟩ := bind_eq_ok hinit
  exact upsert_builtins_declared
    (normalize_existing_keeps normalize_row_declared h hnormalize) hbuiltins hinit

theorem mesh_step_declared (crypto : Crypto) (hbuiltins : ∀ cap ∈ builtins, known cap)
    (step : MeshStep p)
    (hstep : ∀ cap ∈ step.discovered, known cap) (h : host.db.DeclaredBy known) :
    (meshStep p crypto builtins host step).db.DeclaredBy known := by
  cases step with
  | start =>
      show (committed host.db (initDb p builtins host.db)).DeclaredBy known
      cases hinit : initDb p builtins host.db with
      | error failure => exact h
      | ok result => exact init_db_declared h hbuiltins hinit
  | call call =>
      by_cases hcall : ∃ input, call = .ingest input
      · obtain ⟨input, rfl⟩ := hcall
        exact ingest_declared h hstep
      · exact govern_step_declared crypto (fun input hinput => hcall ⟨input, hinput⟩) h

/-- Every row of a run from a new database is declared as a built-in capability, or as one that an
ingest of the run discovered. -/
theorem mesh_run_declared (crypto : Crypto) {start : Host}
    (hstart : initDb p builtins .empty = .ok start.db) (steps : List (MeshStep p)) :
    (run (meshStep p crypto builtins) start steps).db.DeclaredBy fun cap =>
      cap ∈ builtins ∨ ∃ step ∈ steps, cap ∈ step.discovered := by
  refine run_invariant_along (P := fun _ step => step ∈ steps)
    (I := fun host : Host => host.db.DeclaredBy fun cap =>
      cap ∈ builtins ∨ ∃ step ∈ steps, cap ∈ step.discovered)
    (fun host step hstep h => mesh_step_declared crypto (fun cap hcap => .inl hcap) step
      (fun cap hcap => .inr ⟨step, hstep, hcap⟩) h) ?_ ?_
  · exact (along_iff start steps).mpr fun first step second hsplit => by simp [hsplit]
  · exact init_db_declared (fun row hrow => absurd hrow (Table.not_mem_empty row))
      (fun cap hcap => .inl hcap) hstart

/-- Where no file brings the flag, a row with the flag is declared as a built-in capability. -/
theorem marked_row_builtin (crypto : Crypto) {start : Host}
    (hstart : initDb p builtins .empty = .ok start.db) {steps : List (MeshStep p)}
    (hplain : ∀ step ∈ steps, step.Plain) {row : CapabilityRow}
    (hrow : row ∈ (run (meshStep p crypto builtins) start steps).db.capabilities)
    (hmarked : row.cap.isMarked = true) : ∃ cap ∈ builtins, SameDeclaration row.cap cap := by
  obtain ⟨cap, hcap | ⟨step, hstep, hcap⟩, hsame⟩ := mesh_run_declared crypto hstart steps row hrow
  · exact ⟨cap, hcap, hsame⟩
  · rw [hsame.marked, hplain step hstep cap hcap] at hmarked
    cases hmarked

end

end Capmesh
