import Capmesh.CapGuard.Quarantine
import Capmesh.Governance.VaultPlacement
import Capmesh.Index.Merge

/-!
# Ingesting a discovered batch

The two passes of `ingest_index`: `_quarantine_new_capabilities`, which commits each
hold as it is recorded, and `_upsert_discovered`, one transaction that finds the row a
capability refreshes, carries an approved promotion over or migrates the row, and
retires the rows whose sources moved elsewhere. `index_one_ok` and
`delete_source_orphaned_ok` are the inversion lemmas of the loop body and of the
retirement.
-/

namespace Capmesh

open Python Relational

/-- A discovered batch: `merge_duplicate_capabilities` leaves one capability for each canonical
key, each file belongs to one capability, and discovery reads neither drafts nor system
capabilities, hashes every file, keeps the record's default tenant, and lists source paths. -/
structure Batch (p : Platform) where
  capabilities : List Capability
  keys : capabilities.Pairwise fun a b => a.canonicalKey ≠ b.canonicalKey
  sources : capabilities.Pairwise fun a b => ∀ path ∈ claimedPaths p a, path ∉ claimedPaths p b
  discovered : ∀ cap ∈ capabilities,
    cap.isSystemOrDraft = false ∧ cap.contentHash ≠ "" ∧ cap.tenantId ≠ ""
  listed : ∀ cap ∈ capabilities, ∀ text,
    Dict.get? cap.metadata "sourcePaths" ≠ some (.str text)

/-- What one ingest takes from outside the catalog: the admitted batch, the placement manifest,
the vector backend with its answer to each call, and the identifiers of new holds. -/
structure IngestInput (p : Platform) where
  batch : Batch p
  placement : PlacementIndex
  vectorEnabled : Bool
  embed : Nat → String → Option String
  ids : Nat → String

/-- A batch of one capability. -/
def Batch.single {p : Platform} (cap : Capability)
    (hdiscovered : cap.isSystemOrDraft = false ∧ cap.contentHash ≠ "" ∧ cap.tenantId ≠ "")
    (hlisted : ∀ text, Dict.get? cap.metadata "sourcePaths" ≠ some (.str text)) : Batch p where
  capabilities := [cap]
  keys := List.pairwise_singleton _ _
  sources := List.pairwise_singleton _ _
  discovered other hother := by
    rw [List.mem_singleton.mp hother]
    exact hdiscovered
  listed other hother := by
    rw [List.mem_singleton.mp hother]
    exact hlisted

theorem Capability.unlisted {cap : Capability} (h : cap.metadata = []) (text : String) :
    Dict.get? cap.metadata "sourcePaths" ≠ some (.str text) := by
  rw [h]
  simp [Dict.get?]

/-- An ingest of a batch without a placement manifest and without vectors. -/
def IngestInput.bare {p : Platform} (batch : Batch p) : IngestInput p where
  batch
  placement := []
  vectorEnabled := false
  embed _ _ := none
  ids n := "qtn_" ++ toString n

/-- The counts of the quarantine pass. -/
structure QuarantineCounts where
  quarantined : Nat
  freshForContent : Nat
  deriving DecidableEq, Repr

/-- The request the quarantine pass makes for a capability. -/
def quarantineRequest (cap effective : Capability) : QuarantineRequest where
  tenantId := orElse effective.tenantId "asg"
  capabilityUri := effective.uri
  capabilityType := effective.capabilityType
  name := effective.name
  version := effective.version
  sourcePath := effective.sourcePath
  contentHash := effective.contentHash
  reason := "pending_scan"
  submittedBy := some (optOr effective.submittedBy (optOr effective.createdBy "ingest@capmesh"))
  metadata := [("discoveredSourceSystem", .str cap.sourceSystem),
    ("discoveredSourceKind", .str cap.sourceKind), ("effectiveUri", .str effective.uri)]

/-- Whether the catalog already holds this URI with this content. -/
def Database.indexes (db : Database) (uri hash : String) : Bool :=
  match db.capabilityAt uri with
  | some row => row.cap.contentHash = hash
  | none => false

/-- The loop of `_quarantine_new_capabilities`; `existing` is the catalog the pass started on. -/
def quarantineLoop (p : Platform) (input : IngestInput p) (existing : Database) :
    Database → QuarantineCounts → List Capability →
      Database × Except Failure QuarantineCounts
  | db, counts, [] => (db, .ok counts)
  | db, counts, cap :: caps =>
      let target := effective p input.placement db.capabilities cap
      if cap.isSystemOrDraft || existing.indexes target.uri target.contentHash then
        quarantineLoop p input existing db counts caps
      else
        match quarantineCapability p db (quarantineRequest cap target)
            (input.ids counts.quarantined) with
        | .error failure => (db, .error failure)
        | .ok (record, next) =>
            -- Each hold is committed on its own, so a later failure leaves it in place.
            quarantineLoop p input existing next
              ⟨counts.quarantined + 1,
                counts.freshForContent + if record.reason = .pendingScan then 1 else 0⟩ caps

/-- `_quarantine_new_capabilities`. -/
def quarantineNewCapabilities (p : Platform) (db : Database) (input : IngestInput p) :
    Database × Except Failure QuarantineCounts :=
  quarantineLoop p input db db ⟨0, 0⟩ input.batch.capabilities

/-- An approved promotion, which ingest must keep at its address. -/
def Capability.isPromoted (cap : Capability) : Bool :=
  present cap.promotedFromUri && cap.approvalState = .approved

/-- The row a capability refreshes: by URI, else by canonical key. -/
def previousRow (db : Database) (effective : Capability) : Option CapabilityRow :=
  match db.capabilityAt effective.uri with
  | some row => some row
  | none => db.capabilityWithKey effective.canonicalKey

/-- The carry-over: over an approved promotion the capability keeps the promoted address. -/
def carryOver (previous : Option CapabilityRow) (effective : Capability) : Capability :=
  match previous with
  | some row =>
      if row.cap.isPromoted then
        { effective with
          uri := row.cap.uri
          storeId := row.cap.storeId
          namespaceId := row.cap.namespaceId
          visibility := row.cap.visibility
          discoveryMode := row.cap.discoveryMode
          owner := row.cap.owner
          submittedBy := row.cap.submittedBy
          promotedFromUri := row.cap.promotedFromUri }
      else effective
  | none => effective

/-- Move a reference from one URI to another. -/
def renamed (old new uri : String) : String := if uri = old then new else uri

/-- `_migrate_canonical_uri`. -/
def migrateCanonicalUri (db : Database) (old new : String) : Except Failure Database :=
  if old = new then .ok db
  else match db.capabilityAt old with
    | none => .ok db
    | some _ => do
        let capabilities ← constrained "capabilities.uri" (db.capabilities.update? fun row =>
          { row with cap := { row.cap with uri := renamed old new row.cap.uri } })
        let tuples ← constrained "relationship_tuples.object" (db.tuples.update? fun tuple =>
          { tuple with object := renamed old new tuple.object })
        .ok { db with
          sources := db.sources.filter (·.uri ≠ old)
          capabilities
          shares := db.shares.map
            (fun share => { share with capabilityUri := renamed old new share.capabilityUri })
            fun _ _ h => h
          requests := db.requests.map
            (fun request =>
              { request with capabilityUri := renamed old new request.capabilityUri })
            fun _ _ h => h
          tuples }

/-- Move the row a capability refreshes to the capability's URI. -/
def relocate (db : Database) (previous : Option CapabilityRow) (uri : String) :
    Except Failure Database :=
  match previous with
  | some row => if row.cap.uri ≠ uri then migrateCanonicalUri db row.cap.uri uri else .ok db
  | none => .ok db

/-- A capability under an active hold is indexed as a pending draft. -/
def holdDowngrade (held : Bool) (effective : Capability) : Capability :=
  if held then { effective with lifecycle := .draft, approvalState := .pending } else effective

/-- `_upsert_vector` with the vector subsystem enabled: whether the row has a vector, and the
vector table. A failed embedding has already deleted the old vector. -/
def upsertVector (vectors : Table VectorRow) (id : Nat) (indexTextUnchanged : Bool)
    (embedding : Option String) : Bool × Table VectorRow :=
  if indexTextUnchanged && vectors.any (·.rowid = id) then (true, vectors)
  else match embedding with
    | some embedding => (true, vectors.replace ⟨id, embedding⟩)
    | none => (false, vectors.filter (·.rowid ≠ id))

/-- The metadata of a row whose embedding failed. -/
def failedMetadata (metadata : Dict) : Dict :=
  if Dict.get? metadata "vectorStatus" = some (.str "failed") then metadata
  else Json.canonicalFields (metadata.set "vectorStatus" (.str "failed"))

/-- Flag the row with an id. -/
def CapabilityRow.markFailed (id : Nat) (row : CapabilityRow) : CapabilityRow :=
  if row.id = id then { row with cap := { row.cap with metadata := failedMetadata row.cap.metadata } }
  else row

theorem mark_failed_conflict (id : Nat) (a b : CapabilityRow)
    (h : Constrained.Conflict (a.markFailed id) (b.markFailed id)) :
    Constrained.Conflict a b := by
  unfold CapabilityRow.markFailed at h
  split at h <;> split at h <;> exact h

/-- `_mark_vector_failure`. -/
def markVectorFailure (db : Database) (id : Nat) : Database :=
  { db with capabilities := db.capabilities.map (·.markFailed id) (mark_failed_conflict id) }

/-- The state of the loop of `_upsert_discovered`. -/
structure Indexing where
  db : Database
  added : Nat
  updated : Nat
  unchanged : Nat
  vectorsWritten : Nat
  vectorFailures : Nat
  consecutiveFailures : Nat
  vectorAborted : Bool

/-- The state the loop starts in. -/
def Indexing.start (db : Database) : Indexing := ⟨db, 0, 0, 0, 0, 0, 0, false⟩

/-- Count a capability against the row it refreshes. -/
def Indexing.count (state : Indexing) (previous : Option CapabilityRow) (hash : String) :
    Indexing :=
  match previous with
  | none => { state with added := state.added + 1 }
  | some row =>
      if row.cap.contentHash = hash then { state with unchanged := state.unchanged + 1 }
      else { state with updated := state.updated + 1 }

/-- The vector half of the loop body: a sustained run of failures stops further attempts. -/
def Indexing.embed {p : Platform} (state : Indexing) (input : IngestInput p) (id : Nat) (text : String)
    (indexTextUnchanged : Bool) : Indexing :=
  if input.vectorEnabled && !state.vectorAborted then
    let outcome := upsertVector state.db.vectors id indexTextUnchanged
      (input.embed (state.vectorsWritten + state.vectorFailures) text)
    let db := { state.db with vectors := outcome.2 }
    if outcome.1 then
      { state with db, vectorsWritten := state.vectorsWritten + 1, consecutiveFailures := 0 }
    else
      { state with
        db := markVectorFailure db id
        vectorFailures := state.vectorFailures + 1
        consecutiveFailures := state.consecutiveFailures + 1
        vectorAborted := 25 ≤ state.consecutiveFailures + 1 }
  else state

/-- The index text stored for the row a capability refreshes. -/
def previousIndexText (db : Database) (previous : Option CapabilityRow) : Option String :=
  previous.bind fun row => (db.fts.find? (·.rowid = row.id)).map (·.content)

/-- The loop body of `_upsert_discovered`. -/
def indexOne (p : Platform) (input : IngestInput p) (state : Indexing) (effective : Capability) :
    Except Failure Indexing := do
  let previous := previousRow state.db effective
  let target := carryOver previous effective
  let db ← relocate state.db previous target.uri
  let target := holdDowngrade (capguardIsHeld db.quarantine target) target
  let (id, written) ← upsertCapability p db target
  let counted := ({ state with db := written }).count previous target.contentHash
  .ok (counted.embed input id target.indexText
    (previousIndexText state.db previous = some target.indexText))

/-- The loop of `_upsert_discovered`. -/
def indexAll (p : Platform) (input : IngestInput p) :
    Indexing → List Capability → Except Failure Indexing
  | state, [] => .ok state
  | state, effective :: rest => do
      let next ← indexOne p input state effective
      indexAll p input next rest

/-- Whether a row has lost every source. -/
def Database.isOrphan (db : Database) (row : CapabilityRow) : Bool :=
  !row.cap.isSystemOrDraft && !db.sources.any (·.uri = row.cap.uri)

/-- The governance references that keep a row from being retired, with their counts. -/
def Database.blockers (db : Database) (uri : String) : List (String × Nat) :=
  [("shares", (db.shares.rows.filter (·.capabilityUri = uri)).length),
    ("pendingPromotions", (db.requests.rows.filter fun request =>
      request.capabilityUri = uri && request.state = .pending).length),
    ("relationships", (db.tuples.rows.filter (·.object = uri)).length),
    ("roleAssignments", (db.roles.rows.filter fun role =>
      role.scopeType = "capability" && role.scopeId = uri && !role.revoked).length)].filter
    (·.2 ≠ 0)

/-- Retire one source-orphaned row. A connection without the vector extension cannot delete the
vector. -/
def retire (p : Platform) (vectorEnabled : Bool) (db : Database) (row : CapabilityRow) :
    Except Failure Database :=
  let active := db.blockers row.cap.uri
  if active.isEmpty then
    .ok { db with
      vectors := if vectorEnabled then db.vectors.filter (·.rowid ≠ row.id) else db.vectors
      fts := db.fts.filter (·.rowid ≠ row.id)
      capabilities := db.capabilities.filter (·.id ≠ row.id) }
  else .error (.runtime ("source reassignment stranded governed capability " ++ row.cap.uri ++
    ": \x7b" ++ join ", " (active.map fun blocker =>
      p.repr blocker.1 ++ ": " ++ toString blocker.2) ++ "\x7d"))

/-- Retire a list of rows. -/
def retireAll (p : Platform) (vectorEnabled : Bool) :
    Database → List CapabilityRow → Except Failure Database
  | db, [] => .ok db
  | db, row :: rows => do
      let next ← retire p vectorEnabled db row
      retireAll p vectorEnabled next rows

/-- `_delete_source_orphaned_capabilities`. -/
def deleteSourceOrphaned (p : Platform) (vectorEnabled : Bool) (db : Database) :
    Except Failure (Nat × Database) := do
  let rows := (db.capabilities.rows.filter db.isOrphan).insertionSort
    fun a b => a.cap.uri ≤ b.cap.uri
  let result ← retireAll p vectorEnabled db rows
  .ok (rows.length, result)

/-- The result of `_upsert_discovered`. -/
structure Changes where
  added : Nat
  updated : Nat
  unchanged : Nat
  removed : Nat
  vectorsOk : Bool
  vectorsWritten : Nat
  vectorFailures : Nat
  vectorAborted : Bool
  deriving DecidableEq, Repr

/-- The capabilities an ingest writes: each placed against the catalog, mirrors merged. -/
def plan (p : Platform) (input : IngestInput p) (catalog : Table CapabilityRow) :
    Except Failure (List Capability) :=
  mergeByEffectiveUri p (input.batch.capabilities.map (effective p input.placement catalog))

/-- `_upsert_discovered`. -/
def upsertDiscovered (p : Platform) (db : Database) (input : IngestInput p) :
    Except Failure (Changes × Database) := do
  let planned ← plan p input db.capabilities
  let state ← indexAll p input (.start db) planned
  let (removed, result) ← deleteSourceOrphaned p input.vectorEnabled state.db
  .ok (⟨state.added, state.updated, state.unchanged, removed,
    input.vectorEnabled && !state.vectorAborted, state.vectorsWritten, state.vectorFailures,
    state.vectorAborted⟩, result)

/-- The two passes of `ingest_index`. A failed index pass rolls back, the holds stay. -/
def ingest (p : Platform) (db : Database) (input : IngestInput p) :
    Database × Except Failure Changes :=
  match quarantineNewCapabilities p db input with
  | (held, .error failure) => (held, .error failure)
  | (held, .ok _) =>
      match upsertDiscovered p held input with
      | .error failure => (held, .error failure)
      | .ok (changes, result) => (result, .ok changes)

/-- The tenant, URI and content hash of a hold the quarantine pass needs for a capability. -/
def Capability.NeedsHold (p : Platform) (input : IngestInput p) (existing : Database)
    (cap : Capability) : Prop :=
  cap.isSystemOrDraft = false ∧
    existing.indexes (effective p input.placement existing.capabilities cap).uri
      (effective p input.placement existing.capabilities cap).contentHash = false

/-- A hold on a capability at its effective address. -/
def Capability.HeldBy (p : Platform) (input : IngestInput p) (existing : Database)
    (cap : Capability) (row : QuarantineRow) : Prop :=
  let target := effective p input.placement existing.capabilities cap
  row.Holds (p.tenantOr (orElse target.tenantId "asg")) target.uri target.contentHash

/-- A database that differs only by more quarantine rows. -/
structure HoldsAdded (before after : Database) : Prop where
  rest : after = { before with quarantine := after.quarantine }
  kept : ∀ row ∈ before.quarantine, row ∈ after.quarantine

section

variable {p : Platform} {input : IngestInput p} {existing db result : Database}
variable {counts total : QuarantineCounts} {outcome : Except Failure QuarantineCounts}
variable {caps : List Capability}

theorem Database.indexes_iff {uri hash : String} : db.indexes uri hash = true ↔
    ∃ old ∈ db.capabilities, old.cap.uri = uri ∧ old.cap.contentHash = hash := by
  unfold Database.indexes
  constructor
  · intro h
    split at h
    · rename_i old hat
      obtain ⟨hold, huri⟩ := Database.capability_at_some hat
      exact ⟨old, hold, huri, by simpa using h⟩
    · cases h
  · rintro ⟨old, hold, rfl, rfl⟩
    simp [Database.capability_at_eq hold]

theorem HoldsAdded.refl (db : Database) : HoldsAdded db db := ⟨rfl, fun _ h => h⟩

theorem HoldsAdded.trans {first second third : Database} (h : HoldsAdded first second)
    (h' : HoldsAdded second third) : HoldsAdded first third := by
  refine ⟨?_, fun row hrow => h'.kept row (h.kept row hrow)⟩
  rw [h'.rest, h.rest]

theorem HoldsAdded.capabilities {first second : Database} (h : HoldsAdded first second) :
    second.capabilities = first.capabilities := by rw [h.rest]

theorem quarantine_capability_added {request : QuarantineRequest} {id : String}
    {record : QuarantineRow} (h : quarantineCapability p db request id = .ok (record, result)) :
    HoldsAdded db result ∧ ∀ row ∈ result.quarantine, row ∈ db.quarantine ∨ row = record := by
  obtain ⟨-, -, rfl | ⟨table, hinsert, rfl⟩⟩ := quarantine_capability_ok h
  · exact ⟨.refl _, fun row hrow => .inl hrow⟩
  · exact ⟨⟨rfl, fun row hrow => (Table.mem_insert? hinsert row).mpr (.inl hrow)⟩,
      fun row hrow => (Table.mem_insert? hinsert row).mp hrow⟩

theorem quarantine_loop_ok (hdb : HoldsAdded existing db)
    (h : quarantineLoop p input existing db counts caps = (result, outcome)) :
    HoldsAdded db result ∧
    (∀ row ∈ result.quarantine, row ∈ db.quarantine ∨
      ∃ cap ∈ caps, cap.NeedsHold p input existing ∧ cap.HeldBy p input existing row) ∧
    ∀ total, outcome = .ok total → ∀ cap ∈ caps, cap.NeedsHold p input existing →
      ∃ row ∈ result.quarantine, cap.HeldBy p input existing row := by
  induction caps generalizing db counts with
  | nil =>
      cases h
      exact ⟨.refl _, fun row hrow => .inl hrow, by simp⟩
  | cons cap caps ih =>
      unfold quarantineLoop at h
      simp only [hdb.capabilities] at h
      split at h
      · rename_i hskip
        obtain ⟨hadded, hnew, hall⟩ := ih hdb h
        refine ⟨hadded, fun row hrow => (hnew row hrow).imp_right ?_,
          fun total htotal other hother hneeds => ?_⟩
        · rintro ⟨other, hother, hneeds⟩
          exact ⟨other, List.mem_cons_of_mem _ hother, hneeds⟩
        · rcases List.mem_cons.mp hother with rfl | hother
          · rw [hneeds.1, hneeds.2] at hskip
            cases hskip
          · exact hall total htotal other hother hneeds
      · rename_i hneeds
        have hneeds : cap.NeedsHold p input existing := by
          simpa [Capability.NeedsHold] using hneeds
        cases hquarantine : quarantineCapability p db (quarantineRequest cap
            (effective p input.placement existing.capabilities cap))
            (input.ids counts.quarantined) with
        | error failure =>
            simp only [hquarantine] at h
            cases h
            exact ⟨.refl _, fun row hrow => .inl hrow, by simp⟩
        | ok pair =>
            obtain ⟨record, next⟩ := pair
            simp only [hquarantine] at h
            obtain ⟨hadded, honly⟩ := quarantine_capability_added hquarantine
            obtain ⟨hholds, hrecord, -⟩ := quarantine_capability_ok hquarantine
            obtain ⟨hrest, hnew, hall⟩ := ih (hdb.trans hadded) h
            refine ⟨hadded.trans hrest, fun row hrow => ?_,
              fun total htotal other hother hother' => ?_⟩
            · rcases hnew row hrow with hrow | ⟨other, hother, hmore⟩
              · rcases honly row hrow with hrow | rfl
                · exact .inl hrow
                · exact .inr ⟨cap, List.mem_cons_self, hneeds, hholds⟩
              · exact .inr ⟨other, List.mem_cons_of_mem _ hother, hmore⟩
            · rcases List.mem_cons.mp hother with rfl | hother
              · exact ⟨record, hrest.kept record hrecord, hholds⟩
              · exact hall total htotal other hother hother'

/-- A database in which the rows with some ids are retired: their full-text rows and capabilities
are gone, vectors may be, everything else stands. -/
structure Retired (gone : Nat → Prop) (before after : Database) : Prop where
  capabilities : ∀ x, x ∈ after.capabilities ↔ x ∈ before.capabilities ∧ ¬ gone x.id
  fts : ∀ x, x ∈ after.fts ↔ x ∈ before.fts ∧ ¬ gone x.rowid
  vectors : ∀ x ∈ after.vectors, x ∈ before.vectors
  rest : after = { before with
    capabilities := after.capabilities, fts := after.fts, vectors := after.vectors }

theorem retire_all_ok {rows : List CapabilityRow} {vectorEnabled : Bool}
    (h : retireAll p vectorEnabled db rows = .ok result) :
    Retired (fun id => ∃ row ∈ rows, id = row.id) db result := by
  induction rows generalizing db with
  | nil =>
      cases h
      exact ⟨by simp, by simp, fun x hx => hx, rfl⟩
  | cons row rows ih =>
      unfold retireAll at h
      obtain ⟨next, hnext, h⟩ := bind_eq_ok h
      unfold retire at hnext
      dsimp only at hnext
      split at hnext
      · cases hnext
        have hrest := ih h
        refine ⟨fun x => ?_, fun x => ?_, fun x hx => ?_, ?_⟩
        · rw [hrest.capabilities]
          simp [and_assoc]
        · rw [hrest.fts]
          simp [and_assoc]
        · have hkept := hrest.vectors x hx
          dsimp only at hkept
          split at hkept
          · exact ((Table.mem_filter x).mp hkept).1
          · exact hkept
        · have heq := hrest.rest
          rw [heq]
      · cases hnext

/-- The retirement pass removes exactly the rows that lost every source. -/
theorem delete_source_orphaned_ok {removed : Nat} {vectorEnabled : Bool}
    (h : deleteSourceOrphaned p vectorEnabled db = .ok (removed, result)) :
    Retired (fun id => ∃ row ∈ db.capabilities, db.isOrphan row = true ∧ id = row.id) db result := by
  unfold deleteSourceOrphaned at h
  obtain ⟨retired, hretired, h⟩ := bind_eq_ok h
  cases h
  have hall := retire_all_ok hretired
  have hgone : (fun id => ∃ row ∈ (db.capabilities.rows.filter db.isOrphan).insertionSort
      (fun a b => a.cap.uri ≤ b.cap.uri), id = row.id) =
      fun id => ∃ row ∈ db.capabilities, db.isOrphan row = true ∧ id = row.id := by
    funext id
    simp [List.mem_insertionSort, and_assoc]
  rw [hgone] at hall
  exact hall

/-- A row that stands after the retirement pass is one that has a source. -/
theorem Retired.mem_iff (h : Retired
    (fun id => ∃ row ∈ db.capabilities, db.isOrphan row = true ∧ id = row.id) db result)
    (x : CapabilityRow) :
    x ∈ result.capabilities ↔ x ∈ db.capabilities ∧ db.isOrphan x = false := by
  rw [h.capabilities]
  constructor
  · rintro ⟨hx, hkept⟩
    refine ⟨hx, ?_⟩
    by_contra horphan
    exact hkept ⟨x, hx, by simpa using horphan, rfl⟩
  · rintro ⟨hx, hsource⟩
    refine ⟨hx, ?_⟩
    rintro ⟨row, hrow, horphan, hid⟩
    rw [← Database.eq_of_id hx hrow hid, hsource] at horphan
    cases horphan

/-- What a successful ingest did: it held what is new, planned the batch against the catalog,
indexed the plan, and retired the orphans. -/
theorem ingest_ok {changes : Changes} (h : ingest p db input = (result, .ok changes)) :
    ∃ held counts planned final removed,
      quarantineNewCapabilities p db input = (held, .ok counts) ∧ HoldsAdded db held ∧
      plan p input db.capabilities = .ok planned ∧
      indexAll p input (.start held) planned = .ok final ∧
      deleteSourceOrphaned p input.vectorEnabled final.db = .ok (removed, result) ∧
      changes = ⟨final.added, final.updated, final.unchanged, removed,
        input.vectorEnabled && !final.vectorAborted, final.vectorsWritten, final.vectorFailures,
        final.vectorAborted⟩ := by
  unfold ingest at h
  cases hquarantine : quarantineNewCapabilities p db input with
  | mk held outcome =>
      have hadded := (quarantine_loop_ok (.refl db) hquarantine).1
      cases outcome with
      | error failure => simp [hquarantine] at h
      | ok counts =>
          simp only [hquarantine] at h
          cases hupsert : upsertDiscovered p held input with
          | error failure => simp [hupsert] at h
          | ok pair =>
              simp only [hupsert] at h
              cases h
              unfold upsertDiscovered at hupsert
              obtain ⟨planned, hplanned, hupsert⟩ := bind_eq_ok hupsert
              obtain ⟨final, hfinal, hupsert⟩ := bind_eq_ok hupsert
              obtain ⟨⟨removed, retired⟩, hremoved, hupsert⟩ := bind_eq_ok hupsert
              cases hupsert
              rw [hadded.capabilities] at hplanned
              exact ⟨held, counts, planned, final, removed, rfl, hadded, hplanned, hfinal,
                hremoved, rfl⟩

/-- A run of the two passes, from its counts. -/
theorem ingest_of_changes {changes : Changes}
    (h : (ingest p db input).2.toOption = some changes) :
    ingest p db input = ((ingest p db input).1, .ok changes) := by
  refine Prod.ext rfl ?_
  cases houtcome : (ingest p db input).2 with
  | error failure => simp [houtcome, Except.toOption] at h
  | ok counts =>
      rw [houtcome] at h
      exact congrArg Except.ok (Option.some.inj h)

/-- A failed ingest adds holds and changes nothing else. -/
theorem ingest_error {failure : Failure} (h : ingest p db input = (result, .error failure)) :
    HoldsAdded db result := by
  unfold ingest at h
  split at h
  · rename_i hquarantine
    cases h
    exact (quarantine_loop_ok (.refl db) hquarantine).1
  · rename_i hquarantine
    split at h
    · cases h
      exact (quarantine_loop_ok (.refl db) hquarantine).1
    · cases h

end

end Capmesh
