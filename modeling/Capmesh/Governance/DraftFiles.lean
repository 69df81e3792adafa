import Capmesh.Governance.DraftAuthority

/-!
# Drafts that fail

`create_capability_draft` and `update_capability_draft` with their files and with every way to
raise. Both write the file of the capability first and the catalog afterwards, and neither undoes
what it did when a later step raises: the connection is left with the statements it ran and the
file with its new text. `upsertOn` is `upsert_capability` with the state it raises in;
`create_draft_atomic_iff` and `update_draft_atomic_iff` say when an operation that raises has
changed nothing.
-/

namespace Capmesh

open Python Relational

/-- What a draft operation works on: the database as its connection sees it, and the texts of the
files by their resolved paths. -/
structure DraftHost where
  db : Database
  files : String → Option String

/-- How `write_text` ends: the text is written, the file is not opened, or the file is opened for
writing and left with another text. -/
inductive WriteOutcome where
  | written
  | refused
  | torn (left : String)
  deriving DecidableEq, Repr

/-- The failures that the payload does not decide: of reading the file, of a field that the
capability cannot be built from, of the first statement of the upsert, of the statements after it,
and of the audit event or the commit. -/
structure Faults where
  write : WriteOutcome := .written
  read : Option Failure := none
  build : Option Failure := none
  statement : Option Failure := none
  sync : Option Failure := none
  commit : Option Failure := none

/-- Raise a failure, if there is one. -/
def raised {α : Type} : Option Failure → Except Failure α → Except Failure α
  | some failure, _ => .error failure
  | none, outcome => outcome

/-- `upsert_capability` up to the commit, with the database it leaves when it raises. -/
def upsertOn (p : Platform) (db : Database) (cap : Capability) (faults : Faults) :
    Database × Except Failure Unit :=
  let cap := incoming p db cap
  match raised faults.statement (if cap.riskTier = .unset then
      .error (.integrity "CHECK constraint failed: risk_tier") else writeRow db cap) with
  | .error failure => (db, .error failure)
  | .ok (id, table) =>
      match raised faults.sync (capabilitySourceRows p cap) with
      | .error failure => ({ db with capabilities := table }, .error failure)
      | .ok expected =>
          ({ db with
            capabilities := table
            sources := syncSources db.sources cap.uri expected
            fts := syncFts db.fts (cap.ftsRow id) }, raised faults.commit (.ok ()))

/-- The end of a draft operation: the upsert of the capability that was built. -/
def upsertBuilt (p : Platform) (host : DraftHost) (built : Except Failure Capability)
    (faults : Faults) : DraftHost × Except Failure Unit :=
  match raised faults.build built with
  | .error failure => (host, .error failure)
  | .ok cap =>
      let (db, outcome) := upsertOn p host.db cap faults
      ({ host with db }, outcome)

/-- Leave a text in the file at a path. -/
def DraftHost.put (host : DraftHost) (path text : String) : DraftHost :=
  { host with files := fun other => if other = path then some text else host.files other }

/-- `write_text`, and what comes after it. -/
def writeThen (host : DraftHost) (path text : String) (outcome : WriteOutcome)
    (next : DraftHost → DraftHost × Except Failure Unit) : DraftHost × Except Failure Unit :=
  match outcome with
  | .written => next (host.put path text)
  | .refused => (host, .error (.os "the file cannot be opened"))
  | .torn left => (host.put path left, .error (.os "the file cannot be written"))

/-- The directory of a draft. -/
def DraftCall.directoryPath (p : Platform) (call : DraftCall) : String :=
  call.stateDir ++ "/drafts/" ++ p.stableId "capdraft"
    [p.tenantOr call.principal.tenantId, call.principal.subject, call.capabilityType,
      slug p call.name, optOr call.version "0.1.0"]

/-- The file of a draft. -/
def DraftCall.path (p : Platform) (call : DraftCall) (entrypoint : String) : String :=
  p.normalizePath (if entrypoint = "." then call.directoryPath p
    else call.directoryPath p ++ "/" ++ entrypoint)

/-- `create_capability_draft` on files. The directory of the draft is no file. -/
def createDraftOn (p : Platform) (host : DraftHost) (call : DraftCall) (faults : Faults) :
    DraftHost × Except Failure Unit :=
  match checkDraft p call, safeEntrypoint (optOr call.entrypoint "CAPABILITY.md") with
  | .error failure, _ => (host, .error failure)
  | .ok _, .error failure => (host, .error failure)
  | .ok storeId, .ok entrypoint =>
      writeThen host (call.path p entrypoint) call.content
        (if entrypoint = "." then .refused else faults.write) fun host =>
        upsertBuilt p host (draftCapability p { call with fileWritten := true } storeId) faults

/-- `read_text` with the default newline translation. -/
def readText (text : String) : String :=
  String.ofList (translate text.toList)
where
  /-- A carriage return, with the line feed after it, is a line feed. -/
  translate : List Char → List Char
    | [] => []
    | '\r' :: '\n' :: rest => '\n' :: translate rest
    | '\r' :: rest => '\n' :: translate rest
    | c :: rest => c :: translate rest

/-- An edit that reads the file it finds. -/
def EditCall.reading (p : Platform) (call : EditCall) (host : DraftHost) (cap : Capability)
    (faults : Faults) : EditCall :=
  { call with
    fileWritten := true
    fileText := if faults.read.isSome then none
      else (host.files (p.normalizePath cap.sourcePath)).map readText }

/-- The capability an edit builds. -/
def EditCall.built (p : Platform) (call : EditCall) (cap : Capability) (content : String) :
    Except Failure Capability := do
  let riskText := optOr call.riskTier cap.riskTier.text
  let riskTier ← checked "risk tier" riskText (RiskTier.parse riskText)
  .ok (call.edited p cap content riskTier)

/-- `update_capability_draft` on files. -/
def updateDraftOn (p : Platform) (host : DraftHost) (call : EditCall) (faults : Faults) :
    DraftHost × Except Failure Unit :=
  match requireCapabilityForEdit host.db call with
  | .error failure => (host, .error failure)
  | .ok cap =>
      match editedContent (call.reading p host cap faults) with
      | .error failure => (host, .error failure)
      | .ok content =>
          let next := fun host => upsertBuilt p host (call.built p cap content) faults
          if call.content.isSome then
            writeThen host (p.normalizePath cap.sourcePath) content faults.write next
          else next host

/-- A capability whose row the statement of the upsert writes. -/
structure Storable (p : Platform) (db : Database) (cap : Capability) (faults : Faults) : Prop where
  statement : faults.statement = none
  tier : (incoming p db cap).riskTier ≠ .unset
  key : KeyFree db (incoming p db cap)

/-- An upsert that gets through once the row is written. -/
structure Finishes (p : Platform) (db : Database) (cap : Capability) (faults : Faults) :
    Prop where
  sync : faults.sync = none
  sources : ∃ expected, capabilitySourceRows p (incoming p db cap) = .ok expected
  commit : faults.commit = none

/-- A capability that says what its row says. -/
def RepeatsRow (p : Platform) (db : Database) (cap : Capability) : Prop :=
  ∃ row ∈ db.capabilities, row.cap.uri = (incoming p db cap).uri ∧
    changes row.cap (incoming p db cap).stored = false

/-- A capability whose source rows and full-text row stand already. -/
def RepeatsIndex (p : Platform) (db : Database) (cap : Capability) : Prop :=
  ∀ expected row, capabilitySourceRows p (incoming p db cap) = .ok expected →
    row ∈ db.capabilities → row.cap.uri = (incoming p db cap).uri →
    (∀ x, x ∈ expected ↔ x ∈ db.sources ∧ x.uri = (incoming p db cap).uri) ∧
      (incoming p db cap).ftsRow row.id ∈ db.fts

/-- An upsert that leaves the tables as they are if it raises. -/
def UpsertSafe (p : Platform) (db : Database) (cap : Capability) (faults : Faults) : Prop :=
  Storable p db cap faults → Finishes p db cap faults ∨ (RepeatsRow p db cap ∧
    (faults.sync = none → RepeatsIndex p db cap))

/-- An operation whose upsert gets through: the capability is accepted, stored and indexed. -/
def Through (p : Platform) (db : Database) (accepted : Prop) (built : Except Failure Capability)
    (faults : Faults) : Prop :=
  faults.build = none ∧ accepted ∧
    ∀ cap, built = .ok cap → Storable p db cap faults ∧ Finishes p db cap faults

/-- The file at a path is missing or has the text. -/
def DraftHost.Undisturbed (host : DraftHost) (path text : String) : Prop :=
  ∀ old, host.files path = some old → old = text

/-- An upsert of what was built that leaves the catalog as it is if it raises. -/
def CatalogSafe (p : Platform) (db : Database) (built : Except Failure Capability)
    (faults : Faults) : Prop :=
  faults.build = none → ∀ cap, built = .ok cap → UpsertSafe p db cap faults

/-- A write that leaves things as they are if the operation raises: the file had the text, unless
everything after it gets through. -/
structure WriteSafe (p : Platform) (host : DraftHost) (path text : String) (outcome : WriteOutcome)
    (accepted : Prop) (built : Except Failure Capability) (faults : Faults) : Prop where
  file : outcome = .written → ¬ Through p host.db accepted built faults →
    host.Undisturbed path text
  torn : ∀ left, outcome = .torn left → host.Undisturbed path left
  catalog : outcome = .written → CatalogSafe p host.db built faults

/-- A payload that the steps after the write accept. -/
structure DraftCall.Accepted (p : Platform) (call : DraftCall) (storeId : String) : Prop where
  space : (call.directory.namespaces.find? fun space =>
    space.id = optOr call.namespaceId
      (p.stableId "ns" [p.tenantOr call.principal.tenantId, storeId, "personal"]) &&
      space.tenantId = p.tenantOr call.principal.tenantId).isSome = true
  visibility : (Visibility.parse (optOr call.visibility "protected")).isSome = true
  discoveryMode : (DiscoveryMode.parse (optOr call.discoveryMode "hidden")).isSome = true
  riskTier : (RiskTier.parse (optOr call.riskTier "low")).isSome = true

/-- A creation that raises only before it changes anything. -/
def CreateSafe (p : Platform) (host : DraftHost) (call : DraftCall) (faults : Faults) : Prop :=
  ∀ storeId entrypoint, checkDraft p call = .ok storeId →
    safeEntrypoint (optOr call.entrypoint "CAPABILITY.md") = .ok entrypoint →
    WriteSafe p host (call.path p entrypoint) call.content
      (if entrypoint = "." then .refused else faults.write) (call.Accepted p storeId)
      (draftCapability p { call with fileWritten := true } storeId) faults

/-- An edit that raises only before it changes anything. -/
def UpdateSafe (p : Platform) (host : DraftHost) (call : EditCall) (faults : Faults) : Prop :=
  ∀ cap content, requireCapabilityForEdit host.db call = .ok cap →
    editedContent (call.reading p host cap faults) = .ok content →
    if call.content.isSome then
      WriteSafe p host (p.normalizePath cap.sourcePath) content faults.write
        ((RiskTier.parse (optOr call.riskTier cap.riskTier.text)).isSome = true)
        (call.built p cap content) faults
    else CatalogSafe p host.db (call.built p cap content) faults

/-- The three tables of the catalog are the same. -/
structure CatalogKept (before after : Database) : Prop where
  capabilities : after.capabilities = before.capabilities
  sources : after.sources = before.sources
  fts : after.fts = before.fts

/-- Every file that existed is the same. -/
def FilesKept (before after : DraftHost) : Prop :=
  ∀ path text, before.files path = some text → after.files path = some text

/-- The rows whose file has the text they were indexed with. -/
def DraftHost.Matches (p : Platform) (host : DraftHost) (row : CapabilityRow) : Prop :=
  row ∈ host.db.capabilities ∧ ∃ text, host.files (p.normalizePath row.cap.sourcePath) = some text ∧
    contentDigest p text = row.cap.contentHash

/-- An operation that raises leaves the catalog and every existing file as they were, and so every
row that matches its file. -/
structure AtomicOnError (p : Platform) (before : DraftHost)
    (run : DraftHost × Except Failure Unit) : Prop where
  catalog : run.2 ≠ .ok () → CatalogKept before.db run.1.db
  files : run.2 ≠ .ok () → FilesKept before run.1
  digests : run.2 ≠ .ok () → ∀ row, before.Matches p row → run.1.Matches p row

/-- The two operations. -/
inductive DraftOperation where
  | create (call : DraftCall)
  | update (call : EditCall)

/-- One call of an operation. -/
def DraftOperation.run (p : Platform) (host : DraftHost) (faults : Faults) :
    DraftOperation → DraftHost × Except Failure Unit
  | .create call => createDraftOn p host call faults
  | .update call => updateDraftOn p host call faults

/-- A call that raises only before it changes anything. -/
def DraftOperation.Safe (p : Platform) (host : DraftHost) (faults : Faults) :
    DraftOperation → Prop
  | .create call => CreateSafe p host call faults
  | .update call => UpdateSafe p host call faults

section

variable {p : Platform} {db : Database} {cap : Capability} {faults : Faults} {id : Nat}
variable {table : Table CapabilityRow} {expected : List SourceRow}

theorem raised_eq_ok {α : Type} {failure : Option Failure} {outcome : Except Failure α}
    {value : α} : raised failure outcome = .ok value ↔ failure = none ∧ outcome = .ok value := by
  cases failure <;> simp [raised]

/-- Writing a row leaves the table as it is exactly when the row says what the capability says. -/
theorem write_row_same_iff (h : writeRow db cap = .ok (id, table)) :
    table = db.capabilities ↔
      ∃ row ∈ db.capabilities, row.cap.uri = cap.uri ∧ changes row.cap cap.stored = false := by
  obtain ⟨hmem, hid, hfresh⟩ := write_row_ok h
  constructor
  · rintro rfl
    have hwritten := (hmem _).mpr (.inl rfl)
    refine ⟨_, hwritten, written_uri _ cap, ?_⟩
    cases hat : db.capabilityAt cap.uri with
    | none =>
        rw [hat] at hwritten
        exact absurd rfl (hfresh hat _ hwritten)
    | some row =>
        rw [hat, hid row hat] at hwritten
        obtain ⟨hrow, huri⟩ := Database.capability_at_some hat
        have hsame := congrArg CapabilityRow.cap (Database.eq_of_id hwritten hrow rfl)
        show changes (merged row.cap cap.stored) cap.stored = false
        rw [show merged row.cap cap.stored = row.cap from hsame]
        exact (merged_eq_iff row.cap cap.stored huri).mp hsame
  · rintro ⟨row, hrow, huri, hchanges⟩
    unfold writeRow at h
    rw [← huri, Database.capability_at_eq hrow] at h
    simp only [hchanges, Bool.and_false, Bool.false_eq_true, if_false] at h
    rw [Table.update?_eq_self fun x _ => rfl] at h
    cases h
    rfl

/-- Synchronizing source rows leaves the table as it is exactly when they stand. -/
theorem sync_sources_same_iff (h : capabilitySourceRows p cap = .ok expected)
    {sources : Table SourceRow} : syncSources sources cap.uri expected = sources ↔
      ∀ x, x ∈ expected ↔ x ∈ sources ∧ x.uri = cap.uri := by
  obtain ⟨hkeyed, hsorted, -⟩ := capability_source_rows_ok h
  refine ⟨fun hsame x => ?_, sync_sources_unchanged hkeyed hsorted⟩
  have hx : x ∈ syncSources sources cap.uri expected ↔ _ := mem_sync_sources hkeyed x
  rw [hsame] at hx
  constructor
  · intro hexpected
    exact ⟨hx.mpr (.inl hexpected), hkeyed.1 x hexpected⟩
  · rintro ⟨hsource, huri⟩
    rcases hx.mp hsource with hexpected | ⟨-, hne, -⟩
    · exact hexpected
    · exact absurd huri hne

/-- Synchronizing a full-text row leaves the table as it is exactly when it stands. -/
theorem sync_fts_same_iff {fts : Table FtsRow} {row : FtsRow} :
    syncFts fts row = fts ↔ row ∈ fts := by
  constructor
  · intro hsame
    rw [← hsame]
    exact (mem_sync_fts row).mpr (.inl rfl)
  · intro hrow
    have hfind : fts.find? (·.rowid = row.rowid) = some row :=
      Table.find?_eq_some hrow (by simp) fun y _ hy => of_decide_eq_true hy
    unfold syncFts
    rw [if_pos hfind]

/-- The first statement of an upsert writes the row exactly when the capability is storable. -/
theorem storable_iff : Storable p db cap faults ↔ ∃ id table, raised faults.statement
    (if (incoming p db cap).riskTier = .unset then
      .error (.integrity "CHECK constraint failed: risk_tier")
      else writeRow db (incoming p db cap)) = .ok (id, table) := by
  constructor
  · rintro ⟨hstatement, htier, hkey⟩
    obtain ⟨id, table, hwrite⟩ := write_row_of_key_free hkey
    exact ⟨id, table, raised_eq_ok.mpr ⟨hstatement, by rw [if_neg htier, hwrite]⟩⟩
  · rintro ⟨id, table, h⟩
    obtain ⟨hstatement, h⟩ := raised_eq_ok.mp h
    split at h
    · cases h
    · rename_i htier
      exact ⟨hstatement, htier, key_free_of_write h⟩

theorem upsert_on_ok_iff : (upsertOn p db cap faults).2 = .ok () ↔
    Storable p db cap faults ∧ Finishes p db cap faults := by
  rw [storable_iff]
  unfold upsertOn
  dsimp only
  split
  · rename_i failure hwrite
    simp [hwrite]
  · rename_i id table hwrite
    split
    · rename_i failure hexpected
      constructor
      · intro h
        cases h
      rintro ⟨-, hfinishes⟩
      obtain ⟨expected, hsources⟩ := hfinishes.sources
      rw [raised_eq_ok.mpr ⟨hfinishes.sync, hsources⟩] at hexpected
      cases hexpected
    · rename_i expected hexpected
      obtain ⟨hsync, hsources⟩ := raised_eq_ok.mp hexpected
      rw [raised_eq_ok]
      exact ⟨fun h => ⟨⟨id, table, hwrite⟩, hsync, ⟨expected, hsources⟩, h.1⟩,
        fun h => ⟨h.2.commit, rfl⟩⟩

theorem upsert_on_kept_iff : ((upsertOn p db cap faults).2 ≠ .ok () →
    CatalogKept db (upsertOn p db cap faults).1) ↔ UpsertSafe p db cap faults := by
  unfold UpsertSafe
  by_cases hstorable : Storable p db cap faults
  swap
  · refine ⟨fun _ hno => absurd hno hstorable, fun _ _ => ?_⟩
    rw [storable_iff] at hstorable
    unfold upsertOn
    dsimp only
    split
    · exact ⟨rfl, rfl, rfl⟩
    · rename_i id table hwrite
      exact absurd ⟨id, table, hwrite⟩ hstorable
  by_cases hfinishes : Finishes p db cap faults
  · exact ⟨fun _ _ => .inl hfinishes,
      fun _ hraises => absurd (upsert_on_ok_iff.mpr ⟨hstorable, hfinishes⟩) hraises⟩
  have hraises : (upsertOn p db cap faults).2 ≠ .ok () :=
    fun h => hfinishes (upsert_on_ok_iff.mp h).2
  simp only [ne_eq, hraises, not_false_eq_true, true_implies, hstorable, hfinishes, false_or]
  obtain ⟨id, table, hwrite⟩ := storable_iff.mp hstorable
  have hrow : writeRow db (incoming p db cap) = .ok (id, table) := by
    have h := (raised_eq_ok.mp hwrite).2
    rwa [if_neg hstorable.tier] at h
  unfold upsertOn
  simp only [hwrite]
  cases hexpected : raised faults.sync (capabilitySourceRows p (incoming p db cap)) with
  | error failure =>
      dsimp only
      refine ⟨fun hkept => ⟨(write_row_same_iff hrow).mp hkept.capabilities, ?_⟩,
        fun hsafe => ⟨(write_row_same_iff hrow).mpr hsafe.1, rfl, rfl⟩⟩
      intro hsync expected row hsources
      rw [raised_eq_ok.mpr ⟨hsync, hsources⟩] at hexpected
      cases hexpected
  | ok expected =>
      obtain ⟨hsync, hsources⟩ := raised_eq_ok.mp hexpected
      dsimp only
      constructor
      · rintro ⟨hcapabilities, hsame, hfts⟩
        refine ⟨(write_row_same_iff hrow).mp hcapabilities,
          fun _ expected' row hsources' hmem huri => ?_⟩
        cases hsources.symm.trans hsources'
        have hid := (write_row_ok hrow).2.1 row (huri ▸ Database.capability_at_eq hmem)
        rw [hid] at hfts
        exact ⟨(sync_sources_same_iff hsources).mp hsame, sync_fts_same_iff.mp hfts⟩
      · rintro ⟨hrepeats, hindex⟩
        have ⟨row, hmem, huri, _⟩ := hrepeats
        obtain ⟨hsame, hfts⟩ := hindex hsync expected row hsources hmem huri
        have hid := (write_row_ok hrow).2.1 row (huri ▸ Database.capability_at_eq hmem)
        rw [hid]
        exact ⟨(write_row_same_iff hrow).mpr hrepeats, (sync_sources_same_iff hsources).mpr hsame,
          sync_fts_same_iff.mpr hfts⟩

variable {host : DraftHost} {built : Except Failure Capability} {path text storeId : String}
variable {accepted : Prop} {call : DraftCall} {after : DraftHost}

/-- What the catalog and the files keep, the rows that match their files keep. -/
theorem atomic_of_kept {run : DraftHost × Except Failure Unit}
    (h : run.2 ≠ .ok () → CatalogKept host.db run.1.db ∧ FilesKept host run.1) :
    AtomicOnError p host run := by
  refine ⟨fun hraises => (h hraises).1, fun hraises => (h hraises).2, fun hraises row hrow => ?_⟩
  obtain ⟨hcatalog, hfiles⟩ := h hraises
  obtain ⟨hmem, text, htext, hdigest⟩ := hrow
  exact ⟨hcatalog.capabilities ▸ hmem, text, hfiles _ _ htext, hdigest⟩

/-- An operation that changes nothing is atomic. -/
theorem atomic_unchanged {outcome : Except Failure Unit} : AtomicOnError p host (host, outcome) :=
  atomic_of_kept fun _ => ⟨⟨rfl, rfl, rfl⟩, fun _ _ hold => hold⟩

theorem files_kept_put : FilesKept host (host.put path text) ↔ host.Undisturbed path text := by
  constructor
  · intro hkept old hold
    simpa [DraftHost.put, eq_comm] using hkept path old hold
  · intro hsame other old hold
    show (if other = path then some text else host.files other) = some old
    split
    · rename_i hpath
      rw [hsame old (hpath ▸ hold)]
    · exact hold

theorem upsert_built_files (p : Platform) (host : DraftHost)
    (built : Except Failure Capability) (faults : Faults) :
    (upsertBuilt p host built faults).1.files = host.files := by
  unfold upsertBuilt
  split <;> rfl

theorem upsert_built_ok_iff : (upsertBuilt p host built faults).2 = .ok () ↔
    faults.build = none ∧ ∃ cap, built = .ok cap ∧ Storable p host.db cap faults ∧
      Finishes p host.db cap faults := by
  unfold upsertBuilt
  cases hbuilt : raised faults.build built with
  | error failure =>
      refine ⟨fun h => (nomatch h), fun h => ?_⟩
      obtain ⟨hbuild, cap, hcap, -⟩ := h
      rw [raised_eq_ok.mpr ⟨hbuild, hcap⟩] at hbuilt
      cases hbuilt
  | ok cap =>
      obtain ⟨hbuild, hcap⟩ := raised_eq_ok.mp hbuilt
      show (upsertOn p host.db cap faults).2 = .ok () ↔ _
      rw [upsert_on_ok_iff, hcap]
      simp [hbuild]

theorem through_iff (p : Platform) (host : DraftHost) (faults : Faults)
    (h : (∃ cap, built = .ok cap) ↔ accepted) :
    Through p host.db accepted built faults ↔ (upsertBuilt p host built faults).2 = .ok () := by
  rw [upsert_built_ok_iff]
  constructor
  · rintro ⟨hbuild, haccepted, hthrough⟩
    obtain ⟨cap, hcap⟩ := h.mpr haccepted
    exact ⟨hbuild, cap, hcap, hthrough cap hcap⟩
  · rintro ⟨hbuild, cap, hcap, hthrough⟩
    refine ⟨hbuild, h.mp ⟨cap, hcap⟩, fun other hother => ?_⟩
    cases hcap.symm.trans hother
    exact hthrough

/-- What comes after the write leaves the catalog as it is exactly when the upsert is safe. -/
theorem upsert_built_kept_iff (p : Platform) (host : DraftHost)
    (built : Except Failure Capability) (faults : Faults) :
    ((upsertBuilt p host built faults).2 ≠ .ok () →
    CatalogKept host.db (upsertBuilt p host built faults).1.db) ↔
      CatalogSafe p host.db built faults := by
  unfold upsertBuilt CatalogSafe
  cases hbuilt : raised faults.build built with
  | error failure =>
      refine ⟨fun _ hbuild cap hcap => ?_, fun _ _ => ⟨rfl, rfl, rfl⟩⟩
      rw [raised_eq_ok.mpr ⟨hbuild, hcap⟩] at hbuilt
      cases hbuilt
  | ok cap =>
      obtain ⟨hbuild, hcap⟩ := raised_eq_ok.mp hbuilt
      show ((upsertOn p host.db cap faults).2 ≠ .ok () →
        CatalogKept host.db (upsertOn p host.db cap faults).1) ↔ _
      rw [upsert_on_kept_iff, hcap]
      simp [hbuild]

/-- Without a write an operation is atomic exactly when its upsert is safe. -/
theorem upsert_built_atomic_iff : AtomicOnError p host (upsertBuilt p host built faults) ↔
    CatalogSafe p host.db built faults := by
  rw [← upsert_built_kept_iff]
  refine ⟨fun h => h.catalog, fun h => atomic_of_kept fun hraises => ⟨h hraises, ?_⟩⟩
  intro path text hold
  rw [upsert_built_files]
  exact hold

theorem write_then_atomic_iff {outcome : WriteOutcome} (h : (∃ cap, built = .ok cap) ↔ accepted) :
    AtomicOnError p host (writeThen host path text outcome fun host =>
      upsertBuilt p host built faults) ↔
    WriteSafe p host path text outcome accepted built faults := by
  unfold writeThen
  cases outcome with
  | refused =>
      exact ⟨fun _ => ⟨nofun, nofun, nofun⟩, fun _ => atomic_unchanged⟩
  | torn left =>
      dsimp only
      constructor
      · intro hatomic
        refine ⟨nofun, fun left' hleft => ?_, nofun⟩
        cases hleft
        exact files_kept_put.mp (hatomic.files nofun)
      · intro hsafe
        exact atomic_of_kept fun _ =>
          ⟨⟨rfl, rfl, rfl⟩, files_kept_put.mpr (hsafe.torn left rfl)⟩
  | written =>
      dsimp only
      have hthrough := through_iff p (host.put path text) faults h
      have hkept := upsert_built_kept_iff p (host.put path text) built faults
      have hfiles := upsert_built_files p (host.put path text) built faults
      constructor
      · intro hatomic
        refine ⟨fun _ hfails => ?_, nofun, fun _ => hkept.mp hatomic.catalog⟩
        have hraises := fun hok => hfails (hthrough.mpr hok)
        refine files_kept_put.mp fun other old hold => ?_
        rw [← hfiles]
        exact hatomic.files hraises other old hold
      · intro hsafe
        refine atomic_of_kept fun hraises => ⟨hkept.mpr (hsafe.catalog rfl) hraises, ?_⟩
        intro other old hold
        rw [hfiles]
        exact files_kept_put.mpr
          (hsafe.file rfl fun hthrough' => hraises (hthrough.mp hthrough')) other old hold

theorem checked_isOk_iff {α : Type} (what text : String) {value : Option α} :
    (∃ found, checked what text value = .ok found) ↔ value.isSome = true := by
  cases value <;> simp [checked]

/-- The checks before the write pass only for a known type. -/
theorem check_draft_type (h : checkDraft p call = .ok storeId) :
    (CapabilityType.parse call.capabilityType).isSome = true := by
  unfold checkDraft at h
  dsimp only at h
  split at h
  · cases h
  · split at h
    · cases h
    · rename_i htype
      have hmem : call.capabilityType ∈ draftTypes := by simpa using htype
      revert hmem
      generalize call.capabilityType = type
      simp only [draftTypes, List.mem_cons, List.not_mem_nil, or_false]
      rintro (rfl | rfl | rfl | rfl | rfl | rfl | rfl | rfl) <;> decide

/-- The draft of a payload that passed the first checks is built exactly when the payload is
accepted. -/
theorem draft_built_iff {entrypoint : String} (hcheck : checkDraft p call = .ok storeId)
    (hentrypoint : safeEntrypoint (optOr call.entrypoint "CAPABILITY.md") = .ok entrypoint) :
    (∃ cap, draftCapability p { call with fileWritten := true } storeId = .ok cap) ↔
      call.Accepted p storeId := by
  obtain ⟨type, htype⟩ := checked_isOk_iff "capability type" call.capabilityType
    |>.mpr (check_draft_type hcheck)
  unfold draftCapability
  simp only [hentrypoint, bind, Except.bind, Bool.not_true, Bool.false_eq_true, if_false]
  constructor
  · rintro ⟨cap, h⟩
    split at h
    · cases h
    · rename_i space hspace
      simp only [htype] at h
      split at h
      · cases h
      · rename_i visibility hvisibility
        split at h
        · cases h
        · rename_i mode hmode
          split at h
          · cases h
          · rename_i tier htier
            exact ⟨by rw [hspace]; rfl, (checked_isOk_iff _ _).mp ⟨_, hvisibility⟩,
              (checked_isOk_iff _ _).mp ⟨_, hmode⟩, (checked_isOk_iff _ _).mp ⟨_, htier⟩⟩
  · rintro ⟨hspace, hvisibility, hmode, htier⟩
    obtain ⟨space, hspace⟩ := Option.isSome_iff_exists.mp hspace
    obtain ⟨visibility, hvisibility⟩ := checked_isOk_iff "visibility"
      (optOr call.visibility "protected") |>.mpr hvisibility
    obtain ⟨mode, hmode⟩ := checked_isOk_iff "discovery mode"
      (optOr call.discoveryMode "hidden") |>.mpr hmode
    obtain ⟨tier, htier⟩ := checked_isOk_iff "risk tier"
      (optOr call.riskTier "low") |>.mpr htier
    rw [hspace]
    simp only [htype, hvisibility, hmode, htier]
    exact ⟨_, rfl⟩

/-- A creation that raises leaves everything as it was exactly when it is safe. -/
theorem create_draft_atomic_iff :
    AtomicOnError p host (createDraftOn p host call faults) ↔ CreateSafe p host call faults := by
  unfold createDraftOn CreateSafe
  cases hcheck : checkDraft p call with
  | error failure =>
      exact ⟨fun _ _ _ h => (nomatch h), fun _ => atomic_unchanged⟩
  | ok storeId =>
      cases hentrypoint : safeEntrypoint (optOr call.entrypoint "CAPABILITY.md") with
      | error failure =>
          exact ⟨fun _ _ _ _ h => (nomatch h), fun _ => atomic_unchanged⟩
      | ok entrypoint =>
          refine (write_then_atomic_iff (draft_built_iff hcheck hentrypoint)).trans ?_
          constructor
          · intro hsafe storeId' entrypoint' hcheck' hentrypoint'
            cases hcheck'
            cases hentrypoint'
            exact hsafe
          · exact fun hsafe => hsafe storeId entrypoint rfl rfl

theorem edit_built_iff {call : EditCall} {content : String} :
    (∃ built, call.built p cap content = .ok built) ↔
      (RiskTier.parse (optOr call.riskTier cap.riskTier.text)).isSome = true := by
  unfold EditCall.built
  dsimp only
  cases RiskTier.parse (optOr call.riskTier cap.riskTier.text) with
  | none => simp [checked, bind, Except.bind]
  | some tier => simp [checked, bind, Except.bind]

/-- An edit that raises leaves everything as it was exactly when it is safe. -/
theorem update_draft_atomic_iff {call : EditCall} :
    AtomicOnError p host (updateDraftOn p host call faults) ↔ UpdateSafe p host call faults := by
  unfold updateDraftOn UpdateSafe
  cases hcap : requireCapabilityForEdit host.db call with
  | error failure =>
      exact ⟨fun _ _ _ h => (nomatch h), fun _ => atomic_unchanged⟩
  | ok cap =>
      cases hcontent : editedContent (call.reading p host cap faults) with
      | error failure =>
          dsimp only
          refine ⟨fun _ cap' content hcap' hcontent' => ?_, fun _ => ?_⟩
          · cases hcap'
            rw [hcontent] at hcontent'
            cases hcontent'
          · simp only [hcontent]
            exact atomic_unchanged
      | ok content =>
          simp only [hcontent]
          have hstep : AtomicOnError p host (if call.content.isSome = true then
                writeThen host (p.normalizePath cap.sourcePath) content faults.write fun host =>
                  upsertBuilt p host (call.built p cap content) faults
              else upsertBuilt p host (call.built p cap content) faults) ↔
              if call.content.isSome = true then
                WriteSafe p host (p.normalizePath cap.sourcePath) content faults.write
                  ((RiskTier.parse (optOr call.riskTier cap.riskTier.text)).isSome = true)
                  (call.built p cap content) faults
              else CatalogSafe p host.db (call.built p cap content) faults := by
            split
            · exact write_then_atomic_iff edit_built_iff
            · exact upsert_built_atomic_iff
          refine hstep.trans ⟨fun hsafe cap' content' hcap' hcontent' => ?_, fun hsafe => ?_⟩
          · cases hcap'
            cases hcontent.symm.trans hcontent'
            exact hsafe
          · exact hsafe cap content rfl hcontent

theorem bind_of_ok {ε α β : Type} {first : Except ε α} {next : α → Except ε β} {value : α}
    (h : first = .ok value) : first >>= next = next value := by
  rw [h]
  rfl

theorem upsert_built_ok {built : Except Failure Capability} (h : upsertBuilt p host built faults =
    (after, .ok ())) :
    ∃ cap id, built = .ok cap ∧ upsertCapability p host.db cap = .ok (id, after.db) := by
  unfold upsertBuilt at h
  split at h
  · cases h
  · rename_i cap hbuilt
    unfold upsertOn at h
    dsimp only at h
    split at h
    · cases h
    · rename_i id table hwrite
      split at h
      · cases h
      · rename_i expected hexpected
        obtain ⟨rfl, -⟩ := Prod.mk.inj h
        have hwrite := (raised_eq_ok.mp hwrite).2
        split at hwrite
        · cases hwrite
        · rename_i htier
          refine ⟨cap, id, (raised_eq_ok.mp hbuilt).2, ?_⟩
          rw [upsertCapability]
          dsimp only
          rw [if_neg htier]
          exact (bind_of_ok hwrite).trans (bind_of_ok (raised_eq_ok.mp hexpected).2)

/-- A creation on files that gets through is the one on the catalog alone. -/
theorem create_draft_on_ok (h : createDraftOn p host call faults = (after, .ok ())) :
    createCapabilityDraft p host.db { call with fileWritten := true } = .ok after.db := by
  unfold createDraftOn at h
  split at h
  · cases h
  · cases h
  · rename_i storeId entrypoint hcheck hentrypoint
    unfold writeThen at h
    split at h
    · obtain ⟨cap, id, hbuilt, hupsert⟩ := upsert_built_ok h
      have hcheck : checkDraft p { call with fileWritten := true } = .ok storeId := hcheck
      exact (bind_of_ok hcheck).trans ((bind_of_ok hbuilt).trans (bind_of_ok hupsert))
    · cases h
    · cases h

/-- An edit on files that gets through is the one on the catalog alone, with the text of its file. -/
theorem update_draft_on_ok {call : EditCall} (h : updateDraftOn p host call faults = (after, .ok
    ())) :
    ∃ cap, requireCapabilityForEdit host.db call = .ok cap ∧
      updateCapabilityDraft p host.db (call.reading p host cap faults) = .ok after.db := by
  unfold updateDraftOn at h
  split at h
  · cases h
  · rename_i cap hcap
    split at h
    · cases h
    · rename_i content hcontent
      have hbuilt : ∃ other, other.db = host.db ∧
          upsertBuilt p other (call.built p cap content) faults = (after, .ok ()) := by
        dsimp only at h
        split at h
        · unfold writeThen at h
          split at h
          · exact ⟨host.put (p.normalizePath cap.sourcePath) content, rfl, h⟩
          · cases h
          · cases h
        · exact ⟨host, rfl, h⟩
      obtain ⟨other, hdb, hbuilt⟩ := hbuilt
      obtain ⟨built, id, hbuilt, hupsert⟩ := upsert_built_ok hbuilt
      rw [hdb] at hupsert
      obtain ⟨riskTier, hrisk, hedited⟩ := bind_eq_ok hbuilt
      cases hedited
      have hcap' : requireCapabilityForEdit host.db (call.reading p host cap faults) = .ok cap :=
        hcap
      exact ⟨cap, hcap, (bind_of_ok hcap').trans ((bind_of_ok hcontent).trans
        ((bind_of_ok hrisk).trans (bind_of_ok hupsert)))⟩

/-- A draft operation that raises leaves everything as it was exactly when it is safe. -/
theorem draft_atomic_iff {operation : DraftOperation} :
    AtomicOnError p host (operation.run p host faults) ↔ operation.Safe p host faults := by
  cases operation with
  | create call => exact create_draft_atomic_iff
  | update call => exact update_draft_atomic_iff

end

/-- Ann's draft in an empty catalog, and its file. -/
def annsHost (p : Platform) : Except Failure DraftHost :=
  let run := createDraftOn p ⟨.empty, fun _ => none⟩ draftNotes {}
  run.2.map fun _ => run.1

/-- The same draft with other content, in a namespace that does not exist. -/
def misfiledNotes : DraftCall :=
  { draftNotes with content := "# Notes, revised", namespaceId := some "ns_missing" }

/-- A second draft of one name fails after it has overwritten the file of the first. -/
theorem failed_draft_overwrites :
    ¬ ∀ (p : Platform) (host : DraftHost) (operation : DraftOperation) (faults : Faults),
      AtomicOnError p host (operation.run p host faults) := by
  intro hclaim
  have hrun : (annsHost editPlatform).map (fun host =>
      (host.files (misfiledNotes.path editPlatform "CAPABILITY.md"),
        (createDraftOn editPlatform host misfiledNotes {}).2,
        (createDraftOn editPlatform host misfiledNotes {}).1.files
          (misfiledNotes.path editPlatform "CAPABILITY.md"))) =
      .ok (some "# Notes", .error (.value "Target namespace not found."),
        some "# Notes, revised") := by decide +kernel
  obtain ⟨host, -, hseen⟩ := map_eq_ok hrun
  obtain ⟨hbefore, hseen⟩ := Prod.mk.inj hseen
  obtain ⟨hraises, hafter⟩ := Prod.mk.inj hseen
  have hatomic : AtomicOnError editPlatform host (createDraftOn editPlatform host misfiledNotes {}) :=
    hclaim editPlatform host (.create misfiledNotes) {}
  have hkept := hatomic.files (by rw [hraises]; nofun) _ _ hbefore
  rw [hafter] at hkept
  exact absurd hkept (by decide)

end Capmesh
