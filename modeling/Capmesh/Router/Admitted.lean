import Capmesh.Index.InstallGuards
import Capmesh.Index.Provenance
import Capmesh.Router.Loading
import Capmesh.Router.SystemCalls

/-!
# Loading what was admitted

The guards of an ingest look at the entrypoint, discovery hashes the file it reads, and `cap.load`
compares the two. They are one file for every kind of capability but `cap.json`, whose entrypoint is
a field of the manifest. `admitted_loads_iff` follows a file from discovery through an ingest and
the calls of CapGuard to the load.
-/

namespace Capmesh

open Python Relational Execution

/-- Two capabilities with one body: the file that is loaded and the hash it is held against. -/
structure SameBody (a b : Capability) : Prop where
  packagePath : a.packagePath = b.packagePath
  entrypoint : a.entrypoint = b.entrypoint
  sourcePath : a.sourcePath = b.sourcePath
  sourceKind : a.sourceKind = b.sourceKind
  contentHash : a.contentHash = b.contentHash

/-- The file system as the guards see it. -/
def packageFiles (p : Platform) (fs : FileSystem) : PackageFiles where
  normalized path := pathParts (p.normalizePath path)
  normalizedBody packagePath entrypoint :=
    pathParts (p.normalizePath (joinPath packagePath entrypoint))
  isFile path := fs (pathText path) ≠ .missing

/-- What an ingest admits of the files under its roots, as long as no file changes. -/
structure AdmittedFrom (p : Platform) (host : DiscoveryHost) (fs : FileSystem)
    (files : List SourceText) (roots : List String) (db : Database) (batch : List Capability) :
    Prop where
  unchanged : ∀ file ∈ files, fs (p.normalizePath (pathText file.path)) = .regular file.bytes
  admitted : ∃ merged,
    mergeDuplicateCapabilities p (files.filterMap (discoverFile p host)) = .ok merged ∧
    enforceInstallGuards p (packageFiles p fs) db.capabilities.rows roots merged = .ok batch

/-- The file that a load of the entrypoint reads. -/
def Capability.bodyPath (p : Platform) (cap : Capability) : String :=
  p.normalizePath (joinPath (p.normalizePath cap.packagePath) cap.entrypoint)

/-- A request for the entrypoint of a capability that may be loaded. -/
structure AsksEntrypoint (p : Platform) (db : Database) (request : ToolRequest)
    (cap : Capability) : Prop where
  scope : request.principal.hasScope "cap:load" = true
  detail : request.detail = "entrypoint"
  fileRef : request.fileRef = none
  resolved : request.resolveCapability db = some cap
  allowed : (request.canLoad p db "load" cap).allowed = true

/-- A load returns the bytes of the entrypoint, up to the bound on its size. -/
def EntrypointServed (p : Platform) (fs : FileSystem) (db : Database) (request : ToolRequest)
    (cap : Capability) : Prop :=
  ∃ bytes, fs (cap.bodyPath p) = .regular bytes ∧ capLoad p fs db request =
    .ok (.loaded cap (cap.bodyPath p) (capturedText p "entrypoint" bytes))

/-- The entrypoint lies in the package and has the digest of the file that was discovered. -/
structure BodyIsSource (p : Platform) (fs : FileSystem) (cap : Capability) (file : SourceText) :
    Prop where
  inside : pathParts (p.normalizePath cap.packagePath) <+: pathParts (cap.bodyPath p)
  same : ∃ bytes, fs (cap.bodyPath p) = .regular bytes ∧ p.sha256 bytes = p.sha256 file.bytes

/-- The catalog after an ingest and calls of CapGuard. -/
def releasedCatalog (p : Platform) (crypto : Crypto) (before : Database) (input : IngestInput p)
    (keys : KeyStore) (calls : List GuardCall) : Database :=
  (run (guardStep p crypto) ⟨(ingest p before input).1, keys⟩ calls).db

/-- A request for the entrypoint of an admitted capability: its row after a successful ingest, any
calls of CapGuard, and no change of a file. -/
structure ReleasedLoad (p : Platform) (crypto : Crypto) (host : DiscoveryHost) (fs : FileSystem)
    (files : List SourceText) (roots : List String) (before : Database) (input : IngestInput p)
    (keys : KeyStore) (calls : List GuardCall) (cap : Capability) (row now : CapabilityRow)
    (request : ToolRequest) : Prop where
  normalized : before.Normalized
  admitted : AdmittedFrom p host fs files roots before input.batch.capabilities
  ingested : ∃ changes, (ingest p before input).2 = .ok changes
  written : ∃ planned, plan p input before.capabilities = .ok planned ∧
    WrittenFor p input before (ingest p before input).1 planned cap row
  kept : now ∈ (releasedCatalog p crypto before input keys calls).capabilities
  sameRow : now.id = row.id
  asks : AsksEntrypoint p (releasedCatalog p crypto before input keys calls) request now.cap

section

variable {p : Platform} {crypto : Crypto} {host : DiscoveryHost} {fs : FileSystem}
variable {files : List SourceText} {file : SourceText} {cap e : Capability}

namespace SameBody

theorem refl (cap : Capability) : SameBody cap cap := ⟨rfl, rfl, rfl, rfl, rfl⟩

theorem trans {a b c : Capability} (hab : SameBody a b) (hbc : SameBody b c) : SameBody a c :=
  ⟨hab.packagePath.trans hbc.packagePath, hab.entrypoint.trans hbc.entrypoint,
    hab.sourcePath.trans hbc.sourcePath, hab.sourceKind.trans hbc.sourceKind,
    hab.contentHash.trans hbc.contentHash⟩

theorem effective (p : Platform) (index : PlacementIndex) (catalog : Table CapabilityRow)
    (cap : Capability) : SameBody (effective p index catalog cap) cap := by
  unfold Capmesh.effective
  rw [apply_vault_placement_eq]
  cases placedVault p index catalog cap with
  | some vault =>
      show SameBody (placeInVault p cap vault) cap
      unfold placeInVault
      dsimp only
      split <;> exact ⟨rfl, rfl, rfl, rfl, rfl⟩
  | none =>
      show SameBody (applyDefaultUserNamespace p cap) cap
      unfold applyDefaultUserNamespace
      split
      · exact .refl cap
      · dsimp only
        split <;> exact ⟨rfl, rfl, rfl, rfl, rfl⟩

end SameBody

theorem Landing.sameBody {before after : Database} {row : CapabilityRow}
    (h : Landing p before after e row) : SameBody row.cap e := by
  have hcolumns := h.indexedColumns
  have hcarry : SameBody (carryOver (previousRow before e) e) e := by
    unfold carryOver
    split
    · split <;> exact ⟨rfl, rfl, rfl, rfl, rfl⟩
    · exact .refl e
  exact .trans ⟨hcolumns.packagePath, hcolumns.entrypoint, hcolumns.sourcePath, hcolumns.sourceKind,
    hcolumns.contentHash⟩ hcarry

/-- The guards admit capabilities of the batch they are given. -/
theorem guard_batch_subset {files : PackageFiles} {existing admitted batch kept : List Capability}
    {roots : List String} (h : guardBatch p files existing roots admitted batch = .ok kept) :
    ∀ cap ∈ kept, cap ∈ admitted ∨ cap ∈ batch := by
  induction batch generalizing admitted with
  | nil =>
      cases h
      exact fun cap hcap => .inl hcap
  | cons first rest ih =>
      unfold guardBatch at h
      split at h
      · cases h
      · cases h
      · split at h
        · exact fun cap hcap => (ih h cap hcap).imp_right (List.mem_cons_of_mem first)
        · cases h
        · intro cap hcap
          rcases ih h cap hcap with hmem | hmem
          · rcases List.mem_append.mp hmem with hmem | hmem
            · exact .inl hmem
            · exact .inr (List.mem_singleton.mp hmem ▸ List.mem_cons_self)
          · exact .inr (List.mem_cons_of_mem first hmem)

theorem AdmittedFrom.origin {roots : List String} {db : Database} {batch : List Capability}
    (h : AdmittedFrom p host fs files roots db batch) (hcap : cap ∈ batch) :
    ∃ file ∈ files, ∃ found, discoverFile p host file = some found ∧ SameBody cap found := by
  obtain ⟨merged, hmerged, hguard⟩ := h.admitted
  rcases guard_batch_subset hguard cap hcap with hnone | hmem
  · cases hnone
  · obtain ⟨preferred, hpreferred, -, ambiguous, rfl⟩ := merge_duplicates_ok hmerged hmem
    obtain ⟨file, hfile, hfound⟩ := List.mem_filterMap.mp hpreferred
    exact ⟨file, hfile, preferred, hfound, rfl, rfl, rfl, rfl, rfl⟩

theorem planned_origin {input : IngestInput p} {roots : List String} {db : Database}
    {planned : List Capability}
    (hadmitted : AdmittedFrom p host fs files roots db input.batch.capabilities)
    (hplan : plan p input db.capabilities = .ok planned) (he : e ∈ planned) :
    ∃ file ∈ files, ∃ found, discoverFile p host file = some found ∧ SameBody e found := by
  obtain ⟨winner, hwinner, metadata, rfl⟩ := plan_origin hplan he
  obtain ⟨file, hfile, found, hfound, hsame⟩ := hadmitted.origin hwinner
  have hplaced := (SameBody.effective p input.placement db.capabilities winner).trans hsame
  exact ⟨file, hfile, found, hfound, hplaced.packagePath, hplaced.entrypoint, hplaced.sourcePath,
    hplaced.sourceKind, hplaced.contentHash⟩

theorem guard_step_same_body (crypto : Crypto) (state : Host) (call : GuardCall)
    {row : CapabilityRow} (hrow : row ∈ (guardStep p crypto state call).db.capabilities) :
    ∃ old ∈ state.db.capabilities, old.id = row.id ∧ SameBody row.cap old.cap := by
  obtain ⟨decided, hmem, hdecided⟩ := guard_step_capabilities p crypto state call
  obtain ⟨old, hold, rfl⟩ := (hmem row).mp hrow
  rcases hdecided old with heq | ⟨lifecycle, approvalState, -, heq⟩
  · exact ⟨old, hold, by rw [heq], by rw [heq]; exact .refl old.cap⟩
  · exact ⟨old, hold, by rw [heq], by rw [heq]; exact ⟨rfl, rfl, rfl, rfl, rfl⟩⟩

theorem guard_run_same_body (crypto : Crypto) (state : Host) (calls : List GuardCall)
    {row : CapabilityRow}
    (hrow : row ∈ (run (guardStep p crypto) state calls).db.capabilities) :
    ∃ old ∈ state.db.capabilities, old.id = row.id ∧ SameBody row.cap old.cap := by
  revert row
  refine run_invariant (I := fun now : Host => ∀ {row : CapabilityRow},
    row ∈ now.db.capabilities → ∃ old ∈ state.db.capabilities, old.id = row.id ∧
      SameBody row.cap old.cap) ?_ calls fun {row} hrow => ⟨row, hrow, rfl, .refl row.cap⟩
  intro now call hnow row hrow
  obtain ⟨middle, hmiddle, hid, hsame⟩ := guard_step_same_body crypto now call hrow
  obtain ⟨old, hold, holdId, hbody⟩ := hnow hmiddle
  exact ⟨old, hold, holdId.trans hid, hsame.trans hbody⟩

/-- A load of the entrypoint is held against the content hash of the row. -/
theorem AsksEntrypoint.expected {db : Database} {request : ToolRequest}
    (h : AsksEntrypoint p db request cap) (target : String) :
    request.contentHashForTarget p cap target = some cap.contentHash := by
  simp [ToolRequest.contentHashForTarget, ToolRequest.namesOwn, h.fileRef]

theorem entrypoint_served_iff {db : Database} {request : ToolRequest} {found : Capability}
    (hhex : ∀ bytes, isAsciiText (fileDigest p bytes) = true)
    (hfound : discoverFile p host file = some found) (hsame : SameBody cap found)
    (hasks : AsksEntrypoint p db request cap) :
    EntrypointServed p fs db request cap ↔ BodyIsSource p fs cap file := by
  have hhash : cap.contentHash = fileDigest p file.bytes :=
    hsame.contentHash.trans (discovered_labels hfound).2.2.1
  have hexpected := hasks.expected (cap.bodyPath p)
  have hname : request.fileName cap = cap.entrypoint := by simp [ToolRequest.fileName, hasks.fileRef]
  constructor
  · rintro ⟨bytes, hbytes, hload⟩
    obtain ⟨other, hread, hdigest, -⟩ := cap_load_loaded_iff.mp hload
    cases hbytes.symm.trans hread.regular
    rw [hexpected, hhash] at hdigest
    refine ⟨(safe_file_target_inside hread.inside).1, bytes, hbytes, ?_⟩
    exact (String.append_right_inj "sha256:").mp (Option.some.inj hdigest).symm
  · rintro ⟨hinside, bytes, hbytes, hdigest⟩
    have hsafe : safeFileTarget p fs cap.packagePath (request.fileName cap) =
        some (cap.bodyPath p) := by
      rw [hname]
      unfold Capability.bodyPath at hinside hbytes ⊢
      simp [safeFileTarget, List.isPrefixOf_iff_prefix.mpr hinside, hbytes]
    have hkind : cap.sourceKind ≠ "system_capability" := by
      have hordinary := (discovered_as_discovered hfound).ordinary
      rw [hsame.sourceKind]
      intro hsystem
      simp [Capability.isSystemOrDraft, hsystem] at hordinary
    refine ⟨bytes, hbytes, ?_⟩
    rw [← hasks.detail]
    exact cap_load_loaded_iff.mpr ⟨bytes, ⟨hasks.scope, hasks.resolved, hasks.allowed,
      .inl hasks.detail, hkind, hsafe, hbytes, hhex bytes⟩,
      by rw [hexpected, hhash, fileDigest, fileDigest, hdigest], rfl⟩

/-- **Loading what was admitted.** The row that was written for an admitted capability has the body
of a discovered file. It is served to a principal who may load it exactly when its entrypoint lies in
the package and has the digest of that file. An entrypoint in the package that is the discovered file
has it. -/
theorem admitted_loads_iff {before : Database} {input : IngestInput p} {roots : List String}
    {keys : KeyStore} {calls : List GuardCall} {row now : CapabilityRow} {request : ToolRequest}
    (hhex : ∀ bytes, isAsciiText (fileDigest p bytes) = true)
    (h : ReleasedLoad p crypto host fs files roots before input keys calls cap row now request) :
    ∃ file ∈ files, (∃ found, discoverFile p host file = some found ∧ SameBody now.cap found) ∧
      (EntrypointServed p fs (releasedCatalog p crypto before input keys calls) request now.cap ↔
        BodyIsSource p fs now.cap file) ∧
      (now.cap.bodyPath p = now.cap.sourcePath →
        pathParts (p.normalizePath now.cap.packagePath) <+: pathParts (now.cap.bodyPath p) →
        BodyIsSource p fs now.cap file) := by
  obtain ⟨changes, hchanges⟩ := h.ingested
  obtain ⟨planned, hplan, hrow, e, he, -, hkey⟩ := h.written
  obtain ⟨earlier, later, rfl⟩ := List.append_of_mem he
  obtain ⟨start, after, landed, hlanding, -, hkeyed, -⟩ :=
    ingest_landed h.normalized (Prod.ext rfl hchanges) hplan
  obtain ⟨rfl, -⟩ := hkeyed row hrow hkey
  obtain ⟨file, hfile, found, hfound, horigin⟩ := planned_origin h.admitted hplan he
  obtain ⟨old, hold, holdId, hbody⟩ := guard_run_same_body crypto _ calls h.kept
  obtain rfl : old = row := Database.eq_of_id hold hrow (holdId.trans h.sameRow)
  have hsame : SameBody now.cap found := hbody.trans (hlanding.sameBody.trans horigin)
  refine ⟨file, hfile, ⟨found, hfound, hsame⟩, entrypoint_served_iff hhex hfound hsame h.asks,
    fun hown hinside => ⟨hinside, file.bytes, ?_, rfl⟩⟩
  rw [hown, hsame.sourcePath, (discovered_labels hfound).2.2.2.1]
  exact h.admitted.unchanged file hfile

end

/-- The text of a `cap.json` that names its entrypoint. -/
def launcherText (entrypoint : String) : String :=
  "\x7b\"name\": \"tool\", \"entrypoint\": \"" ++ entrypoint ++ "\"\x7d"

def launcherDigests : List (String × String) :=
  [(launcherText "run.sh", "a5f2ef2fbe57024fc3cc98aaef7c86b3a385bd29a7a182acbe160f1c42df9e1f"),
    (launcherText "cap.json", "ba46bc4600dab00461294e318b6fbba2baf8822481b1a9e1d6e91c0f3e3644fa"),
    (scriptText, scriptDigest)] ++ sampleDigests

/-- A deployment that knows the digests of the manifests and of the script. -/
def launcherPlatform : Platform := .ascii fun content =>
  ((launcherDigests.find? fun entry => entry.1.toUTF8.data.toList = content).map (·.2)).getD ""

/-- A host that knows the manifest. -/
def launcherHost (entrypoint : String) : DiscoveryHost where
  loads text :=
    if text = launcherText entrypoint then
      .value (.obj [("name", .str "tool"), ("entrypoint", .str entrypoint)])
    else .decodeError
  titled text := text
  isFile _ := false

/-- The manifest, in the package `notes`. -/
def launcherFile (entrypoint : String) : SourceText :=
  ⟨["srv", "plugins", "notes", "cap.json"], ["srv", "plugins"],
    (launcherText entrypoint).toUTF8.data.toList⟩

/-- The package of the manifest and the script. -/
def launcherFiles (entrypoint : String) : FileSystem := fun path =>
  if path = "/srv/plugins/notes/cap.json" then .regular (launcherFile entrypoint).bytes
  else if path = "/srv/plugins/notes/run.sh" then .regular scriptText.toUTF8.data.toList
  else .missing

/-- What the guards admit of the manifest. -/
def launcher (entrypoint : String) : Capability :=
  let digest := fileDigest launcherPlatform (launcherFile entrypoint).bytes
  { uri := "cap://asg.local/workflow/notes.tool@0.1.0", capabilityType := .workflow
    name := "tool", version := "0.1.0", title := "tool", description := ""
    packagePath := "/srv/plugins/notes", entrypoint
    sourcePath := "/srv/plugins/notes/cap.json", sourceKind := "cap_manifest"
    sourceSystem := "local", canonicalKey := "workflow:notes:tool:0.1.0"
    contentHash := digest, plugin := some "notes"
    metadata := [("name", .str "tool"), ("entrypoint", .str entrypoint),
      ("sourcePaths", .arr [.str "/srv/plugins/notes/cap.json"]),
      ("sourceProvenance", .arr [.obj [("sourcePath", .str "/srv/plugins/notes/cap.json"),
        ("sourceKind", .str "cap_manifest"), ("sourceSystem", .str "local"),
        ("contentHash", .str digest)]])] }

/-- The ingest of the manifest. -/
def launcherInput (entrypoint : String) : IngestInput launcherPlatform :=
  .bare (.single (launcher entrypoint)
    ⟨rfl, fun h => by simp [launcher, fileDigest] at h, fun h => by simp [launcher] at h⟩
    fun text => by simp [launcher, Dict.get?])

/-- The scan of what the ingest held, and the release. -/
def launcherCalls (entrypoint : String) : List GuardCall :=
  [.scan "qtn_0" "asg" { cleanScan with fileHash := some (launcher entrypoint).contentHash }
      "capmesh-malware" none true ⟨"2026-01-01T00:00:00Z", "att_1", ""⟩,
    .release "qtn_0" { tenantId := "asg", actor := "op" } ⟨"2026-01-01T00:00:00Z", "att_2", ""⟩]

/-- The catalog after the release. -/
def launcherCatalog (entrypoint : String) : Database :=
  releasedCatalog launcherPlatform .transparent .empty (launcherInput entrypoint)
    ⟨true, .key "k", true⟩ (launcherCalls entrypoint)

/-- The owner loads the entrypoint. -/
def launcherRequest : ToolRequest where
  params := [("uri", .str ("cap://user/asg/idn_8a771be063fbef53149d218b/private/personal/workflow/" ++
    "notes.tool@0.1.0"))]
  principal := { subject := "capmesh", tenantId := "asg", scopes := ["cap:load"] }
  directory := ⟨[], [], [], [], []⟩
  orgCache _ _ := none
  now := "2026-01-01 00:00:00"

/-- Both manifests are admitted, ingested, and released. -/
theorem launcher_runs : ∀ entrypoint ∈ ["run.sh", "cap.json"],
    (mergeDuplicateCapabilities launcherPlatform
      ([launcherFile entrypoint].filterMap
        (discoverFile launcherPlatform (launcherHost entrypoint))) >>=
      enforceInstallGuards launcherPlatform (packageFiles launcherPlatform (launcherFiles entrypoint))
        [] ["/srv/plugins"]) = .ok [launcher entrypoint] ∧
    (ingest launcherPlatform .empty (launcherInput entrypoint)).2.toOption.isSome ∧
    plan launcherPlatform (launcherInput entrypoint) .empty =
      .ok [effective launcherPlatform [] .empty (launcher entrypoint)] ∧
    (∃ row ∈ (ingest launcherPlatform .empty (launcherInput entrypoint)).1.capabilities.rows,
      row.cap.canonicalKey =
        (effective launcherPlatform [] .empty (launcher entrypoint)).canonicalKey ∧
      ∃ now ∈ (launcherCatalog entrypoint).capabilities.rows, now.id = row.id ∧
        now.cap.bodyPath launcherPlatform = "/srv/plugins/notes/" ++ entrypoint ∧
        now.cap.packagePath = "/srv/plugins/notes" ∧
        now.cap.sourcePath = "/srv/plugins/notes/cap.json" ∧
        now.cap.contentHash = (launcher entrypoint).contentHash ∧
        launcherRequest.principal.hasScope "cap:load" = true ∧
        launcherRequest.detail = "entrypoint" ∧ launcherRequest.fileRef = none ∧
        launcherRequest.resolveCapability (launcherCatalog entrypoint) = some now.cap ∧
        (launcherRequest.canLoad launcherPlatform (launcherCatalog entrypoint) "load"
          now.cap).allowed = true) := by
  decide +kernel

/-- A manifest that names the script, and one that names itself, are released with their body. -/
theorem launcher_released {entrypoint : String} (h : entrypoint ∈ ["run.sh", "cap.json"]) :
    ∃ row now, ReleasedLoad launcherPlatform .transparent (launcherHost entrypoint)
        (launcherFiles entrypoint) [launcherFile entrypoint] ["/srv/plugins"] .empty
        (launcherInput entrypoint) ⟨true, .key "k", true⟩ (launcherCalls entrypoint)
        (launcher entrypoint) row now launcherRequest ∧
      now.cap.bodyPath launcherPlatform = "/srv/plugins/notes/" ++ entrypoint ∧
      now.cap.packagePath = "/srv/plugins/notes" ∧
      now.cap.sourcePath = "/srv/plugins/notes/cap.json" ∧
      now.cap.contentHash = (launcher entrypoint).contentHash := by
  obtain ⟨hadmitted, hingested, hplan, row, hrow, hkey, now, hnow, hid, hbody, hpackage, hsource,
    hhash, hscope, hdetail, hfileRef, hresolved, hallowed⟩ := launcher_runs entrypoint h
  obtain ⟨changes, hchanges⟩ := Option.isSome_iff_exists.mp hingested
  refine ⟨row, now, ?_, hbody, hpackage, hsource, hhash⟩
  constructor
  · exact fun row hrow => absurd hrow List.not_mem_nil
  · refine ⟨fun file hfile => ?_, bind_eq_ok hadmitted⟩
    rw [List.mem_singleton.mp hfile]
    rfl
  · exact ⟨changes, to_option_eq_some hchanges⟩
  · exact ⟨_, hplan, hrow, _, List.mem_singleton_self _, rfl, hkey⟩
  · exact hnow
  · exact hid
  · exact ⟨hscope, hdetail, hfileRef, hresolved, hallowed⟩

theorem launcher_platform_ascii (bytes : List UInt8) :
    isAsciiText (fileDigest launcherPlatform bytes) = true := by
  show isAsciiText ("sha256:" ++ ((launcherDigests.find? fun entry =>
    entry.1.toUTF8.data.toList = bytes).map (·.2)).getD "") = true
  cases hfind : launcherDigests.find? fun entry => entry.1.toUTF8.data.toList = bytes with
  | none => decide
  | some entry =>
      have hall : ∀ entry ∈ launcherDigests, isAsciiText ("sha256:" ++ entry.2) = true := by
        decide +kernel
      exact hall entry (List.mem_of_find?_eq_some hfind)

/-- A manifest that names itself is served. -/
theorem admitted_loads_itself : ∃ row now, ReleasedLoad launcherPlatform .transparent
      (launcherHost "cap.json") (launcherFiles "cap.json") [launcherFile "cap.json"]
      ["/srv/plugins"] .empty (launcherInput "cap.json") ⟨true, .key "k", true⟩
      (launcherCalls "cap.json") (launcher "cap.json") row now launcherRequest ∧
    EntrypointServed launcherPlatform (launcherFiles "cap.json") (launcherCatalog "cap.json")
      launcherRequest now.cap := by
  obtain ⟨row, now, hload, hbody, hpackage, hsource, -⟩ :=
    launcher_released (show "cap.json" ∈ ["run.sh", "cap.json"] by decide)
  obtain ⟨file, -, -, hserved, hown⟩ := admitted_loads_iff launcher_platform_ascii hload
  refine ⟨row, now, hload, hserved.mpr (hown ?_ ?_)⟩
  · rw [hbody, hsource]
    decide
  · rw [hbody, hpackage]
    decide +kernel

/-- A manifest that names the script is admitted, and its body is never served. -/
theorem admitted_loads_counterexample :
    ¬ ∀ (p : Platform) (crypto : Crypto) (host : DiscoveryHost) (fs : FileSystem)
      (files : List SourceText) (roots : List String) (before : Database) (input : IngestInput p)
      (keys : KeyStore) (calls : List GuardCall) (cap : Capability) (row now : CapabilityRow)
      (request : ToolRequest), (∀ bytes, isAsciiText (fileDigest p bytes) = true) →
      ReleasedLoad p crypto host fs files roots before input keys calls cap row now request →
      EntrypointServed p fs (releasedCatalog p crypto before input keys calls) request now.cap := by
  intro hclaim
  obtain ⟨row, now, hload, hbody, -, -, hhash⟩ :=
    launcher_released (show "run.sh" ∈ ["run.sh", "cap.json"] by decide)
  obtain ⟨bytes, hbytes, hserved⟩ :=
    hclaim _ _ _ _ _ _ _ _ _ _ _ _ _ _ launcher_platform_ascii hload
  obtain ⟨other, hread, hdigest, -⟩ := cap_load_loaded_iff.mp hserved
  cases hbytes.symm.trans hread.regular
  have hscript : launcherFiles "run.sh" (now.cap.bodyPath launcherPlatform) =
      .regular scriptText.toUTF8.data.toList := by
    rw [hbody]
    rfl
  cases hbytes.symm.trans hscript
  rw [hload.asks.expected, hhash] at hdigest
  revert hdigest
  decide +kernel

end Capmesh
