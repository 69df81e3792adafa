import Capmesh.Discovery.Packages
import Capmesh.Router.Requests

/-!
# Loading the body of a capability

`cap.load` returns a file of the package when the digest of its bytes is the one the row indexes.
For the entrypoint and the source file that is the content hash of the row; for any other file it is
an entry of `fileHashes` in the metadata, which comes from the manifest and which no scan looks at.
`cap_load_loaded_iff` says what a load has passed, and `loads_scanned_iff` when the bytes it returns
are ones that CapGuard released.
-/

namespace Capmesh

open Python Relational

/-- `root / ref`: an absolute reference replaces the root. -/
def joinPath (root ref : String) : String :=
  if startsWith ref "/" then ref else root ++ "/" ++ ref

/-- The components of a path. -/
def pathParts (path : String) : List String :=
  ((Python.splitOn '/' path.toList).map String.ofList).filter (· ≠ "")

/-- `safe_file_target`. -/
def safeFileTarget (p : Platform) (fs : FileSystem) (packagePath ref : String) : Option String :=
  let root := p.normalizePath packagePath
  let target := p.normalizePath (joinPath root ref)
  if !(pathParts root).isPrefixOf (pathParts target) then none
  else match fs target with
    | .missing => none
    | _ => some target

/-- The digest of a file. -/
def fileDigest (p : Platform) (bytes : List UInt8) : String := "sha256:" ++ p.sha256 bytes

/-- The text that `hash_and_read_content` captures. -/
def capturedText (p : Platform) (detail : String) (bytes : List UInt8) : String :=
  let limit := if detail = "full" then 400000 else 80000
  let text := p.decodeUtf8 (bytes.take limit)
  if limit < bytes.length then
    text ++ "\n\n[TRUNCATED: request detail=full for a larger bounded view.]"
  else text

/-- `hash_and_read_content`. -/
def hashAndReadContent (p : Platform) (fs : FileSystem) (path detail : String) :
    Except Failure (String × String) :=
  match fs path with
  | .missing => .error (.os "No such file or directory")
  | .unreadable _ => .error (.permission "Permission denied")
  | .regular bytes => .ok (fileDigest p bytes, capturedText p detail bytes)

/-- Whether a text has ASCII characters alone. -/
def isAsciiText (text : String) : Bool := text.toList.all (·.toNat < 128)

/-- `hmac_hash_equal`: `compare_digest` takes no text outside ASCII. -/
def hmacHashEqual (actual expected : String) : Except Failure Bool :=
  if isAsciiText actual && isAsciiText expected then .ok (actual = expected)
  else .error (.runtime "comparing strings with non-ASCII characters is not supported")

/-- The digest that the manifest of a capability lists for a file. -/
def Capability.listedDigest (cap : Capability) (ref : String) : Option String :=
  match Dict.get? cap.metadata "fileHashes" with
  | some (.obj hashes) =>
      match Dict.get? hashes ref with
      | some (.str digest) => if startsWith digest "sha256:" then some digest else none
      | _ => none
  | _ => none

namespace ToolRequest

variable (p : Platform) (fs : FileSystem) (db : Database) (request : ToolRequest)

/-- `str(params.get("detail") or "entrypoint")`. -/
def detail : String := fieldOr request.params "detail" "entrypoint"

/-- The reference of a request to a file. -/
def fileRef : Option String :=
  if Dict.truthy request.params "fileRef" then some (fieldOr request.params "fileRef" "") else none

/-- The file a request names. -/
def fileName (cap : Capability) : String := request.fileRef.getD cap.entrypoint

/-- Whether a load is of the content that the row itself indexes. -/
def namesOwn (cap : Capability) (target : String) : Bool :=
  target = p.normalizePath cap.sourcePath || request.fileRef.isNone ||
    request.fileRef = some cap.entrypoint

/-- `content_hash_for_target`. -/
def contentHashForTarget (cap : Capability) (target : String) : Option String :=
  if request.namesOwn p cap target then some cap.contentHash
  else request.fileRef.bind cap.listedDigest

end ToolRequest

/-- How `cap.load` ends. -/
inductive LoadOutcome where
  | refused (error : ToolError)
  /-- The record of the capability alone. -/
  | described (cap : Capability)
  /-- The record with a file of the package and its content. -/
  | loaded (cap : Capability) (file content : String)

/-- `cap.load`, once the capability is resolved and allowed: the body. -/
def loadBody (p : Platform) (fs : FileSystem) (request : ToolRequest) (cap : Capability) :
    Except Failure LoadOutcome :=
  if cap.sourceKind = "system_capability" then
    .ok (.refused ⟨"SYSTEM_BODY_NOT_LOADABLE", "System capabilities expose metadata through " ++
      "cap.load and behavior through cap.call; server source bodies are not loadable."⟩)
  else match safeFileTarget p fs cap.packagePath (request.fileName cap) with
    | none => .ok (.refused { message := "Requested file is outside the capability package." })
    | some target =>
        match request.contentHashForTarget p cap target with
        | none => .ok (.refused ⟨"UNVERIFIED_FILE_REFERENCE",
            "Referenced file has no indexed digest and cannot be loaded safely."⟩)
        | some expected => do
            let (actual, content) ← hashAndReadContent p fs target request.detail
            let same ← hmacHashEqual actual expected
            if same then .ok (.loaded cap target content)
            else .ok (.refused ⟨"CONTENT_HASH_MISMATCH", "Capability content no longer matches " ++
              "its indexed digest. Re-ingest from an authoritative source before loading."⟩)

/-- `cap.load`. -/
def capLoad (p : Platform) (fs : FileSystem) (db : Database) (request : ToolRequest) :
    Except Failure LoadOutcome :=
  if !request.principal.hasScope "cap:load" then .ok (.refused (missingScope "cap:load"))
  else match request.resolveCapability db with
    | none => .ok (.refused capabilityNotFound)
    | some cap =>
        let access := request.canLoad p db "load" cap
        if !access.allowed then .ok (.refused (accessForbidden access))
        else if request.detail = "entrypoint" || request.detail = "full" then
          loadBody p fs request cap
        else .ok (.described cap)

/-- A request that may read a file of the package of a capability, with these bytes. -/
structure MayRead (p : Platform) (fs : FileSystem) (db : Database) (request : ToolRequest)
    (cap : Capability) (target : String) (bytes : List UInt8) : Prop where
  scope : request.principal.hasScope "cap:load" = true
  resolved : request.resolveCapability db = some cap
  allowed : (request.canLoad p db "load" cap).allowed = true
  detail : request.detail = "entrypoint" ∨ request.detail = "full"
  body : cap.sourceKind ≠ "system_capability"
  inside : safeFileTarget p fs cap.packagePath (request.fileName cap) = some target
  regular : fs target = .regular bytes
  ascii : isAsciiText (fileDigest p bytes) = true

/-- A digest that CapGuard released for a capability, or that the catalog had for it before there
was CapGuard. -/
def ReleasedDigest (before : Table CapabilityRow) (db : Database) (cap : Capability)
    (hash : String) : Prop :=
  (∃ row ∈ db.quarantine, row.tenantId = orElse cap.tenantId "asg" ∧ row.capabilityUri = cap.uri ∧
    row.contentHash = hash ∧ row.status = .released) ∨
  ∃ row ∈ before, row.cap.uri = cap.uri ∧ row.cap.contentHash = hash

/-- A load returns scanned bytes: of a capability that is neither a system capability nor a draft,
whatever file the request names. -/
def LoadsScanned (p : Platform) (fs : FileSystem) (before : Table CapabilityRow) (db : Database)
    (request : ToolRequest) : Prop :=
  ∀ cap file content, capLoad p fs db request = .ok (.loaded cap file content) →
    cap.isSystemOrDraft = false →
    ∃ bytes, fs file = .regular bytes ∧ ReleasedDigest before db cap (fileDigest p bytes)

section

variable {p : Platform} {fs : FileSystem} {before : Table CapabilityRow} {db : Database}
variable {request : ToolRequest} {cap : Capability} {target content : String}

theorem safe_file_target_inside {packagePath ref : String}
    (h : safeFileTarget p fs packagePath ref = some target) :
    pathParts (p.normalizePath packagePath) <+: pathParts target ∧ fs target ≠ .missing := by
  unfold safeFileTarget at h
  dsimp only at h
  split at h
  · cases h
  · rename_i hinside
    have hprefix : (pathParts (p.normalizePath packagePath)).isPrefixOf
        (pathParts (p.normalizePath (joinPath (p.normalizePath packagePath) ref))) = true := by
      simpa using hinside
    split at h
    · cases h
    · rename_i hexists
      cases h
      exact ⟨List.isPrefixOf_iff_prefix.mp hprefix, hexists⟩

theorem hash_and_read_content_ok {path detail : String} {result : String × String}
    (h : hashAndReadContent p fs path detail = .ok result) : ∃ bytes,
      fs path = .regular bytes ∧ result = (fileDigest p bytes, capturedText p detail bytes) := by
  unfold hashAndReadContent at h
  cases hfile : fs path with
  | missing => simp [hfile] at h
  | unreadable size => simp [hfile] at h
  | regular bytes =>
      simp only [hfile, Except.ok.injEq] at h
      exact ⟨bytes, rfl, h.symm⟩

theorem hmac_hash_equal_true {actual expected : String}
    (h : hmacHashEqual actual expected = .ok true) :
    isAsciiText actual = true ∧ actual = expected := by
  unfold hmacHashEqual at h
  split at h
  · rename_i hascii
    exact ⟨(Bool.and_eq_true_iff.mp hascii).1, by simpa using Except.ok.inj h⟩
  · cases h

theorem load_body_loaded_iff {found : Capability} :
    loadBody p fs request found = .ok (.loaded cap target content) ↔
      found = cap ∧ cap.sourceKind ≠ "system_capability" ∧
        safeFileTarget p fs cap.packagePath (request.fileName cap) = some target ∧
        ∃ bytes, fs target = .regular bytes ∧ isAsciiText (fileDigest p bytes) = true ∧
          request.contentHashForTarget p cap target = some (fileDigest p bytes) ∧
          content = capturedText p request.detail bytes := by
  constructor
  · intro h
    unfold loadBody at h
    split at h
    · cases h
    rename_i hkind
    cases htarget : safeFileTarget p fs found.packagePath (request.fileName found) with
    | none => simp [htarget] at h
    | some file =>
        cases hexpected : request.contentHashForTarget p found file with
        | none => simp [htarget, hexpected] at h
        | some expected =>
            simp only [htarget, hexpected] at h
            obtain ⟨⟨actual, text⟩, hread, h⟩ := bind_eq_ok h
            obtain ⟨same, hsame, h⟩ := bind_eq_ok h
            cases same with
            | false => cases h
            | true =>
                cases h
                obtain ⟨bytes, hbytes, hpair⟩ := hash_and_read_content_ok hread
                cases hpair
                obtain ⟨hascii, heq⟩ := hmac_hash_equal_true hsame
                exact ⟨rfl, hkind, htarget, bytes, hbytes, hascii, hexpected.trans (congrArg some heq.symm),
                  rfl⟩
  · rintro ⟨rfl, hkind, htarget, bytes, hbytes, hascii, hexpected, rfl⟩
    simp [loadBody, hkind, htarget, hexpected, hashAndReadContent, hbytes, hmacHashEqual, hascii,
      bind, Except.bind]

theorem cap_load_loaded_iff : capLoad p fs db request = .ok (.loaded cap target content) ↔
    ∃ bytes, MayRead p fs db request cap target bytes ∧
      request.contentHashForTarget p cap target = some (fileDigest p bytes) ∧
      content = capturedText p request.detail bytes := by
  constructor
  · intro h
    unfold capLoad at h
    split at h
    · cases h
    rename_i hscope
    cases hresolved : request.resolveCapability db with
    | none => simp [hresolved] at h
    | some found =>
        simp only [hresolved] at h
        split at h
        · cases h
        rename_i hallowed
        split at h
        · rename_i hdetail
          obtain ⟨rfl, hkind, htarget, bytes, hbytes, hascii, hexpected, hcontent⟩ :=
            load_body_loaded_iff.mp h
          exact ⟨bytes, ⟨by simpa using hscope, hresolved, by simpa using hallowed,
            by simpa using hdetail, hkind, htarget, hbytes, hascii⟩, hexpected, hcontent⟩
        · cases h
  · intro ⟨bytes, hread, hexpected, hcontent⟩
    have hbody := load_body_loaded_iff.mpr
      ⟨rfl, hread.body, hread.inside, bytes, hread.regular, hread.ascii, hexpected, hcontent⟩
    simp [capLoad, hread.scope, hread.resolved, hread.allowed, hread.detail, hbody]

/-- **Loads of scanned bytes.** A request is answered with scanned bytes alone exactly when, of the
capability it may read, the content hash is vouched for if the request names the entrypoint or the
source file and that file has it, and the listed digest is if it names another file that has that. -/
theorem loads_scanned_iff : LoadsScanned p fs before db request ↔
    ∀ cap target bytes, MayRead p fs db request cap target bytes → cap.isSystemOrDraft = false →
      (request.namesOwn p cap target = true → fileDigest p bytes = cap.contentHash →
        ReleasedDigest before db cap cap.contentHash) ∧
      (request.namesOwn p cap target = false → ∀ ref digest, request.fileRef = some ref →
        cap.listedDigest ref = some digest → fileDigest p bytes = digest →
        ReleasedDigest before db cap digest) := by
  constructor
  · intro hscanned cap target bytes hread hkind
    have hvouched : request.contentHashForTarget p cap target = some (fileDigest p bytes) →
        ReleasedDigest before db cap (fileDigest p bytes) := by
      intro hexpected
      obtain ⟨other, hother, hvouched⟩ := hscanned cap target _
        (cap_load_loaded_iff.mpr ⟨bytes, hread, hexpected, rfl⟩) hkind
      rw [hread.regular] at hother
      cases hother
      exact hvouched
    constructor
    · intro hown hdigest
      rw [← hdigest]
      exact hvouched (by simp [ToolRequest.contentHashForTarget, hown, hdigest])
    · intro hother ref digest href hlisted hdigest
      rw [← hdigest]
      exact hvouched (by simp [ToolRequest.contentHashForTarget, hother, href, hlisted, hdigest])
  · intro hcondition cap target content hload hkind
    obtain ⟨bytes, hread, hexpected, -⟩ := cap_load_loaded_iff.mp hload
    obtain ⟨hown, hother⟩ := hcondition cap target bytes hread hkind
    refine ⟨bytes, hread.regular, ?_⟩
    unfold ToolRequest.contentHashForTarget at hexpected
    split at hexpected
    · rename_i hnames
      have hhash := Option.some.inj hexpected
      rw [← hhash]
      exact hown hnames hhash.symm
    · rename_i hnames
      obtain ⟨ref, href, hlisted⟩ := Option.bind_eq_some_iff.mp hexpected
      exact hother (by simpa using hnames) ref _ href hlisted rfl

end

/-- The text of a script, and of a manifest that lists its digest. -/
def scriptText : String := "#!/bin/sh\necho tool\n"

def scriptDigest : String :=
  "bf664cf84f00f6ed76164c8457fdeaf8e4dee547226e9ffcf8274e2d2246fed9"

def toolText : String :=
  "\x7b\"name\": \"tool\", \"fileHashes\": \x7b\"run.sh\": \"sha256:" ++ scriptDigest ++
    "\"\x7d\x7d"

def toolDigest : String :=
  "45780002285abead9c0b7405a6f87132b02084c079d4f4c5405d855d5a1b1036"

/-- A deployment that knows the digests of the two files. -/
def toolPlatform : Platform := .ascii fun content =>
  if content = scriptText.toUTF8.data.toList then scriptDigest
  else if content = toolText.toUTF8.data.toList then toolDigest
  else ""

/-- The package of the manifest and the script. -/
def toolFiles : FileSystem := fun path =>
  if path = "/caps/tool/cap.json" then .regular toolText.toUTF8.data.toList
  else if path = "/caps/tool/run.sh" then .regular scriptText.toUTF8.data.toList
  else .missing

/-- The capability of the manifest, as the default namespace leaves it. -/
def toolManifest : Capability where
  uri := "cap://user/asg/capmesh/private/workflow/tool@0.1.0"
  capabilityType := .workflow
  name := "tool"
  version := "0.1.0"
  title := "tool"
  description := ""
  packagePath := "/caps/tool"
  entrypoint := "cap.json"
  sourcePath := "/caps/tool/cap.json"
  sourceKind := "cap_manifest"
  sourceSystem := "authored"
  canonicalKey := "workflow:tool:tool:0-1-0"
  contentHash := "sha256:" ++ toolDigest
  visibility := .protected
  discoveryMode := .hidden
  owner := "capmesh"
  metadata := [("name", .str "tool"),
    ("fileHashes", .obj [("run.sh", .str ("sha256:" ++ scriptDigest))])]

/-- A catalog in which CapGuard scanned and released the manifest. -/
def toolCatalog : Database :=
  { Database.empty with
    capabilities := ⟨[⟨1, toolManifest⟩], List.pairwise_singleton _ _⟩
    quarantine := ⟨[⟨"qtn_1", "asg", toolManifest.uri, .workflow, "tool", "0.1.0",
      toolManifest.sourcePath, toolManifest.contentHash, .pendingScan, .released, none, []⟩],
      List.pairwise_singleton _ _⟩ }

/-- The owner of the manifest loads the script. -/
def scriptRequest : ToolRequest where
  params := [("uri", .str toolManifest.uri), ("fileRef", .str "run.sh")]
  principal := { subject := "capmesh", tenantId := "asg", scopes := ["cap:load"] }
  directory := ⟨[], [], [], [], []⟩
  orgCache _ _ := none
  now := "2026-01-01 00:00:00"

/-- The script is loaded on the word of the manifest: CapGuard scanned and released the manifest
alone. -/
theorem loads_scanned_counterexample :
    ¬ LoadsScanned toolPlatform toolFiles .empty toolCatalog scriptRequest := by
  intro hscanned
  have hread : MayRead toolPlatform toolFiles toolCatalog scriptRequest toolManifest
      "/caps/tool/run.sh" scriptText.toUTF8.data.toList := by
    constructor <;> decide +kernel
  have hlisted : scriptRequest.contentHashForTarget toolPlatform toolManifest "/caps/tool/run.sh" =
      some (fileDigest toolPlatform scriptText.toUTF8.data.toList) := by decide +kernel
  obtain ⟨bytes, hbytes, hvouched⟩ := hscanned _ _ _
    (cap_load_loaded_iff.mpr ⟨_, hread, hlisted, rfl⟩) (by decide)
  cases hread.regular.symm.trans hbytes
  rcases hvouched with ⟨row, hrow, -, -, hhash, -⟩ | ⟨row, hrow, -⟩
  · rw [List.mem_singleton.mp hrow] at hhash
    revert hhash
    decide +kernel
  · cases hrow

end Capmesh
