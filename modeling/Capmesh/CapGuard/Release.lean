import Capmesh.CapGuard.Attestation

/-!
# The authoritative release

`release_capability_from_quarantine`: look up the live capability, scan the file the
quarantine row points at, scan the metadata surface, sign the composed verdict, and
release. `release_capability_ok_iff` characterizes its success. Two results follow. The
lookup goes through `get_capability`, which hides the very row that is being released,
so the policy gate has no capability to look at; and the digest of the scanned bytes
is never compared with the row's content hash.
-/

namespace Capmesh

open Python Relational

/-- The arguments of `release_capability_from_quarantine`. -/
structure AuthoritativeRequest where
  tenantId : String
  actor : String
  reason : String := "scan_clean"
  capability : Option Capability := none
  policy : Option CapGuardPolicy := none
  persist : Bool := true

/-- What an authoritative release looks at: the capability it resolved, the composed scan result,
the injection result, and the text the injection scan was run over. -/
structure Evidence where
  capability : Option Capability
  scanResult : ScanResult
  injectionResult : Option Bool
  surface : String
  deriving DecidableEq

/-- A blocked injection scan is recorded as a critical finding of the scan result. -/
def composeScan (scan : ScanResult) (injectionResult : Option Bool) (hits : List String) :
    ScanResult :=
  if injectionResult = some false then
    { scan with
      passed := some false
      findings := scan.findings ++ [⟨"prompt_injection_blocked", "critical",
        "metadata injection blocked: " ++ toString hits.length ++ " hit(s)", none⟩]
      criticalCount := some (scan.criticalCount.getD 0 + 1) }
  else scan

/-- The capability a release decides on: the caller's, else the one the catalog serves. -/
def resolveCapability (db : Database) (capability : Option Capability) (uri : String) :
    Option Capability :=
  match capability with
  | some cap => some cap
  | none => getCapability db uri

/-- Gates 1 and 2: resolve the capability, scan the file, and scan the metadata surface. -/
def gatherEvidence (p : Platform) (db : Database) (fs : FileSystem)
    (capability : Option Capability) (record : QuarantineRow) : Except Failure Evidence := do
  let resolved := resolveCapability db capability record.capabilityUri
  let scan ← scanQuarantinedContent p fs record
  let (injectionResult, hits) := injectionVerdict p record resolved
  .ok ⟨resolved, composeScan scan injectionResult hits, injectionResult,
    injectionSurface record resolved⟩

/-- The call of `release_from_quarantine` that ends an authoritative release. -/
def AuthoritativeRequest.releaseRequest (request : AuthoritativeRequest) (tenant : String)
    (evidence : Evidence) : ReleaseRequest :=
  { tenantId := tenant, actor := request.actor, reason := request.reason
    capability := evidence.capability, scanResult := some evidence.scanResult
    injectionResult := evidence.injectionResult, policy := request.policy
    persist := request.persist }

/-- `release_capability_from_quarantine`, with the draws of its two attestations. -/
def releaseCapabilityFromQuarantine (p : Platform) (crypto : Crypto) (host : Host)
    (fs : FileSystem) (id : String) (request : AuthoritativeRequest) (scanDraw draw : Draw) :
    Except Failure (ReleaseOutcome × Evidence) := do
  let tenant := p.tenantOr request.tenantId
  let record ← activeQuarantine p host.db id tenant "release"
  let evidence ← gatherEvidence p host.db fs request.capability record
  let (_, host) ← issueScanAttestation p crypto host id tenant evidence.scanResult
    "capmesh-capguard-release" (some "1") request.persist scanDraw
  let outcome ← releaseFromQuarantine p crypto host id (request.releaseRequest tenant evidence)
    draw
  .ok (outcome, evidence)

/-- The gates of an authoritative release that do not depend on the row's content hash. -/
structure Admits (p : Platform) (host : Host) (request : AuthoritativeRequest)
    (evidence : Evidence) (scanDraw draw : Draw) : Prop where
  clean : verdictForScan p evidence.scanResult = .clean
  policy : ∃ verdict, releasePolicyGate p
    (request.releaseRequest (p.tenantOr request.tenantId) evidence) = .ok verdict
  key : ∃ loaded, host.keys.loadOrCreateSigningKey p request.persist scanDraw.key = .ok loaded
  scanId : ∀ row ∈ host.db.attestations, row.id ≠ scanDraw.id
  releaseId : ∀ row ∈ host.db.attestations, row.id ≠ draw.id
  distinct : scanDraw.id ≠ draw.id

section

variable {p : Platform} {crypto : Crypto} {host : Host} {fs : FileSystem} {id : String}
variable {request : AuthoritativeRequest} {scanDraw draw : Draw} {record : QuarantineRow}
variable {evidence : Evidence} {outcome : ReleaseOutcome}

theorem issued_scan_decides {scan : ScanResult} {scannerId tenant : String}
    {scannerVersion : Option String} {persist : Bool} {stored : AttestationRow} {result : Host}
    {found : QuarantineRow}
    (h : issueScanAttestation p crypto host record.id tenant scan scannerId scannerVersion persist
      scanDraw = .ok (stored, result))
    (hrecord : record ∈ host.db.quarantine) (htenant : record.tenantId = p.tenantOr tenant)
    (hid : found.id = record.id) (hsame : found.tenantId = record.tenantId)
    (hhash : found.contentHash = record.contentHash) :
    decidingScan crypto result.db found (result.keys.trustedSigningKeyId p crypto) =
      some stored ∧ stored.verdict = some (verdictForScan p scan).text := by
  obtain ⟨active, signed, table, hactive, hsign, hinsert, hrow, hdb⟩ := issue_scan_attestation_ok h
  obtain ⟨hmem, hactiveId, -, -⟩ := active_quarantine_ok hactive
  obtain rfl : active = record := Table.eq_of_conflict hmem hrecord (.inl hactiveId)
  have hpin : verifyAttestation crypto stored.signed
      (result.keys.trustedSigningKeyId p crypto) = true := by
    subst hrow
    exact verify_after_sign hsign
  obtain ⟨hstenant, hsid, hstype, hshash, hsverdict⟩ : stored.tenantId = found.tenantId ∧
      stored.quarantineId = found.id ∧ stored.attestationType = .scan ∧
      stored.contentHash = found.contentHash ∧
      stored.verdict = some (verdictForScan p scan).text := by
    subst hrow
    exact ⟨(hsame.trans htenant).symm, hid.symm, rfl, hhash.symm, rfl⟩
  have hrows : scanRows result.db found.tenantId found.id =
      stored :: scanRows host.db found.tenantId found.id := by
    have htable : result.db.attestations.rows = host.db.attestations.rows ++ [stored] := by
      rw [← Table.rows_insert? hinsert, hdb]
      split <;> rfl
    simp [scanRows, htable, hstenant, hsid, hstype]
  refine ⟨?_, hsverdict⟩
  rw [decidingScan, hrows, List.find?_cons_of_pos]
  simp [hshash, hpin]

/-- A held row keeps its identity when a scan is signed for it. -/
theorem issued_scan_row {scan : ScanResult} {scannerId tenant : String}
    {scannerVersion : Option String} {persist : Bool} {stored : AttestationRow} {result : Host}
    {found : QuarantineRow}
    (h : issueScanAttestation p crypto host id tenant scan scannerId scannerVersion persist
      scanDraw = .ok (stored, result)) (hfound : found ∈ result.db.quarantine) :
    ∃ old ∈ host.db.quarantine, found.id = old.id ∧ found.tenantId = old.tenantId ∧
      found.contentHash = old.contentHash := by
  obtain ⟨-, -, table, -, -, -, -, hdb⟩ := issue_scan_attestation_ok h
  rw [hdb] at hfound
  split at hfound
  · obtain ⟨old, hold, rfl⟩ := mem_set_reason.mp hfound
    refine ⟨old, hold, ?_⟩
    unfold QuarantineRow.setReason
    split <;> exact ⟨rfl, rfl, rfl⟩
  · exact ⟨found, hfound, rfl, rfl, rfl⟩

theorem release_capability_ok
    (h : releaseCapabilityFromQuarantine p crypto host fs id request scanDraw draw
      = .ok (outcome, evidence)) :
    ∃ record ∈ host.db.quarantine, record.id = id ∧
      record.tenantId = p.tenantOr request.tenantId ∧ record.status = .quarantined ∧
      gatherEvidence p host.db fs request.capability record = .ok evidence ∧
      Admits p host request evidence scanDraw draw ∧
      releasePolicyGate p (request.releaseRequest (p.tenantOr request.tenantId) evidence)
        = .ok outcome.policyVerdict := by
  unfold releaseCapabilityFromQuarantine at h
  obtain ⟨record, hactive, h⟩ := bind_eq_ok h
  obtain ⟨gathered, hevidence, h⟩ := bind_eq_ok h
  obtain ⟨⟨stored, scanned⟩, hscan, h⟩ := bind_eq_ok h
  obtain ⟨released, hrelease, h⟩ := bind_eq_ok h
  cases h
  obtain ⟨hrecord, rfl, htenant, hheld⟩ := active_quarantine_ok hactive
  rw [Platform.tenant_or_tenant_or] at htenant
  refine ⟨record, hrecord, rfl, htenant, hheld, hevidence, ?_⟩
  obtain ⟨_, signed, table, -, hsign, hinsert, hrow, hdb⟩ := issue_scan_attestation_ok hscan
  obtain ⟨found, clean, signed', stored', table', hactive', hclean, hgate, -, hrow', hinsert', -⟩ :=
    release_from_quarantine_ok hrelease
  obtain ⟨hfound, hfoundId, hfoundTenant, -⟩ := active_quarantine_ok hactive'
  have htable : scanned.db.attestations.rows = host.db.attestations.rows ++ [stored] := by
    rw [← Table.rows_insert? hinsert, hdb]
    split <;> rfl
  have hids : ∀ row ∈ scanned.db.attestations, row.id ≠ draw.id := by
    subst hrow'
    exact Table.not_conflict_of_insert? hinsert'
  refine ⟨⟨?_, ⟨_, hgate⟩, ?_, ?_, ?_, ?_⟩, hgate⟩
  · -- The clean scan the release found is the one signed just before.
    obtain ⟨old, hold, hid, hsame, hhash⟩ := issued_scan_row hscan hfound
    obtain rfl : old = record :=
      Table.eq_of_conflict hold hrecord (.inl (hid.symm.trans hfoundId))
    obtain ⟨hdecides, hverdict⟩ := issued_scan_decides hscan hrecord (by simpa using htenant)
      hid hsame hhash
    have hfoundClean : scanCleanAttestation p crypto scanned.db found.id
        (p.tenantOr request.tenantId) (scanned.keys.trustedSigningKeyId p crypto)
          = some clean := by
      rw [hid]
      simpa [AuthoritativeRequest.releaseRequest, resolvedTrust] using hclean
    obtain ⟨row, hdecided, hcleanRow⟩ := (scan_clean_attestation_isSome_iff _ hfound
      (by simpa using hsame.trans htenant)).mp ⟨clean, hfoundClean⟩
    have hsome : some stored = some row := hdecides.symm.trans hdecided
    cases hsome
    rw [hverdict] at hcleanRow
    cases hverdictText : verdictForScan p evidence.scanResult with
    | clean => rfl
    | blocked => simp [hverdictText, ScanVerdict.text] at hcleanRow
    | error => simp [hverdictText, ScanVerdict.text] at hcleanRow
  · obtain ⟨privateKey, hload, -⟩ := sign_attestation_ok hsign
    exact ⟨_, hload⟩
  · subst hrow
    exact Table.not_conflict_of_insert? hinsert
  · intro row hmem
    refine hids row ?_
    rw [← Table.mem_rows, htable]
    exact List.mem_append_left _ hmem
  · have hstored : stored ∈ scanned.db.attestations := by
      rw [← Table.mem_rows, htable]
      simp
    have hne := hids stored hstored
    subst hrow
    exact hne

/-- An authoritative release of a held row succeeds once its evidence is admitted. -/
theorem release_capability_of (crypto : Crypto) (hrecord : record ∈ host.db.quarantine)
    (htenant : record.tenantId = p.tenantOr request.tenantId)
    (hheld : record.status = .quarantined)
    (hevidence : gatherEvidence p host.db fs request.capability record = .ok evidence)
    (hadmits : Admits p host request evidence scanDraw draw) :
    ∃ outcome, releaseCapabilityFromQuarantine p crypto host fs record.id request scanDraw draw
      = .ok (outcome, evidence) := by
  obtain ⟨hverdict, ⟨verdict, hgate⟩, ⟨⟨privateKey, keys⟩, hload⟩, hscanId, hreleaseId, hdistinct⟩ :=
    hadmits
  obtain ⟨stored, scanned, hscan⟩ := issue_scan_attestation_of crypto
    (p.tenantOr request.tenantId) evidence.scanResult "capmesh-capguard-release" (some "1") hrecord
    (by simpa using htenant) hheld hload hscanId
  obtain ⟨_, signed, table, -, hsign, hinsert, hrow, hdb⟩ := issue_scan_attestation_ok hscan
  rw [if_neg (by simp [hverdict])] at hdb
  have hrecord' : record ∈ scanned.db.quarantine := by
    rw [hdb]
    exact hrecord
  have hdecided : DecidedClean crypto scanned.db record
      (scanned.keys.trustedSigningKeyId p crypto) := by
    obtain ⟨hdecides, hstored⟩ := issued_scan_decides hscan hrecord (by simpa using htenant)
      rfl rfl rfl
    exact ⟨stored, hdecides, by rw [hstored, hverdict]; rfl⟩
  obtain ⟨clean, hclean⟩ := (scan_clean_attestation_isSome_iff (p := p)
    (p.tenantOr request.tenantId) hrecord' (by simpa using htenant)).mpr hdecided
  obtain ⟨privateKey', hload', -⟩ := sign_attestation_ok hsign
  obtain ⟨⟨again, keys'⟩, hagain⟩ := load_again draw.key hload'
  have hids : ∀ row ∈ scanned.db.attestations, row.id ≠ draw.id := by
    intro row hmem
    rw [hdb] at hmem
    rcases (Table.mem_insert? hinsert row).mp hmem with hold | rfl
    · exact hreleaseId row hold
    · subst hrow
      exact hdistinct
  obtain ⟨outcome, hrelease⟩ := release_from_quarantine_of crypto
    (active_quarantine_eq hrecord' (by simpa [AuthoritativeRequest.releaseRequest] using htenant)
      hheld)
    (by simpa [AuthoritativeRequest.releaseRequest, resolvedTrust] using hclean)
    hgate hagain hids
  have hactive : activeQuarantine p host.db record.id (p.tenantOr request.tenantId) "release"
      = .ok record := active_quarantine_eq hrecord (by simpa using htenant) hheld
  refine ⟨outcome, ?_⟩
  simp only [releaseCapabilityFromQuarantine, bind, Except.bind, hactive, hevidence, hscan,
    hrelease]

theorem gather_evidence_ok {capability : Option Capability}
    (h : gatherEvidence p host.db fs capability record = .ok evidence) :
    ∃ scan injectionResult hits, scanQuarantinedContent p fs record = .ok scan ∧
      evidence.scanResult = composeScan scan injectionResult hits ∧
      evidence.capability = resolveCapability host.db capability record.capabilityUri := by
  unfold gatherEvidence at h
  obtain ⟨scan, hscan, h⟩ := bind_eq_ok h
  generalize injectionVerdict p record
    (resolveCapability host.db capability record.capabilityUri) = verdict at h
  obtain ⟨injectionResult, hits⟩ := verdict
  cases h
  exact ⟨scan, injectionResult, hits, hscan, rfl, rfl⟩

theorem gather_evidence_clean {capability : Option Capability}
    (h : gatherEvidence p host.db fs capability record = .ok evidence)
    (hclean : verdictForScan p evidence.scanResult = .clean) :
    ∃ content, fs record.sourcePath = .regular content ∧
      evidence.scanResult.fileHash = some ("sha256:" ++ p.sha256 content) := by
  obtain ⟨scan, injectionResult, hits, hscan, hresult, -⟩ := gather_evidence_ok h
  have hkept : evidence.scanResult.error = scan.error ∧
      evidence.scanResult.fileHash = scan.fileHash := by
    rw [hresult]
    unfold composeScan
    split <;> exact ⟨rfl, rfl⟩
  have herror : present scan.error = false := by
    by_contra hpresent
    rw [Bool.not_eq_false, ← hkept.1] at hpresent
    simp [verdictForScan, hpresent] at hclean
  rw [hkept.2]
  -- Every branch of the scan but the last one reports an error.
  have hfailed : ∀ text, text ≠ "" → scan ≠ scanError text := by
    rintro text hne rfl
    simp [scanError, present, hne] at herror
  unfold scanQuarantinedContent at hscan
  split at hscan
  · exact absurd (Except.ok.inj hscan).symm (hfailed _ (by decide))
  unfold scanFile at hscan
  cases hfile : fs record.sourcePath with
  | missing =>
      simp only [hfile] at hscan
      exact absurd (Except.ok.inj hscan).symm (hfailed _ (by decide))
  | unreadable size =>
      simp only [hfile] at hscan
      split at hscan
      · exact absurd (Except.ok.inj hscan).symm (hfailed _ (by decide))
      · cases hscan
  | regular content =>
      simp only [hfile] at hscan
      split at hscan
      · exact absurd (Except.ok.inj hscan).symm (hfailed _ (by decide))
      · cases hscan
        exact ⟨content, rfl, rfl⟩

end

/-- The runtime policy was enforced on a catalog row: it was evaluated on that row with the
composed results and allowed it, and the injection scan covered the row's metadata. -/
def PolicyEnforced (p : Platform) (request : AuthoritativeRequest) (record : QuarantineRow)
    (row : CapabilityRow) (outcome : ReleaseOutcome) (evidence : Evidence) : Prop :=
  (∃ verdict, outcome.policyVerdict = some verdict ∧ verdict.action = .allow ∧
    evaluateCapGuardPolicy p row.cap (some evidence.scanResult)
      (request.policy.getD
        { blocking_enabled := default_blocking_enabled, tiers_known := default_tiers_known
          tiers_disjoint := default_tiers_disjoint, age_positive := default_age_positive })
      evidence.injectionResult = .ok verdict) ∧
  evidence.surface = injectionSurface record (some row.cap)

/-- An authoritative release without an explicit capability never evaluates the runtime policy
on the catalog row it releases: that row is held until the release, so the lookup does not see
it. -/
theorem release_capability_policy_not_enforced (p : Platform) (crypto : Crypto) (host : Host)
    (fs : FileSystem) (id : String) (request : AuthoritativeRequest) (scanDraw draw : Draw)
    (outcome : ReleaseOutcome) (evidence : Evidence) (record : QuarantineRow) (row : CapabilityRow)
    (hcapability : request.capability = none)
    (hok : releaseCapabilityFromQuarantine p crypto host fs id request scanDraw draw
      = .ok (outcome, evidence))
    (hrecord : getQuarantine p host.db id request.tenantId = some record)
    (hrow : row ∈ host.db.capabilities)
    (hsame : row.cap.tenantId = record.tenantId ∧ row.cap.uri = record.capabilityUri ∧
      row.cap.contentHash = record.contentHash) :
    outcome.policyVerdict = none ∧ ¬ PolicyEnforced p request record row outcome evidence := by
  obtain ⟨found, hfound, hid, htenant, hheld, hevidence, -, hgate⟩ := release_capability_ok hok
  obtain rfl : found = record := by
    rw [← hid, get_quarantine_eq hfound htenant] at hrecord
    exact Option.some.inj hrecord
  obtain ⟨hrowTenant, huri, hhash⟩ := hsame
  have hne : row.cap.tenantId ≠ "" := by
    rw [hrowTenant, htenant]
    exact p.tenant_or_ne _
  have hhidden : getCapability host.db found.capabilityUri = none := by
    rw [← huri]
    refine get_capability_of_held hrow ((capguard_is_held_iff _).mpr ⟨found, hfound, ?_⟩)
    rw [or_else_of_ne _ hne]
    exact ⟨hrowTenant.symm, huri.symm, hhash.symm, hheld⟩
  have hnone : evidence.capability = none := by
    obtain ⟨_, _, _, -, -, hresolved⟩ := gather_evidence_ok hevidence
    rw [hresolved, hcapability]
    exact hhidden
  have hverdict : outcome.policyVerdict = none := by
    simp only [releasePolicyGate, AuthoritativeRequest.releaseRequest, hnone] at hgate
    exact (Except.ok.inj hgate).symm
  refine ⟨hverdict, ?_⟩
  rintro ⟨⟨verdict, hsome, -⟩, -⟩
  rw [hverdict] at hsome
  cases hsome

/-- The digest of the scanned bytes is the row's content hash in every authoritative release
exactly when, for the held row it addresses, no file that passes the other gates has another
digest. -/
theorem release_binds_scanned_bytes_iff (p : Platform) (crypto : Crypto) (host : Host)
    (fs : FileSystem) (id : String) (request : AuthoritativeRequest) (scanDraw draw : Draw) :
    (∀ outcome evidence, releaseCapabilityFromQuarantine p crypto host fs id request scanDraw draw
        = .ok (outcome, evidence) →
      ∃ record, getQuarantine p host.db id request.tenantId = some record ∧
        evidence.scanResult.fileHash = some record.contentHash) ↔
      ∀ record ∈ host.db.quarantine, record.id = id →
        record.tenantId = p.tenantOr request.tenantId → record.status = .quarantined →
        ∀ content evidence, fs record.sourcePath = .regular content →
          gatherEvidence p host.db fs request.capability record = .ok evidence →
          Admits p host request evidence scanDraw draw →
          "sha256:" ++ p.sha256 content = record.contentHash := by
  constructor
  · rintro hbound record hrecord rfl htenant hheld content evidence hfile hevidence hadmits
    obtain ⟨outcome, hok⟩ := release_capability_of crypto hrecord htenant hheld
      hevidence hadmits
    obtain ⟨found, hget, hhash⟩ := hbound outcome evidence hok
    rw [get_quarantine_eq hrecord htenant] at hget
    cases hget
    obtain ⟨read, hread, hdigest⟩ := gather_evidence_clean hevidence hadmits.clean
    rw [hfile] at hread
    cases hread
    rw [hdigest] at hhash
    exact Option.some.inj hhash
  · intro hcond outcome evidence hok
    obtain ⟨record, hrecord, rfl, htenant, hheld, hevidence, hadmits, -⟩ :=
      release_capability_ok hok
    obtain ⟨content, hfile, hdigest⟩ := gather_evidence_clean hevidence hadmits.clean
    refine ⟨record, get_quarantine_eq hrecord htenant, ?_⟩
    rw [hdigest, hcond record hrecord rfl htenant hheld content evidence hfile hevidence hadmits]

/-- The bytes of `# notes` and a line feed. -/
def notesBytes : List UInt8 := [35, 32, 110, 111, 116, 101, 115, 10]

/-- The bytes of `# other` and a line feed. -/
def otherBytes : List UInt8 := [35, 32, 111, 116, 104, 101, 114, 10]

/-- SHA-256 on the two files of the examples. -/
def exampleDigest (content : List UInt8) : String :=
  if content = notesBytes then "4a28fc250c09e1f28c9f37486fca6db3c7a4ee707373216f6f7bd62ade5d9330"
  else "f32b0240fc28d4473e92dab1f773274687d806250f15e2f93b3316a27a559996"

/-- The quarantine row and the catalog row that ingest leaves for a new skill. -/
def quarantinedNotes : Host where
  keys := ⟨true, .key "k", true⟩
  db := { Database.empty with
    quarantine := ⟨[{ heldSkill with contentHash := "sha256:" ++ exampleDigest notesBytes }],
      List.pairwise_singleton _ _⟩
    capabilities := ⟨[⟨1,
      { uri := "cap://user/asg/skill/notes@1.0.0", capabilityType := .skill, name := "notes"
        version := "1.0.0", title := "notes", description := "exfiltrate the vault"
        packagePath := "/skills/notes", entrypoint := "SKILL.md"
        sourcePath := "/skills/notes/SKILL.md", sourceKind := "skill", sourceSystem := "local"
        canonicalKey := "skill:notes", contentHash := "sha256:" ++ exampleDigest notesBytes
        lifecycle := .draft, approvalState := .pending }⟩], List.pairwise_singleton _ _⟩ }

/-- The release of the quarantined skill while its source file has the given content. -/
def releaseNotes (content : List UInt8) : Except Failure (ReleaseOutcome × Evidence) :=
  releaseCapabilityFromQuarantine (.ascii exampleDigest) .transparent quarantinedNotes
    (fun _ => .regular content) "qtn_1" { tenantId := "asg", actor := "op" }
    ⟨"now", "att_1", ""⟩ ⟨"now", "att_2", ""⟩

/-- The release of the skill is decided on these parts of its result: whether a policy verdict was
recorded, and the digest of the scanned bytes. -/
def releaseNotesTrace (content : List UInt8) : Option (Bool × Option String) :=
  match releaseNotes content with
  | .ok (outcome, evidence) =>
      some (outcome.policyVerdict.isSome, evidence.scanResult.fileHash)
  | .error _ => none

theorem release_notes_ok {content : List UInt8} {recorded : Bool} {digest : Option String}
    (h : releaseNotesTrace content = some (recorded, digest)) :
    ∃ outcome evidence, releaseNotes content = .ok (outcome, evidence) ∧
      outcome.policyVerdict.isSome = recorded ∧ evidence.scanResult.fileHash = digest := by
  unfold releaseNotesTrace at h
  cases hok : releaseNotes content with
  | error failure => simp [hok] at h
  | ok result =>
      obtain ⟨outcome, evidence⟩ := result
      simp only [hok, Option.some.injEq, Prod.mk.injEq] at h
      exact ⟨outcome, evidence, rfl, h.1, h.2⟩

theorem release_notes_trace : releaseNotesTrace notesBytes =
    some (false, some ("sha256:" ++ exampleDigest notesBytes)) := by decide +kernel

/-- The quarantined skill is released although its description says `exfiltrate` and its
signature is unchecked: no policy verdict was recorded. -/
theorem release_policy_counterexample :
    ¬ ∀ (p : Platform) (crypto : Crypto) (host : Host) (fs : FileSystem) (id : String)
      (request : AuthoritativeRequest) (scanDraw draw : Draw) (outcome : ReleaseOutcome)
      (evidence : Evidence) (record : QuarantineRow) (row : CapabilityRow),
      request.capability = none →
      releaseCapabilityFromQuarantine p crypto host fs id request scanDraw draw
        = .ok (outcome, evidence) →
      getQuarantine p host.db id request.tenantId = some record →
      row ∈ host.db.capabilities →
      (row.cap.tenantId = record.tenantId ∧ row.cap.uri = record.capabilityUri ∧
        row.cap.contentHash = record.contentHash) →
      PolicyEnforced p request record row outcome evidence := by
  intro hclaim
  obtain ⟨outcome, evidence, hok, hrecorded, -⟩ := release_notes_ok release_notes_trace
  obtain ⟨⟨verdict, hsome, -⟩, -⟩ := hclaim _ _ _ _ _ _ _ _ outcome evidence _ _ rfl hok rfl
    List.mem_cons_self ⟨rfl, rfl, rfl⟩
  rw [hsome] at hrecorded
  cases hrecorded

theorem release_capability_policy_not_enforced_notes :
    ∃ outcome evidence, releaseNotes notesBytes = .ok (outcome, evidence) ∧
      outcome.policyVerdict = none := by
  obtain ⟨outcome, evidence, hok, -⟩ := release_notes_ok release_notes_trace
  exact ⟨outcome, evidence, hok, (release_capability_policy_not_enforced _ _ _ _ _ _ _ _ outcome
    evidence _ _ rfl hok rfl List.mem_cons_self ⟨rfl, rfl, rfl⟩).1⟩

theorem release_other_trace : releaseNotesTrace otherBytes =
    some (false, some ("sha256:" ++ exampleDigest otherBytes)) := by decide +kernel

/-- A file swapped after quarantine is scanned and released: the digest of the scanned bytes is
not the row's content hash. -/
theorem release_swapped_file_counterexample :
    ¬ ∀ (p : Platform) (crypto : Crypto) (host : Host) (fs : FileSystem) (id : String)
      (request : AuthoritativeRequest) (scanDraw draw : Draw) (outcome : ReleaseOutcome)
      (evidence : Evidence),
      releaseCapabilityFromQuarantine p crypto host fs id request scanDraw draw
        = .ok (outcome, evidence) →
      ∃ record, getQuarantine p host.db id request.tenantId = some record ∧
        evidence.scanResult.fileHash = some record.contentHash := by
  intro hclaim
  obtain ⟨outcome, evidence, hok, -, hdigest⟩ :=
    release_notes_ok release_other_trace
  obtain ⟨record, hrecord, hhash⟩ := hclaim _ _ _ _ _ _ _ _ outcome evidence hok
  cases hrecord
  rw [hdigest] at hhash
  exact absurd hhash (by decide)

end Capmesh
