import Capmesh.CapGuard.Scanning
import Capmesh.CapGuard.Signing
import Capmesh.Index.Serving

/-!
# The quarantine store and its attestations

The operations of `capguard.py` over the catalog database and the signing key
store. Each returns the new state or a failure; a failed operation changes nothing,
because its connection rolls back. The clock, new identifiers, and a generated key
come in through a `Draw`.
-/

namespace Capmesh

open Python Relational

/-- A server: the catalog database and the signing key store. -/
structure Host where
  db : Database
  keys : KeyStore

/-- What one call takes from outside the database: the clock, a new identifier, and the key it
would generate. -/
structure Draw where
  now : String
  id : String
  key : String
  deriving DecidableEq, Repr

/-- The arguments of `quarantine_capability`. -/
structure QuarantineRequest where
  tenantId : String
  capabilityUri : String
  capabilityType : CapabilityType
  name : String
  version : String
  sourcePath : String
  contentHash : String
  reason : String := "pending_scan"
  submittedBy : Option String := none
  metadata : Dict := []
  deriving DecidableEq, Repr

/-- The row `quarantine_capability` inserts. -/
def QuarantineRequest.row (request : QuarantineRequest) (tenant : String)
    (reason : QuarantineReason) (id : String) : QuarantineRow :=
  { id, tenantId := tenant, capabilityUri := request.capabilityUri
    capabilityType := request.capabilityType, name := request.name, version := request.version
    sourcePath := request.sourcePath, contentHash := request.contentHash, reason
    status := .quarantined, submittedBy := request.submittedBy, metadata := request.metadata }

/-- `quarantine_capability`: identical content that is still held keeps its row. -/
def quarantineCapability (p : Platform) (db : Database) (request : QuarantineRequest)
    (id : String) : Except Failure (QuarantineRow × Database) :=
  let tenant := p.tenantOr request.tenantId
  if request.capabilityUri = "" ∨ request.contentHash = "" then
    .error (.quarantine "capabilityUri and contentHash are required.")
  else match QuarantineReason.parse request.reason with
    | none => .error (.quarantine ("Unsupported quarantine reason: " ++ p.repr request.reason))
    | some reason =>
        match db.quarantine.find? fun row =>
          row.Holds tenant request.capabilityUri request.contentHash with
        | some existing => .ok (existing, db)
        | none => do
            let row := request.row tenant reason id
            let table ← constrained "capguard_quarantine.id" (db.quarantine.insert? row)
            .ok (row, { db with quarantine := table })

/-- `get_quarantine`. -/
def getQuarantine (p : Platform) (db : Database) (id tenant : String) : Option QuarantineRow :=
  db.quarantine.find? fun row => row.id = id && row.tenantId = p.tenantOr tenant

/-- The tenant-scoped row in status `quarantined`, or the error each operation raises without
one; `verb` is the operation named in the message. -/
def activeQuarantine (p : Platform) (db : Database) (id tenant verb : String) :
    Except Failure QuarantineRow :=
  match getQuarantine p db id (p.tenantOr tenant) with
  | none => .error (.quarantine ("Quarantine item not found: " ++ id))
  | some record =>
      if record.status ≠ .quarantined then
        .error (.quarantine ("Cannot " ++ verb ++ " a quarantine item in status " ++
          p.repr record.status.text ++ "."))
      else .ok record

/-- `SCAN_VERDICTS`. -/
inductive ScanVerdict where
  | clean | blocked | error
  deriving DecidableEq, Repr

/-- The stored text of a scan verdict. -/
def ScanVerdict.text : ScanVerdict → String
  | .clean => "clean"
  | .blocked => "blocked"
  | .error => "error"

/-- `_verdict_for_scan`. -/
def verdictForScan (p : Platform) (scan : ScanResult) : ScanVerdict :=
  if present scan.error then .error
  else if scan.findings.any fun finding =>
      p.lower finding.severity = "critical" || p.lower finding.severity = "high" then .blocked
  else if scan.criticalCount.getD 0 ≠ 0 ∨ scan.highCount.getD 0 ≠ 0 then .blocked
  else if scan.passed = some false then .blocked
  else .clean

/-- `_findings_summary`. -/
def findingsSummary (scan : ScanResult) : Dict :=
  [("passed", .bool (scan.passed.getD false)),
    ("criticalCount", .int (scan.criticalCount.getD 0)),
    ("highCount", .int (scan.highCount.getD 0)),
    ("findingCount", .int scan.findings.length),
    ("error", (scan.error.map Json.str).getD .null)]

/-- The fields every envelope of `_build_envelope` starts with. -/
def envelopeHeader (type : AttestationType) (record : QuarantineRow) (tenant now : String) :
    Dict :=
  [("schema", .str "capguard.attestation.v1"), ("type", .str type.text),
    ("quarantineId", .str record.id), ("capabilityUri", .str record.capabilityUri),
    ("contentHash", .str record.contentHash), ("tenantId", .str tenant),
    ("issuedAt", .str now)]

/-- `_build_envelope` of a scan attestation. -/
def scanEnvelope (record : QuarantineRow) (tenant : String) (verdict : ScanVerdict)
    (scannerId : String) (scannerVersion : Option String) (summary : Dict) (now : String) :
    Json :=
  .obj (envelopeHeader .scan record tenant now ++
    [("scannerId", .str (orElse scannerId "capmesh-malware_scan")),
      ("scannerVersion", .str (optOr scannerVersion "unknown")),
      ("verdict", .str verdict.text), ("findingsSummary", .obj summary)])

/-- `_build_envelope` of a release or reject attestation. -/
def decisionEnvelope (type : AttestationType) (record : QuarantineRow) (tenant : String)
    (actor reason : String) (now : String) : Json :=
  .obj (envelopeHeader type record tenant now ++
    [("actor", .str actor), ("reason", .str reason)])

/-- The columns of an attestation row that come from the signature. -/
def AttestationRow.sealWith (crypto : Crypto) (signed : SignedAttestation)
    (row : AttestationRow) : AttestationRow :=
  { row with
    algorithm := signed.algorithm, keyId := signed.keyId, publicKey := signed.publicKey
    signature := signed.signature, envelope := signed.envelope
    verifies := verifyAttestation crypto signed none }

/-- `_store_attestation`: insert the row built from a signed envelope. -/
def storeAttestation (crypto : Crypto) (db : Database) (signed : SignedAttestation)
    (row : AttestationRow) : Except Failure (AttestationRow × Database) := do
  let row := row.sealWith crypto signed
  let table ← constrained "capguard_attestations.id" (db.attestations.insert? row)
  .ok (row, { db with attestations := table })

/-- The columns of an attestation row that do not come from the signature. -/
def attestationColumns (record : QuarantineRow) (tenant : String) (type : AttestationType)
    (id : String) : AttestationRow :=
  { id, tenantId := tenant, quarantineId := record.id, attestationType := type
    subjectUri := record.capabilityUri, contentHash := record.contentHash
    verdict := none, scannerId := none, scannerVersion := none, findingsSummary := .obj []
    algorithm := "", keyId := "", publicKey := "", signature := "", envelope := .null
    verifies := false, actor := none, reason := none }

/-- Set the reason of the quarantine row with an id. -/
def QuarantineRow.setReason (id : String) (reason : QuarantineReason) (row : QuarantineRow) :
    QuarantineRow :=
  if row.id = id then { row with reason } else row

/-- Close the quarantine row with an id. -/
def QuarantineRow.close (id : String) (status : QuarantineStatus) (row : QuarantineRow) :
    QuarantineRow :=
  if row.id = id then { row with status } else row

/-- Record a CapGuard decision on the row of one tenant, URI and content. -/
def CapabilityRow.decide (tenant uri hash : String) (lifecycle : Lifecycle)
    (approvalState : ApprovalState) (row : CapabilityRow) : CapabilityRow :=
  if row.cap.tenantId = tenant ∧ row.cap.uri = uri ∧ row.cap.contentHash = hash then
    { row with cap := { row.cap with lifecycle, approvalState } }
  else row

theorem set_reason_conflict (id : String) (reason : QuarantineReason) (a b : QuarantineRow)
    (h : Constrained.Conflict (a.setReason id reason) (b.setReason id reason)) :
    Constrained.Conflict a b := by
  unfold QuarantineRow.setReason at h
  split at h <;> split at h <;> exact h

theorem close_conflict {status : QuarantineStatus} (hstatus : status ≠ .quarantined)
    (id : String) (a b : QuarantineRow)
    (h : Constrained.Conflict (a.close id status) (b.close id status)) :
    Constrained.Conflict a b := by
  unfold QuarantineRow.close at h
  rcases h with h | ⟨ha, ht, hu, hc, hb⟩
  · left
    split at h <;> split at h <;> exact h
  · right
    split at ha
    · exact absurd ha hstatus
    · split at hb
      · exact absurd hb hstatus
      · rw [if_neg ‹_›, if_neg ‹_›] at ht hu hc
        exact ⟨ha, ht, hu, hc, hb⟩

theorem decide_conflict (tenant uri hash : String) (lifecycle : Lifecycle)
    (approvalState : ApprovalState) (a b : CapabilityRow)
    (h : Constrained.Conflict (a.decide tenant uri hash lifecycle approvalState)
      (b.decide tenant uri hash lifecycle approvalState)) : Constrained.Conflict a b := by
  unfold CapabilityRow.decide at h
  split at h <;> split at h <;> exact h

namespace Database

/-- `UPDATE capguard_quarantine SET reason = ? WHERE id = ?`. -/
def setReason (db : Database) (id : String) (reason : QuarantineReason) : Database :=
  { db with quarantine := db.quarantine.map (·.setReason id reason) (set_reason_conflict id reason) }

/-- `UPDATE capguard_quarantine SET status = ? WHERE id = ?`, for a status that ends a hold. -/
def closeQuarantine (db : Database) (id : String) (status : QuarantineStatus)
    (h : status ≠ .quarantined) : Database :=
  { db with quarantine := db.quarantine.map (·.close id status) (close_conflict h id) }

/-- `UPDATE capabilities SET lifecycle = ?, approval_state = ?` for one tenant, URI and
content. -/
def decideCapability (db : Database) (tenant uri hash : String) (lifecycle : Lifecycle)
    (approvalState : ApprovalState) : Database :=
  let table := db.capabilities.map (·.decide tenant uri hash lifecycle approvalState)
    (decide_conflict tenant uri hash lifecycle approvalState)
  { db with capabilities := table }

end Database

/-- `issue_scan_attestation`. -/
def issueScanAttestation (p : Platform) (crypto : Crypto) (host : Host) (id tenant : String)
    (scan : ScanResult) (scannerId : String) (scannerVersion : Option String) (persist : Bool)
    (draw : Draw) : Except Failure (AttestationRow × Host) := do
  let tenant := p.tenantOr tenant
  let record ← activeQuarantine p host.db id tenant "scan"
  let verdict := verdictForScan p scan
  let summary := findingsSummary scan
  let envelope := scanEnvelope record tenant verdict scannerId scannerVersion summary draw.now
  let (signed, keys) ← signAttestation p crypto host.keys envelope persist draw.key
  let (stored, db) ← storeAttestation crypto host.db signed
    { attestationColumns record tenant .scan draw.id with
      verdict := some verdict.text, scannerId := some scannerId
      scannerVersion, findingsSummary := .obj summary }
  let db := if verdict = .blocked then db.setReason id .scanFailed else db
  .ok (stored, ⟨db, keys⟩)

/-- The signed attestation a stored row holds. -/
def AttestationRow.signed (row : AttestationRow) : SignedAttestation :=
  ⟨row.algorithm, row.keyId, row.publicKey, row.signature, row.envelope⟩

/-- `verify_attestation_record`. -/
def verifyAttestationRecord (crypto : Crypto) (db : Database) (id : String)
    (trusted : Option String) : Bool :=
  match db.attestations.find? (·.id = id) with
  | none => false
  | some row => verifyAttestation crypto row.signed trusted

/-- The loop of `scan_clean_attestation` over the scan rows, the newest first. -/
def latestCleanScan (crypto : Crypto) (db : Database) (hash : String) (trusted : Option String) :
    List AttestationRow → Option AttestationRow
  | [] => none
  | row :: rows =>
      if row.contentHash ≠ hash then latestCleanScan crypto db hash trusted rows
      else if !verifyAttestationRecord crypto db row.id trusted then
        latestCleanScan crypto db hash trusted rows
      else if row.verdict = some "clean" then some row
      -- The most recent valid scan decides: an older clean one is superseded.
      else none

/-- The scan attestations of a quarantine item, the newest first. -/
def scanRows (db : Database) (tenant id : String) : List AttestationRow :=
  (db.attestations.rows.filter fun row =>
    row.tenantId = tenant && row.quarantineId = id && row.attestationType = .scan).reverse

/-- `scan_clean_attestation`. -/
def scanCleanAttestation (p : Platform) (crypto : Crypto) (db : Database) (id tenant : String)
    (trusted : Option String) : Option AttestationRow :=
  let tenant := p.tenantOr tenant
  match getQuarantine p db id tenant with
  | none => none
  | some record =>
      latestCleanScan crypto db record.contentHash trusted (scanRows db tenant id)

/-- The arguments of `release_from_quarantine`. -/
structure ReleaseRequest where
  tenantId : String
  actor : String
  reason : String := "scan_clean"
  trustedKeyId : Option String := none
  capability : Option Capability := none
  scanResult : Option ScanResult := none
  injectionResult : Option Bool := none
  policy : Option CapGuardPolicy := none
  persist : Bool := true

/-- A successful release: the closed row, the attestation and policy verdict its audit event
records, and the new state. -/
structure ReleaseOutcome where
  record : QuarantineRow
  scanAttestation : String
  policyVerdict : Option CapGuardVerdict
  host : Host

/-- The policy gate of a release: evaluated only when a capability is supplied. -/
def releasePolicyGate (p : Platform) (request : ReleaseRequest) :
    Except Failure (Option CapGuardVerdict) :=
  match request.capability with
  | none => .ok none
  | some capability => do
      let verdict ← evaluateCapGuardPolicy p capability request.scanResult
        (request.policy.getD {}) request.injectionResult
      if verdict.action ≠ .allow then
        .error (.releaseBlocked ("Release refused: runtime policy verdict " ++
          p.repr verdict.action.text ++ " for " ++ p.repr capability.uri ++ ": " ++
          verdict.reason))
      else .ok (some verdict)

/-- The trust anchor of a release: the caller's pin, else the configured signing key, else
`none`. -/
def resolvedTrust (p : Platform) (crypto : Crypto) (keys : KeyStore)
    (trustedKeyId : Option String) : Option String :=
  match trustedKeyId with
  | some pin => some pin
  | none => keys.trustedSigningKeyId p crypto

/-- `release_from_quarantine`. -/
def releaseFromQuarantine (p : Platform) (crypto : Crypto) (host : Host) (id : String)
    (request : ReleaseRequest) (draw : Draw) : Except Failure ReleaseOutcome := do
  let tenant := p.tenantOr request.tenantId
  let record ← activeQuarantine p host.db id tenant "release"
  let trust := resolvedTrust p crypto host.keys request.trustedKeyId
  match scanCleanAttestation p crypto host.db id tenant trust with
  | none =>
      .error (.releaseBlocked ("Release refused: no valid clean scan attestation for the " ++
        "current content_hash (quarantine=" ++ id ++ ", tenant=" ++ tenant ++ ")."))
  | some clean => do
      let policyVerdict ← releasePolicyGate p request
      let envelope :=
        decisionEnvelope .release record tenant request.actor request.reason draw.now
      let (signed, keys) ← signAttestation p crypto host.keys envelope request.persist draw.key
      let (_, db) ← storeAttestation crypto host.db signed
        { attestationColumns record tenant .release draw.id with
          actor := some request.actor, reason := some request.reason }
      let db := db.closeQuarantine id .released (by decide)
      let db := db.decideCapability tenant record.capabilityUri record.contentHash
        .active .published
      .ok ⟨{ record with status := .released }, clean.id, policyVerdict, ⟨db, keys⟩⟩

/-- `reject_from_quarantine`. -/
def rejectFromQuarantine (p : Platform) (crypto : Crypto) (host : Host) (id : String)
    (tenant actor reason : String) (persist : Bool) (draw : Draw) :
    Except Failure (QuarantineRow × Host) := do
  let tenant := p.tenantOr tenant
  let record ← activeQuarantine p host.db id tenant "reject"
  if p.stripSpace reason = "" then
    .error (.quarantine "A non-empty reject reason is required.")
  else do
    let envelope := decisionEnvelope .reject record tenant actor reason draw.now
    let (signed, keys) ← signAttestation p crypto host.keys envelope persist draw.key
    let (_, db) ← storeAttestation crypto host.db signed
      { attestationColumns record tenant .reject draw.id with
        actor := some actor, reason := some reason }
    let db := db.closeQuarantine id .rejected (by decide)
    let db := db.decideCapability tenant record.capabilityUri record.contentHash
      .disabled .rejected
    .ok ({ record with status := .rejected }, ⟨db, keys⟩)

section

variable {p : Platform} {crypto : Crypto} {db : Database} {host : Host} {id tenant : String}
variable {record : QuarantineRow} {draw : Draw}

theorem mem_set_reason {reason : QuarantineReason} {row : QuarantineRow} :
    row ∈ (db.setReason id reason).quarantine ↔ ∃ old ∈ db.quarantine, old.setReason id reason = row :=
  Table.mem_map (set_reason_conflict id reason) row

theorem mem_close_quarantine {status : QuarantineStatus} (hstatus : status ≠ .quarantined)
    {row : QuarantineRow} : row ∈ (db.closeQuarantine id status hstatus).quarantine ↔
      ∃ old ∈ db.quarantine, old.close id status = row :=
  Table.mem_map (close_conflict hstatus id) row

/-- An operation that found its row addressed it by id and tenant while it was held. -/
theorem active_quarantine_ok {verb : String}
    (h : activeQuarantine p db id tenant verb = .ok record) :
    record ∈ db.quarantine ∧ record.id = id ∧ record.tenantId = p.tenantOr tenant ∧
      record.status = .quarantined := by
  unfold activeQuarantine at h
  cases hget : getQuarantine p db id (p.tenantOr tenant) with
  | none => simp [hget] at h
  | some found =>
      by_cases hstatus : found.status = .quarantined
      · rw [hget] at h
        simp only [hstatus, ne_eq, not_true_eq_false, if_false] at h
        cases h
        obtain ⟨hmem, hkey⟩ := Table.find?_some hget
        obtain ⟨hid, htenant⟩ : record.id = id ∧ record.tenantId = p.tenantOr tenant := by
          simpa using hkey
        exact ⟨hmem, hid, htenant, hstatus⟩
      · simp [hget, hstatus] at h

/-- A row is found by its own id and tenant. -/
theorem get_quarantine_eq (hmem : record ∈ db.quarantine)
    (htenant : record.tenantId = p.tenantOr tenant) :
    getQuarantine p db record.id tenant = some record :=
  Table.find?_eq_some hmem (by simp [htenant]) fun other _ hother =>
    .inl (by simpa using (Bool.and_eq_true_iff.mp hother).1)

/-- A held row is the active row of its own id and tenant. -/
theorem active_quarantine_eq {verb : String} (hmem : record ∈ db.quarantine)
    (htenant : record.tenantId = p.tenantOr tenant) (hstatus : record.status = .quarantined) :
    activeQuarantine p db record.id tenant verb = .ok record := by
  have hget : getQuarantine p db record.id (p.tenantOr tenant) = some record :=
    get_quarantine_eq hmem (by simpa using htenant)
  simp [activeQuarantine, hget, hstatus]

theorem quarantine_capability_ok {request : QuarantineRequest} {result : Database}
    (h : quarantineCapability p db request id = .ok (record, result)) :
    record.Holds (p.tenantOr request.tenantId) request.capabilityUri request.contentHash ∧
      record ∈ result.quarantine ∧
      (result = db ∨ ∃ table, db.quarantine.insert? record = some table ∧
        result = { db with quarantine := table }) := by
  unfold quarantineCapability at h
  split at h
  · cases h
  cases hreason : QuarantineReason.parse request.reason with
  | none => simp [hreason] at h
  | some reason =>
      simp only [hreason] at h
      cases hfind : db.quarantine.find? fun row =>
          decide (row.Holds (p.tenantOr request.tenantId) request.capabilityUri
            request.contentHash) with
      | some existing =>
          simp only [hfind] at h
          cases h
          obtain ⟨hmem, hholds⟩ := Table.find?_some hfind
          exact ⟨by simpa using hholds, hmem, .inl rfl⟩
      | none =>
          simp only [hfind] at h
          obtain ⟨table, htable, h⟩ := bind_eq_ok h
          cases h
          have hinsert := constrained_ok htable
          exact ⟨⟨rfl, rfl, rfl, rfl⟩, (Table.mem_insert? hinsert _).mpr (.inr rfl),
            .inr ⟨table, hinsert, rfl⟩⟩

/-- Storing an attestation appends one row that carries the signature's fields. -/
theorem store_attestation_ok {signed : SignedAttestation} {columns stored : AttestationRow}
    {result : Database} (h : storeAttestation crypto db signed columns = .ok (stored, result)) :
    ∃ table, db.attestations.insert? stored = some table ∧
      result = { db with attestations := table } ∧
      stored = columns.sealWith crypto signed := by
  unfold storeAttestation at h
  obtain ⟨table, htable, h⟩ := bind_eq_ok h
  cases h
  exact ⟨table, constrained_ok htable, rfl, rfl⟩

/-- A stored row is verified by its own contents. -/
theorem verify_attestation_record_eq {row : AttestationRow} (hrow : row ∈ db.attestations)
    (trusted : Option String) : verifyAttestationRecord crypto db row.id trusted =
      verifyAttestation crypto row.signed trusted := by
  have hfind : db.attestations.find? (·.id = row.id) = some row :=
    Table.find?_eq_some hrow (by simp) fun other _ hother => by
      show other.id = row.id
      simpa using hother
  simp [verifyAttestationRecord, hfind]

theorem mem_scan_rows {row : AttestationRow} : row ∈ scanRows db tenant id ↔
    row ∈ db.attestations ∧ row.tenantId = tenant ∧ row.quarantineId = id ∧
      row.attestationType = .scan := by
  simp [scanRows, and_assoc]

theorem issue_scan_attestation_ok {scan : ScanResult} {scannerId : String}
    {scannerVersion : Option String} {persist : Bool} {stored : AttestationRow} {result : Host}
    (h : issueScanAttestation p crypto host id tenant scan scannerId scannerVersion persist draw
      = .ok (stored, result)) :
    ∃ record signed table, activeQuarantine p host.db id (p.tenantOr tenant) "scan" = .ok record ∧
      signAttestation p crypto host.keys
        (scanEnvelope record (p.tenantOr tenant) (verdictForScan p scan) scannerId
          scannerVersion (findingsSummary scan) draw.now) persist draw.key
        = .ok (signed, result.keys) ∧
      host.db.attestations.insert? stored = some table ∧
      stored = AttestationRow.sealWith crypto signed
        { attestationColumns record (p.tenantOr tenant) .scan draw.id with
          verdict := some (verdictForScan p scan).text, scannerId := some scannerId
          scannerVersion, findingsSummary := .obj (findingsSummary scan) } ∧
      result.db = if verdictForScan p scan = .blocked then
          ({ host.db with attestations := table } : Database).setReason id .scanFailed
        else { host.db with attestations := table } := by
  unfold issueScanAttestation at h
  obtain ⟨record, hrecord, h⟩ := bind_eq_ok h
  obtain ⟨⟨signed, keys⟩, hsigned, h⟩ := bind_eq_ok h
  obtain ⟨⟨row, db⟩, hstored, h⟩ := bind_eq_ok h
  cases h
  obtain ⟨table, hinsert, rfl, hrow⟩ := store_attestation_ok hstored
  exact ⟨record, signed, table, hrecord, hsigned, hinsert, hrow, rfl⟩

theorem issue_scan_attestation_of (crypto : Crypto) (tenant : String) (scan : ScanResult)
    (scannerId : String) (scannerVersion : Option String) {persist : Bool} {privateKey : String}
    {keys : KeyStore}
    (hrecord : record ∈ host.db.quarantine) (htenant : record.tenantId = p.tenantOr tenant)
    (hheld : record.status = .quarantined)
    (hload : host.keys.loadOrCreateSigningKey p persist draw.key = .ok (privateKey, keys))
    (hid : ∀ row ∈ host.db.attestations, row.id ≠ draw.id) :
    ∃ stored result, issueScanAttestation p crypto host record.id tenant scan scannerId
      scannerVersion persist draw = .ok (stored, result) := by
  obtain ⟨signed, hsigned, -⟩ := sign_attestation_of_load crypto
    (scanEnvelope record (p.tenantOr tenant) (verdictForScan p scan) scannerId
      scannerVersion (findingsSummary scan) draw.now) hload
  have hinsert : (host.db.attestations.insert? (AttestationRow.sealWith crypto signed
      { attestationColumns record (p.tenantOr tenant) .scan draw.id with
        verdict := some (verdictForScan p scan).text, scannerId := some scannerId
        scannerVersion, findingsSummary := .obj (findingsSummary scan) })).isSome :=
    Table.insert?_isSome_iff.mpr hid
  obtain ⟨table, htable⟩ := Option.isSome_iff_exists.mp hinsert
  have hactive : activeQuarantine p host.db record.id (p.tenantOr tenant) "scan" = .ok record :=
    active_quarantine_eq hrecord (by simpa using htenant) hheld
  simp only [issueScanAttestation, bind, Except.bind, hactive, hsigned, storeAttestation, htable,
    constrained]
  exact ⟨_, _, rfl⟩

theorem release_from_quarantine_ok {request : ReleaseRequest} {outcome : ReleaseOutcome}
    (h : releaseFromQuarantine p crypto host id request draw = .ok outcome) :
    ∃ record clean signed stored table,
      activeQuarantine p host.db id (p.tenantOr request.tenantId) "release" = .ok record ∧
      scanCleanAttestation p crypto host.db id (p.tenantOr request.tenantId)
        (resolvedTrust p crypto host.keys request.trustedKeyId) = some clean ∧
      releasePolicyGate p request = .ok outcome.policyVerdict ∧
      signAttestation p crypto host.keys (decisionEnvelope .release record
        (p.tenantOr request.tenantId) request.actor request.reason draw.now) request.persist
        draw.key = .ok (signed, outcome.host.keys) ∧
      stored = AttestationRow.sealWith crypto signed
        { attestationColumns record (p.tenantOr request.tenantId) .release draw.id with
          actor := some request.actor, reason := some request.reason } ∧
      host.db.attestations.insert? stored = some table ∧
      outcome.scanAttestation = clean.id ∧
      outcome.host.db = (({ host.db with attestations := table } : Database).closeQuarantine id
          .released (by decide)).decideCapability (p.tenantOr request.tenantId)
            record.capabilityUri record.contentHash .active .published := by
  unfold releaseFromQuarantine at h
  obtain ⟨record, hrecord, h⟩ := bind_eq_ok h
  cases hclean : scanCleanAttestation p crypto host.db id (p.tenantOr request.tenantId)
      (resolvedTrust p crypto host.keys request.trustedKeyId) with
  | none => simp [hclean] at h
  | some clean =>
      simp only [hclean] at h
      obtain ⟨verdict, hverdict, h⟩ := bind_eq_ok h
      obtain ⟨⟨signed, keys⟩, hsigned, h⟩ := bind_eq_ok h
      obtain ⟨⟨stored, db⟩, hstored, h⟩ := bind_eq_ok h
      cases h
      obtain ⟨table, hinsert, rfl, hrow⟩ := store_attestation_ok hstored
      exact ⟨record, clean, signed, stored, table, hrecord, rfl, hverdict, hsigned, hrow,
        hinsert, rfl, rfl⟩

theorem release_from_quarantine_of (crypto : Crypto) {request : ReleaseRequest} {clean : AttestationRow}
    {verdict : Option CapGuardVerdict} {privateKey : String} {keys : KeyStore}
    (hrecord : activeQuarantine p host.db id (p.tenantOr request.tenantId) "release" = .ok record)
    (hclean : scanCleanAttestation p crypto host.db id (p.tenantOr request.tenantId)
      (resolvedTrust p crypto host.keys request.trustedKeyId) = some clean)
    (hverdict : releasePolicyGate p request = .ok verdict)
    (hload : host.keys.loadOrCreateSigningKey p request.persist draw.key = .ok (privateKey, keys))
    (hid : ∀ row ∈ host.db.attestations, row.id ≠ draw.id) :
    ∃ outcome, releaseFromQuarantine p crypto host id request draw = .ok outcome := by
  obtain ⟨signed, hsigned, -⟩ := sign_attestation_of_load crypto
    (decisionEnvelope .release record (p.tenantOr request.tenantId) request.actor
      request.reason draw.now) hload
  have hinsert : (host.db.attestations.insert? (AttestationRow.sealWith crypto signed
      { attestationColumns record (p.tenantOr request.tenantId) .release draw.id with
        actor := some request.actor, reason := some request.reason })).isSome :=
    Table.insert?_isSome_iff.mpr hid
  obtain ⟨table, htable⟩ := Option.isSome_iff_exists.mp hinsert
  simp only [releaseFromQuarantine, bind, Except.bind, hrecord, hclean, hverdict, hsigned,
    storeAttestation, htable, constrained]
  exact ⟨_, rfl⟩

/-- What a successful rejection did. -/
theorem reject_from_quarantine_ok {actor reason : String} {persist : Bool}
    {closed : QuarantineRow} {result : Host}
    (h : rejectFromQuarantine p crypto host id tenant actor reason persist draw
      = .ok (closed, result)) :
    ∃ record signed stored table,
      activeQuarantine p host.db id (p.tenantOr tenant) "reject" = .ok record ∧
      signAttestation p crypto host.keys (decisionEnvelope .reject record (p.tenantOr tenant)
        actor reason draw.now) persist draw.key = .ok (signed, result.keys) ∧
      stored = AttestationRow.sealWith crypto signed
        { attestationColumns record (p.tenantOr tenant) .reject draw.id with
          actor := some actor, reason := some reason } ∧
      host.db.attestations.insert? stored = some table ∧
      result.db = (({ host.db with attestations := table } : Database).closeQuarantine id
          .rejected (by decide)).decideCapability (p.tenantOr tenant)
            record.capabilityUri record.contentHash .disabled .rejected := by
  unfold rejectFromQuarantine at h
  obtain ⟨record, hrecord, h⟩ := bind_eq_ok h
  split at h
  · cases h
  obtain ⟨⟨signed, keys⟩, hsigned, h⟩ := bind_eq_ok h
  obtain ⟨⟨stored, db⟩, hstored, h⟩ := bind_eq_ok h
  cases h
  obtain ⟨table, hinsert, rfl, hrow⟩ := store_attestation_ok hstored
  exact ⟨record, signed, stored, table, hrecord, hsigned, hrow, hinsert, rfl⟩

end

end Capmesh
