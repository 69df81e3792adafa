import Capmesh.CapGuard.Quarantine

/-!
# What a release proves about its attestation

A release reads the verdict, the tenant, the quarantine id and the content hash from
unsigned columns and checks the signature of the envelope beside them. `Vouched` is
what a release should establish: an envelope signed by the trust anchor says that
this item's content was scanned clean. `release_vouched_iff` gives the two ways in
which a release succeeds without it: no anchor resolves and any embedded key is
accepted, or the columns of a trusted envelope were relabelled.
-/

namespace Capmesh

open Python Relational

/-- The signed fields of an envelope say that the item's content was scanned clean. -/
def Vouches (record : QuarantineRow) (envelope : Json) : Prop :=
  envelope.field "type" = some (.str "scan") ∧
    envelope.field "verdict" = some (.str "clean") ∧
    envelope.field "quarantineId" = some (.str record.id) ∧
    envelope.field "tenantId" = some (.str record.tenantId) ∧
    envelope.field "contentHash" = some (.str record.contentHash)

/-- A stored envelope, validly signed by the configured trusted key, vouches for the item. -/
def Vouched (p : Platform) (crypto : Crypto) (host : Host) (record : QuarantineRow) : Prop :=
  ∃ anchor, host.keys.trustedSigningKeyId p crypto = some anchor ∧
    ∃ row ∈ host.db.attestations,
      verifyAttestation crypto row.signed (some anchor) = true ∧ Vouches record row.envelope

/-- The scan row that decides a release: the newest one stored for the item whose content column
is the item's and whose signature verifies. -/
def decidingScan (crypto : Crypto) (db : Database) (record : QuarantineRow)
    (trusted : Option String) : Option AttestationRow :=
  (scanRows db record.tenantId record.id).find? fun row =>
    row.contentHash = record.contentHash && verifyAttestation crypto row.signed trusted

/-- The deciding scan row exists and its verdict column says `clean`. -/
def DecidedClean (crypto : Crypto) (db : Database) (record : QuarantineRow)
    (trusted : Option String) : Prop :=
  ∃ row, decidingScan crypto db record trusted = some row ∧ row.verdict = some "clean"

/-- No trust anchor resolves, a signing key can still be had, and a scan under any key decides
clean. -/
def Unanchored (p : Platform) (crypto : Crypto) (host : Host) (record : QuarantineRow)
    (persist : Bool) (fresh : String) : Prop :=
  host.keys.trustedSigningKeyId p crypto = none ∧
    (∃ loaded, host.keys.loadOrCreateSigningKey p persist fresh = .ok loaded) ∧
    DecidedClean crypto host.db record none

/-- The columns of a scan the anchor signed decide clean, and no envelope the anchor signed
vouches for the item. -/
def Relabelled (p : Platform) (crypto : Crypto) (host : Host) (record : QuarantineRow) : Prop :=
  ∃ anchor, host.keys.trustedSigningKeyId p crypto = some anchor ∧
    DecidedClean crypto host.db record (some anchor) ∧
    ∀ row ∈ host.db.attestations,
      verifyAttestation crypto row.signed (some anchor) = true → ¬ Vouches record row.envelope

section

variable {p : Platform} {crypto : Crypto} {host : Host} {db : Database}
variable {record : QuarantineRow} {trusted : Option String}

/-- The loop of `scan_clean_attestation` stops at the first row that has the content and
verifies, and returns it when its verdict column says `clean`. -/
theorem latest_clean_scan_eq {hash : String} {rows : List AttestationRow}
    (hrows : ∀ row ∈ rows, row ∈ db.attestations) :
    latestCleanScan crypto db hash trusted rows =
      (rows.find? fun row => row.contentHash = hash &&
        verifyAttestation crypto row.signed trusted).filter (·.verdict = some "clean") := by
  induction rows with
  | nil => rfl
  | cons row rows ih =>
      have hrest := ih fun other hother => hrows other (List.mem_cons_of_mem _ hother)
      have hverify : verifyAttestationRecord crypto db row.id trusted =
          verifyAttestation crypto row.signed trusted :=
        verify_attestation_record_eq (hrows row List.mem_cons_self) trusted
      unfold latestCleanScan
      rw [List.find?_cons, hverify]
      by_cases hhash : row.contentHash = hash
      · cases hvalid : verifyAttestation crypto row.signed trusted with
        | true =>
            by_cases hclean : row.verdict = some "clean" <;>
            simp [hhash, hclean, Option.filter]
        | false => simpa [hhash] using hrest
      · simpa [hhash] using hrest

/-- A clean scan is found exactly when the deciding row's verdict column says so. -/
theorem scan_clean_attestation_isSome_iff (tenant : String) (hrecord : record ∈ db.quarantine)
    (htenant : record.tenantId = p.tenantOr tenant) :
    (∃ clean, scanCleanAttestation p crypto db record.id tenant trusted = some clean) ↔
      DecidedClean crypto db record trusted := by
  have hget : getQuarantine p db record.id (p.tenantOr tenant) = some record :=
    get_quarantine_eq hrecord (by simpa using htenant)
  simp only [scanCleanAttestation, hget]
  rw [← htenant, latest_clean_scan_eq fun row hrow => (mem_scan_rows.mp hrow).1]
  simp [DecidedClean, decidingScan, Option.filter_eq_some_iff]

/-- A release without an explicit key vouches for its item exactly when, for the held row it
addresses, neither failure is in place: unless the policy gate refuses or the attestation id is
taken, the trust anchor must resolve where a scan decides clean, and the deciding columns must
not be relabelled. -/
theorem release_vouched_iff (p : Platform) (crypto : Crypto) (host : Host) (id : String)
    (request : ReleaseRequest) (draw : Draw) (hkey : request.trustedKeyId = none) :
    (∀ outcome, releaseFromQuarantine p crypto host id request draw = .ok outcome →
        ∃ record, getQuarantine p host.db id request.tenantId = some record ∧
          Vouched p crypto host record) ↔
      ∀ record ∈ host.db.quarantine, record.id = id →
        record.tenantId = p.tenantOr request.tenantId → record.status = .quarantined →
        (∃ verdict, releasePolicyGate p request = .ok verdict) →
        (∀ row ∈ host.db.attestations, row.id ≠ draw.id) →
        ¬ Unanchored p crypto host record request.persist draw.key ∧
          ¬ Relabelled p crypto host record := by
  constructor
  · rintro hsound record hrecord rfl htenant hheld ⟨verdict, hgate⟩ hfresh
    -- Both failures let the release succeed, so the item is vouched for, which both deny.
    have hvouched : ∀ loaded, host.keys.loadOrCreateSigningKey p request.persist draw.key
          = .ok loaded →
        DecidedClean crypto host.db record (host.keys.trustedSigningKeyId p crypto) →
        Vouched p crypto host record := by
      rintro ⟨privateKey, keys⟩ hload hdecided
      obtain ⟨clean, hclean⟩ := (scan_clean_attestation_isSome_iff (p := p)
        (p.tenantOr request.tenantId) hrecord (by simpa using htenant)).mpr hdecided
      obtain ⟨outcome, hok⟩ := release_from_quarantine_of crypto
        (active_quarantine_eq hrecord (by simpa using htenant) hheld)
        (by rw [hkey]; exact hclean) hgate hload hfresh
      obtain ⟨found, hget, hfound⟩ := hsound outcome hok
      rw [get_quarantine_eq hrecord htenant] at hget
      cases hget
      exact hfound
    constructor
    · rintro ⟨hnone, ⟨loaded, hload⟩, hdecided⟩
      obtain ⟨anchor, hanchor, -⟩ := hvouched loaded hload (hnone ▸ hdecided)
      rw [hnone] at hanchor
      cases hanchor
    · rintro ⟨anchor, hanchor, hdecided, hnot⟩
      obtain ⟨privateKey, hload, -⟩ := load_signing_key_of_trusted request.persist draw.key hanchor
      obtain ⟨other, hother, row, hrow, hverify, hvouches⟩ :=
        hvouched _ hload (hanchor ▸ hdecided)
      rw [hanchor] at hother
      cases hother
      exact hnot row hrow hverify hvouches
  · intro hcond outcome hok
    obtain ⟨record, clean, signed, stored, table, hactive, hclean, hgate, hsign, hrow, hinsert,
      -⟩ := release_from_quarantine_ok hok
    obtain ⟨hrecord, rfl, htenant, hheld⟩ := active_quarantine_ok hactive
    rw [Platform.tenant_or_tenant_or] at htenant
    have hfresh : ∀ row ∈ host.db.attestations, row.id ≠ draw.id := by
      subst hrow
      exact Table.not_conflict_of_insert? hinsert
    have hdecided : DecidedClean crypto host.db record
        (resolvedTrust p crypto host.keys request.trustedKeyId) :=
      (scan_clean_attestation_isSome_iff _ hrecord (by simpa using htenant)).mp ⟨clean, hclean⟩
    rw [hkey] at hdecided
    obtain ⟨hanchored, hlabelled⟩ :=
      hcond record hrecord rfl htenant hheld ⟨_, hgate⟩ hfresh
    refine ⟨record, get_quarantine_eq hrecord htenant, ?_⟩
    cases hanchor : host.keys.trustedSigningKeyId p crypto with
    | none =>
        obtain ⟨privateKey, hload, -⟩ := sign_attestation_ok hsign
        exact absurd ⟨hanchor, ⟨_, hload⟩, by simpa [resolvedTrust, hanchor] using hdecided⟩
          hanchored
    | some anchor =>
        by_contra hnot
        refine hlabelled ⟨anchor, hanchor, by simpa [resolvedTrust, hanchor] using hdecided, ?_⟩
        intro row hmem hverify hvouches
        exact hnot ⟨anchor, hanchor, row, hmem, hverify, hvouches⟩

end

/-- A held skill. -/
def heldSkill : QuarantineRow :=
  { id := "qtn_1", tenantId := "asg", capabilityUri := "cap://user/asg/skill/notes@1.0.0"
    capabilityType := .skill, name := "notes", version := "1.0.0"
    sourcePath := "/skills/notes/SKILL.md", contentHash := "sha256:a", reason := .pendingScan
    status := .quarantined, submittedBy := none, metadata := [] }

/-- A scan attestation for the held skill, signed with a given key. -/
def scanSignedWith (key : String) : AttestationRow :=
  let envelope := scanEnvelope heldSkill "asg" .clean "capmesh-malware_scan" none [] "now"
  AttestationRow.sealWith .transparent
    { algorithm := "Ed25519", keyId := "sha256:public:" ++ key, publicKey := "public:" ++ key
      signature := Crypto.transparent.sign key envelope.canonicalText, envelope }
    { attestationColumns heldSkill "asg" .scan "att_1" with verdict := some "clean" }

/-- A host that holds the skill with one scan attestation, signed with a given key. -/
def heldHost (key : String) (keys : KeyStore) : Host where
  keys := keys
  db := { Database.empty with
    quarantine := ⟨[heldSkill], List.pairwise_singleton _ _⟩
    attestations := ⟨[scanSignedWith key], List.pairwise_singleton _ _⟩ }

/-- Without a key file any self-signed attestation releases the item, although no trust anchor
resolves. -/
theorem release_unanchored_counterexample :
    ¬ ∀ (p : Platform) (crypto : Crypto) (host : Host) (id : String) (request : ReleaseRequest)
      (draw : Draw) (outcome : ReleaseOutcome), request.trustedKeyId = none →
      releaseFromQuarantine p crypto host id request draw = .ok outcome →
      ∃ record, getQuarantine p host.db id request.tenantId = some record ∧
        Vouched p crypto host record := by
  intro hclaim
  have hrelease : (releaseFromQuarantine (.ascii fun _ => "") .transparent
      (heldHost "stranger" ⟨false, .absent, true⟩) "qtn_1" { tenantId := "asg", actor := "op" }
      ⟨"now", "att_2", "fresh"⟩).toBool = true := by decide +kernel
  cases hok : releaseFromQuarantine (.ascii fun _ => "") .transparent
      (heldHost "stranger" ⟨false, .absent, true⟩) "qtn_1" { tenantId := "asg", actor := "op" }
      ⟨"now", "att_2", "fresh"⟩ with
  | error failure =>
      rw [hok] at hrelease
      cases hrelease
  | ok outcome =>
      obtain ⟨record, -, anchor, hanchor, -⟩ := hclaim _ _ _ _ _ _ outcome rfl hok
      cases hanchor

theorem release_vouched_iff_trusted_scan :
    ({ tenantId := "asg", actor := "op" } : ReleaseRequest).trustedKeyId = none ∧
      ∀ outcome, releaseFromQuarantine (.ascii fun _ => "") .transparent
          (heldHost "k" ⟨true, .key "k", true⟩) "qtn_1" { tenantId := "asg", actor := "op" }
          ⟨"now", "att_2", "fresh"⟩ = .ok outcome →
        ∃ record, getQuarantine (.ascii fun _ => "") (heldHost "k" ⟨true, .key "k", true⟩).db
            "qtn_1" "asg" = some record ∧
          Vouched (.ascii fun _ => "") .transparent (heldHost "k" ⟨true, .key "k", true⟩)
            record := by
  refine ⟨rfl, (release_vouched_iff _ _ _ _ _ _ rfl).mpr ?_⟩
  intro record hrecord _ _ _ _ _
  obtain rfl : record = heldSkill := List.mem_singleton.mp hrecord
  constructor
  · rintro ⟨hnone, -⟩
    cases hnone
  · rintro ⟨anchor, hanchor, -, hnot⟩
    cases hanchor
    exact hnot (scanSignedWith "k") (List.mem_singleton.mpr rfl) (by decide +kernel)
      (by unfold Vouches; decide +kernel)

end Capmesh
