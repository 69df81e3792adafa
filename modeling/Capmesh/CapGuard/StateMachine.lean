import Capmesh.CapGuard.Quarantine
import Capmesh.Execution.Run

/-!
# The CapGuard state machine

Calls of the four quarantine operations as the actions of a machine; a refused call
leaves the host as it is. `guard_step_amends` says what one call may do to one
quarantine row, and every safety result about rows follows from it. `Coherent` is the
invariant that ties the attestations to their rows: while the trust anchor is in
place, each was made for a stored row and verifies against the anchor.
-/

namespace Capmesh

open Python Relational Execution

/-- One call of an operation on the quarantine store. -/
inductive GuardCall where
  | quarantine (request : QuarantineRequest) (id : String)
  | scan (id tenant : String) (result : ScanResult) (scannerId : String)
      (scannerVersion : Option String) (persist : Bool) (draw : Draw)
  | release (id : String) (request : ReleaseRequest) (draw : Draw)
  | reject (id tenant actor reason : String) (persist : Bool) (draw : Draw)

/-- The tenant a call is addressed with. -/
def GuardCall.tenant : GuardCall → String
  | .quarantine request _ => request.tenantId
  | .scan _ tenant .. => tenant
  | .release _ request _ => request.tenantId
  | .reject _ tenant .. => tenant

/-- The status a call sets on the row it is addressed to. -/
def GuardCall.decision : GuardCall → Option QuarantineStatus
  | .release .. => some .released
  | .reject .. => some .rejected
  | _ => none

/-- The quarantine item a call releases or rejects. -/
def GuardCall.decides : GuardCall → Option String
  | .release id .. => some id
  | .reject id .. => some id
  | _ => none

/-- The approval state a CapGuard call sets. -/
def GuardCall.sets : GuardCall → Option ApprovalState
  | .release .. => some .published
  | .reject .. => some .rejected
  | _ => none

/-- The host a successful call leaves. -/
def guardCall (p : Platform) (crypto : Crypto) (host : Host) :
    GuardCall → Except Failure Host
  | .quarantine request id =>
      (fun result => ⟨result.2, host.keys⟩) <$> quarantineCapability p host.db request id
  | .scan id tenant result scannerId scannerVersion persist draw =>
      (·.2) <$> issueScanAttestation p crypto host id tenant result scannerId scannerVersion
        persist draw
  | .release id request draw => (·.host) <$> releaseFromQuarantine p crypto host id request draw
  | .reject id tenant actor reason persist draw =>
      (·.2) <$> rejectFromQuarantine p crypto host id tenant actor reason persist draw

/-- One step of the machine. -/
def guardStep (p : Platform) (crypto : Crypto) (host : Host) (call : GuardCall) : Host :=
  match guardCall p crypto host call with
  | .ok result => result
  | .error _ => host

/-- What a call may make of a quarantine row. It is unchanged, or it is held by the call's
tenant and gets a new reason or the call's decision. -/
inductive Amends (p : Platform) (call : GuardCall) (row : QuarantineRow) : QuarantineRow → Prop
  | same : Amends p call row row
  | rescanned (reason : QuarantineReason) (htenant : row.tenantId = p.tenantOr call.tenant)
      (hheld : row.status = .quarantined) : Amends p call row { row with reason }
  | closed (status : QuarantineStatus) (hdecision : call.decision = some status)
      (htenant : row.tenantId = p.tenantOr call.tenant) (hheld : row.status = .quarantined)
      (hdecides : call.decides = some row.id) : Amends p call row { row with status }

/-- The last scan attestation stored for a quarantine item that the trusted key signed. -/
def lastTrustedScan (crypto : Crypto) (anchor : String) (db : Database) (id : String) :
    Option AttestationRow :=
  (db.attestations.rows.filter fun row =>
    row.quarantineId = id && row.attestationType = .scan &&
      verifyAttestation crypto row.signed (some anchor)).getLast?

/-- While the trust anchor is in place, every attestation was made for a stored row and verifies
against the anchor. -/
structure Coherent (p : Platform) (crypto : Crypto) (anchor : String) (host : Host) : Prop where
  anchored : host.keys.trustedSigningKeyId p crypto = some anchor
  sealed : ∀ row ∈ host.db.attestations, verifyAttestation crypto row.signed (some anchor) = true
  attested : ∀ row ∈ host.db.attestations, ∃ record ∈ host.db.quarantine,
    record.id = row.quarantineId ∧ record.tenantId = row.tenantId ∧
      record.contentHash = row.contentHash

section

variable {p : Platform} {crypto : Crypto} {host : Host} {call : GuardCall}
variable {row new : QuarantineRow} {anchor : String} {record : QuarantineRow} {db : Database}
variable {hash : String}

theorem Amends.id (h : Amends p call row new) : new.id = row.id := by
  cases h <;> rfl

theorem Amends.tenantId (h : Amends p call row new) : new.tenantId = row.tenantId := by
  cases h <;> rfl

theorem Amends.contentHash (h : Amends p call row new) : new.contentHash = row.contentHash := by
  cases h <;> rfl

theorem Amends.capabilityUri (h : Amends p call row new) :
    new.capabilityUri = row.capabilityUri := by
  cases h <;> rfl

theorem Amends.status_of_undecided (h : Amends p call row new)
    (hdecides : call.decides ≠ some row.id) : new.status = row.status := by
  cases h with
  | same => rfl
  | rescanned reason => rfl
  | closed status _ _ _ h => exact absurd h hdecides

theorem Amends.eq_of_tenant (h : Amends p call row new)
    (htenant : p.tenantOr call.tenant ≠ row.tenantId) : new = row := by
  cases h with
  | same => rfl
  | rescanned reason h => exact absurd h.symm htenant
  | closed status _ h => exact absurd h.symm htenant

/-- A row that is no longer held stays as it is. -/
theorem Amends.eq_of_closed (h : Amends p call row new) (hclosed : row.status ≠ .quarantined) :
    new = row := by
  cases h with
  | same => rfl
  | rescanned reason _ hheld => exact absurd hheld hclosed
  | closed status _ _ hheld => exact absurd hheld hclosed

/-- A call that succeeds leaves its host; one that fails leaves the host before it. -/
theorem guard_step_cases (p : Platform) (crypto : Crypto) (host : Host) (call : GuardCall) :
    guardStep p crypto host call = host ∨
    guardCall p crypto host call = .ok (guardStep p crypto host call) := by
  unfold guardStep
  cases guardCall p crypto host call with
  | error failure => exact .inl rfl
  | ok result => exact .inr rfl

theorem amends_set_reason {reason : QuarantineReason} (hrecord : record ∈ db.quarantine)
    (htenant : record.tenantId = p.tenantOr call.tenant) (hheld : record.status = .quarantined)
    (hrow : row ∈ db.quarantine) : Amends p call row (row.setReason record.id reason) := by
  unfold QuarantineRow.setReason
  split
  · have heq : row = record := Table.eq_of_conflict hrow hrecord (.inl ‹_›)
    exact .rescanned reason (heq ▸ htenant) (heq ▸ hheld)
  · exact .same

theorem amends_close {status : QuarantineStatus} (hdecision : call.decision = some status)
    (hdecides : call.decides = some record.id) (hrecord : record ∈ db.quarantine)
    (htenant : record.tenantId = p.tenantOr call.tenant) (hheld : record.status = .quarantined)
    (hrow : row ∈ db.quarantine) : Amends p call row (row.close record.id status) := by
  unfold QuarantineRow.close
  split
  · have heq : row = record := Table.eq_of_conflict hrow hrecord (.inl ‹_›)
    exact .closed status hdecision (heq ▸ htenant) (heq ▸ hheld) (heq ▸ hdecides)
  · exact .same

/-- What a call does to the quarantine store: it amends the rows in place and adds at most one,
which is held. -/
theorem guard_step_rows (p : Platform) (crypto : Crypto) (host : Host) (call : GuardCall) :
    ∃ (amend : QuarantineRow → QuarantineRow) (added : List QuarantineRow),
      (guardStep p crypto host call).db.quarantine.rows =
        host.db.quarantine.rows.map amend ++ added ∧
      (∀ row ∈ host.db.quarantine, Amends p call row (amend row)) ∧
      ∀ row ∈ added, row.status = .quarantined := by
  rcases guard_step_cases p crypto host call with hstep | hstep
  · exact ⟨fun row => row, [], by simp [hstep], fun _ _ => .same, by simp⟩
  generalize guardStep p crypto host call = result at hstep
  cases call with
  | quarantine request id =>
      obtain ⟨⟨record, db⟩, hok, rfl⟩ := map_eq_ok hstep
      obtain ⟨hholds, -, rfl | ⟨table, hinsert, rfl⟩⟩ := quarantine_capability_ok hok
      · exact ⟨fun row => row, [], by simp, fun _ _ => .same, by simp⟩
      · exact ⟨fun row => row, [record], by simp [Table.rows_insert? hinsert], fun _ _ => .same,
          by simpa using hholds.2.2.2⟩
  | scan id tenant scan scannerId scannerVersion persist draw =>
      obtain ⟨⟨stored, host'⟩, hok, rfl⟩ := map_eq_ok hstep
      obtain ⟨record, signed, table, hactive, -, -, -, hdb⟩ := issue_scan_attestation_ok hok
      obtain ⟨hrecord, rfl, htenant, hheld⟩ := active_quarantine_ok hactive
      rw [Platform.tenant_or_tenant_or] at htenant
      rw [hdb]
      split
      · exact ⟨(·.setReason record.id .scanFailed), [], by simp [Database.setReason],
          fun row hrow => amends_set_reason hrecord htenant hheld hrow, by simp⟩
      · exact ⟨fun row => row, [], by simp, fun _ _ => .same, by simp⟩
  | release id request draw =>
      obtain ⟨outcome, hok, rfl⟩ := map_eq_ok hstep
      obtain ⟨record, clean, signed, stored, table, hactive, -, -, -, -, -, -, hdb⟩ :=
        release_from_quarantine_ok hok
      obtain ⟨hrecord, rfl, htenant, hheld⟩ := active_quarantine_ok hactive
      rw [Platform.tenant_or_tenant_or] at htenant
      refine ⟨(·.close record.id .released), [], ?_,
        fun row hrow => amends_close rfl rfl hrecord htenant hheld hrow, by simp⟩
      simp [hdb, Database.decideCapability, Database.closeQuarantine]
  | reject id tenant actor reason persist draw =>
      obtain ⟨⟨closed, host'⟩, hok, rfl⟩ := map_eq_ok hstep
      obtain ⟨record, signed, stored, table, hactive, -, -, -, hdb⟩ :=
        reject_from_quarantine_ok hok
      obtain ⟨hrecord, rfl, htenant, hheld⟩ := active_quarantine_ok hactive
      rw [Platform.tenant_or_tenant_or] at htenant
      refine ⟨(·.close record.id .rejected), [], ?_,
        fun row hrow => amends_close rfl rfl hrecord htenant hheld hrow, by simp⟩
      simp [hdb, Database.decideCapability, Database.closeQuarantine]

theorem decide_cases (y : CapabilityRow) {tenant uri : String} {lifecycle : Lifecycle}
    {approvalState : ApprovalState} (h : approvalState ≠ .approved) :
    y.decide tenant uri hash lifecycle approvalState = y ∨ ∃ lifecycle' approvalState',
      approvalState' ≠ .approved ∧ y.decide tenant uri hash lifecycle approvalState =
        { y with cap := { y.cap with
          lifecycle := lifecycle', approvalState := approvalState' } } := by
  unfold CapabilityRow.decide
  split
  · exact .inr ⟨lifecycle, approvalState, h, rfl⟩
  · exact .inl rfl

/-- A call that succeeds keeps the capability rows, or decides those of the content it releases or
rejects. -/
theorem guard_call_capabilities {next : Host} (h : guardCall p crypto host call = .ok next) :
    (∀ x, x ∈ next.db.capabilities ↔ x ∈ host.db.capabilities) ∨
      ∃ record ∈ host.db.quarantine, ∃ lifecycle state, call.decides = some record.id ∧
        call.sets = some state ∧ ∀ x, x ∈ next.db.capabilities ↔ ∃ y ∈ host.db.capabilities,
          y.decide (p.tenantOr call.tenant) record.capabilityUri record.contentHash lifecycle
            state = x := by
  cases call with
  | quarantine request id =>
      obtain ⟨⟨record, db⟩, hok, rfl⟩ := map_eq_ok h
      obtain ⟨-, -, rfl | ⟨table, -, rfl⟩⟩ := quarantine_capability_ok hok
      · exact .inl fun _ => Iff.rfl
      · exact .inl fun _ => Iff.rfl
  | scan id tenant scan scannerId scannerVersion persist draw =>
      obtain ⟨⟨stored, host'⟩, hok, rfl⟩ := map_eq_ok h
      obtain ⟨record, signed, table, -, -, -, -, hdb⟩ := issue_scan_attestation_ok hok
      left
      rw [hdb]
      split <;> exact fun _ => Iff.rfl
  | release id request draw =>
      obtain ⟨outcome, hok, rfl⟩ := map_eq_ok h
      obtain ⟨record, clean, signed, stored, table, hactive, -, -, -, -, -, -, hdb⟩ :=
        release_from_quarantine_ok hok
      obtain ⟨hrecord, rfl, -, -⟩ := active_quarantine_ok hactive
      refine .inr ⟨record, hrecord, .active, .published, rfl, rfl, fun x => ?_⟩
      rw [hdb]
      exact Table.mem_map (decide_conflict _ _ _ _ _) x
  | reject id tenant actor reason persist draw =>
      obtain ⟨⟨closed, host'⟩, hok, rfl⟩ := map_eq_ok h
      obtain ⟨record, signed, stored, table, hactive, -, -, -, hdb⟩ := reject_from_quarantine_ok hok
      obtain ⟨hrecord, rfl, -, -⟩ := active_quarantine_ok hactive
      refine .inr ⟨record, hrecord, .disabled, .rejected, rfl, rfl, fun x => ?_⟩
      rw [hdb]
      exact Table.mem_map (decide_conflict _ _ _ _ _) x

/-- What a call does to the capability rows: each stays, and a decided one gets a lifecycle and an
approval state that is not `approved`. -/
theorem guard_step_capabilities (p : Platform) (crypto : Crypto) (host : Host) (call : GuardCall) :
    ∃ decided : CapabilityRow → CapabilityRow,
      (∀ x, x ∈ (guardStep p crypto host call).db.capabilities ↔
        ∃ y ∈ host.db.capabilities, decided y = x) ∧
      ∀ y, decided y = y ∨ ∃ lifecycle approvalState, approvalState ≠ .approved ∧
        decided y = { y with cap := { y.cap with lifecycle, approvalState } } := by
  rcases guard_step_cases p crypto host call with hstep | hstep
  · exact ⟨fun row => row, by simp [hstep], fun _ => .inl rfl⟩
  rcases guard_call_capabilities hstep with
    hkept | ⟨record, -, lifecycle, state, -, hsets, hdecided⟩
  · exact ⟨fun row => row, by simp [hkept], fun _ => .inl rfl⟩
  · have hstate : state ≠ .approved := by
      rintro rfl
      cases call <;> cases hsets
    exact ⟨_, hdecided, fun y => decide_cases y hstate⟩

theorem guard_step_amends (crypto : Crypto) (call : GuardCall) (hrow : row ∈ host.db.quarantine) :
    ∃ new ∈ (guardStep p crypto host call).db.quarantine, Amends p call row new := by
  obtain ⟨amend, added, hrows, hamends, -⟩ := guard_step_rows p crypto host call
  refine ⟨amend row, ?_, hamends row hrow⟩
  rw [← Table.mem_rows, hrows]
  exact List.mem_append_left _ (List.mem_map_of_mem hrow)

theorem guard_step_added (hnew : new ∈ (guardStep p crypto host call).db.quarantine)
    (hadded : ∀ row ∈ host.db.quarantine, row.id ≠ new.id) : new.status = .quarantined := by
  obtain ⟨amend, added, hrows, hamends, hheld⟩ :=
    guard_step_rows p crypto host call
  rw [← Table.mem_rows, hrows, List.mem_append, List.mem_map] at hnew
  rcases hnew with ⟨row, hrow, rfl⟩ | hnew
  · exact absurd (hamends row hrow).id.symm (hadded row hrow)
  · exact hheld new hnew

/-- With the anchor in place, a new signature verifies against it and the key store stays as it
is. -/
theorem sign_attestation_anchored {envelope : Json} {persist : Bool} {fresh : String}
    {signed : SignedAttestation} {keys store : KeyStore}
    (hanchor : keys.trustedSigningKeyId p crypto = some anchor)
    (h : signAttestation p crypto keys envelope persist fresh = .ok (signed, store)) :
    store = keys ∧ verifyAttestation crypto signed (some anchor) = true := by
  obtain ⟨privateKey, hload, hid⟩ :=
    load_signing_key_of_trusted persist fresh hanchor
  obtain ⟨result, hresult, -, hkey, hverify⟩ :=
    sign_attestation_of_load crypto envelope hload
  rw [hresult] at h
  cases h
  have hanchored : signed.keyId = anchor := by simpa [hid] using hkey
  exact ⟨rfl, hanchored ▸ hverify⟩

theorem Coherent.attest {result : Host} {stored : AttestationRow} {table : Table AttestationRow}
    {id tenant verb fresh : String} {envelope : Json} {persist : Bool} {signed : SignedAttestation}
    (hcoherent : Coherent p crypto anchor host)
    (hactive : activeQuarantine p host.db id (p.tenantOr tenant) verb = .ok record)
    (hsign : signAttestation p crypto host.keys envelope persist fresh = .ok (signed, result.keys))
    (hinsert : host.db.attestations.insert? stored = some table)
    (htable : result.db.attestations = table)
    (hrows : ∀ row ∈ host.db.quarantine, ∃ new ∈ result.db.quarantine, Amends p call row new)
    (hid : stored.quarantineId = record.id) (htenant : stored.tenantId = p.tenantOr tenant)
    (hhash : stored.contentHash = record.contentHash) (hsigned : stored.signed = signed) :
    Coherent p crypto anchor result := by
  obtain ⟨hrecord, -, hheld, -⟩ := active_quarantine_ok hactive
  obtain ⟨hkeys, hverify⟩ := sign_attestation_anchored hcoherent.anchored hsign
  rw [Platform.tenant_or_tenant_or] at hheld
  refine ⟨hkeys ▸ hcoherent.anchored, ?_, ?_⟩
  · intro row hrow
    rw [htable] at hrow
    rcases (Table.mem_insert? hinsert row).mp hrow with hold | rfl
    · exact hcoherent.sealed row hold
    · rwa [hsigned]
  · intro row hrow
    rw [htable] at hrow
    have hsource : ∃ source ∈ host.db.quarantine, source.id = row.quarantineId ∧
        source.tenantId = row.tenantId ∧ source.contentHash = row.contentHash := by
      rcases (Table.mem_insert? hinsert row).mp hrow with hold | rfl
      · exact hcoherent.attested row hold
      · exact ⟨record, hrecord, hid.symm, hheld.trans htenant.symm, hhash.symm⟩
    obtain ⟨source, hmem, hsid, hstenant, hshash⟩ := hsource
    obtain ⟨new, hnew, hamends⟩ := hrows source hmem
    exact ⟨new, hnew, hamends.id.trans hsid, hamends.tenantId.trans hstenant,
      hamends.contentHash.trans hshash⟩

theorem Coherent.step (hcoherent : Coherent p crypto anchor host) (call : GuardCall) :
    Coherent p crypto anchor (guardStep p crypto host call) := by
  have hrows : ∀ row ∈ host.db.quarantine,
      ∃ new ∈ (guardStep p crypto host call).db.quarantine, Amends p call row new :=
    fun row hrow => guard_step_amends crypto call hrow
  rcases guard_step_cases p crypto host call with hstep | hstep
  · rwa [hstep]
  generalize guardStep p crypto host call = result at hstep hrows
  cases call with
  | quarantine request id =>
      obtain ⟨⟨record, db⟩, hok, rfl⟩ := map_eq_ok hstep
      obtain ⟨-, -, rfl | ⟨table, hinsert, rfl⟩⟩ := quarantine_capability_ok hok
      · exact hcoherent
      · refine ⟨hcoherent.anchored, hcoherent.sealed, fun row hrow => ?_⟩
        obtain ⟨source, hmem, hsource⟩ := hcoherent.attested row hrow
        exact ⟨source, (Table.mem_insert? hinsert source).mpr (.inl hmem), hsource⟩
  | scan id tenant scan scannerId scannerVersion persist draw =>
      obtain ⟨⟨stored, host'⟩, hok, rfl⟩ := map_eq_ok hstep
      obtain ⟨record, signed, table, hactive, hsign, hinsert, hrow, hdb⟩ :=
        issue_scan_attestation_ok hok
      subst hrow
      refine hcoherent.attest hactive hsign hinsert ?_ hrows rfl rfl rfl rfl
      rw [hdb]
      split <;> rfl
  | release id request draw =>
      obtain ⟨outcome, hok, rfl⟩ := map_eq_ok hstep
      obtain ⟨record, clean, signed, stored, table, hactive, -, -, hsign, hrow, hinsert, -, hdb⟩ :=
        release_from_quarantine_ok hok
      subst hrow
      refine hcoherent.attest hactive hsign hinsert ?_ hrows rfl rfl rfl rfl
      rw [hdb]
      rfl
  | reject id tenant actor reason persist draw =>
      obtain ⟨⟨closed, host'⟩, hok, rfl⟩ := map_eq_ok hstep
      obtain ⟨record, signed, stored, table, hactive, hsign, hrow, hinsert, hdb⟩ :=
        reject_from_quarantine_ok hok
      subst hrow
      refine hcoherent.attest hactive hsign hinsert ?_ hrows rfl rfl rfl rfl
      rw [hdb]
      rfl

/-- A host whose quarantine store is new is coherent. -/
theorem coherent_of_empty (hanchor : host.keys.trustedSigningKeyId p crypto = some anchor)
    (hempty : host.db.attestations = .empty) : Coherent p crypto anchor host := by
  refine ⟨hanchor, ?_, ?_⟩ <;> · intro row hrow; simp [hempty] at hrow

theorem verify_anchored {attestation : SignedAttestation}
    (h : verifyAttestation crypto attestation (some anchor) = true) (trusted : Option String) :
    verifyAttestation crypto attestation trusted = true ↔
      ∀ pin, trusted = some pin → anchor = pin := by
  rw [verify_attestation_iff] at h ⊢
  obtain ⟨halg, hid, hkey, hsig⟩ := h
  rw [hkey anchor rfl]
  exact ⟨fun hverify => hverify.2.2.1, fun hpin => ⟨halg, hkey anchor rfl ▸ hid, hpin, hsig⟩⟩

theorem latest_clean_scan_unverified {trusted : Option String} {rows : List AttestationRow}
    (hrows : ∀ row ∈ rows, verifyAttestationRecord crypto db row.id trusted = false) :
    latestCleanScan crypto db hash trusted rows = none := by
  induction rows with
  | nil => rfl
  | cons row rows ih =>
      have hrest := ih fun other hother => hrows other (List.mem_cons_of_mem _ hother)
      simp [latestCleanScan, hrows row List.mem_cons_self, hrest]

theorem latest_clean_scan_head (anchor : String) {trusted : Option String} {clean : AttestationRow}
    {rows : List AttestationRow}
    (hrows : ∀ row ∈ rows, row ∈ db.attestations ∧ row.contentHash = hash ∧
      verifyAttestation crypto row.signed (some anchor) = true)
    (h : latestCleanScan crypto db hash trusted rows = some clean) :
    rows.head? = some clean ∧ clean.verdict = some "clean" := by
  by_cases hpin : ∀ pin, trusted = some pin → anchor = pin
  · cases rows with
    | nil => simp [latestCleanScan] at h
    | cons row rows =>
        obtain ⟨hmem, hhash, hanchor⟩ := hrows row List.mem_cons_self
        have hverify : verifyAttestationRecord crypto db row.id trusted = true := by
          rw [verify_attestation_record_eq hmem]
          exact (verify_anchored hanchor trusted).mpr hpin
        simp only [latestCleanScan, hhash, hverify, ne_eq, not_true_eq_false, if_false,
          Bool.not_true, Bool.false_eq_true] at h
        split at h
        · cases h
          exact ⟨rfl, ‹_›⟩
        · cases h
  · have hnone : latestCleanScan crypto db hash trusted rows = none := by
      refine latest_clean_scan_unverified fun row hrow => ?_
      obtain ⟨hmem, -, hanchor⟩ := hrows row hrow
      rw [verify_attestation_record_eq hmem, Bool.eq_false_iff]
      exact fun hverify => hpin ((verify_anchored hanchor trusted).mp hverify)
    rw [hnone] at h
    cases h

theorem Coherent.scan_rows_head (hcoherent : Coherent p crypto anchor host)
    (hrow : row ∈ host.db.quarantine) :
    (scanRows host.db row.tenantId row.id).head? =
      lastTrustedScan crypto anchor host.db row.id := by
  unfold scanRows lastTrustedScan
  rw [List.head?_reverse]
  congr 1
  refine List.filter_congr fun attestation hmem => ?_
  by_cases hid : attestation.quarantineId = row.id
  · obtain ⟨record, hrecord, hsame, htenant, -⟩ := hcoherent.attested attestation hmem
    have heq : record = row := Table.eq_of_conflict hrecord hrow (.inl (hsame.trans hid))
    simp [hid, ← htenant, heq, hcoherent.sealed attestation hmem]
  · simp [hid]

theorem Coherent.release_clean {id : String} {request : ReleaseRequest} {draw : Draw}
    {outcome : ReleaseOutcome} (hcoherent : Coherent p crypto anchor host)
    (h : releaseFromQuarantine p crypto host id request draw = .ok outcome) :
    ∃ clean, lastTrustedScan crypto anchor host.db id = some clean ∧
      clean.verdict = some "clean" := by
  obtain ⟨record, clean, signed, stored, table, hactive, hclean, -⟩ := release_from_quarantine_ok h
  obtain ⟨hrecord, rfl, htenant, -⟩ := active_quarantine_ok hactive
  rw [Platform.tenant_or_tenant_or] at htenant
  have hget : getQuarantine p host.db record.id (p.tenantOr request.tenantId) = some record :=
    get_quarantine_eq hrecord (by simpa using htenant)
  simp only [scanCleanAttestation, Platform.tenant_or_tenant_or, hget] at hclean
  obtain ⟨hhead, hverdict⟩ := latest_clean_scan_head anchor (fun row hrow => by
    obtain ⟨hmem, -, hid, -⟩ := mem_scan_rows.mp hrow
    obtain ⟨source, hsource, hsame, -, hhash⟩ := hcoherent.attested row hmem
    have heq : source = record := Table.eq_of_conflict hsource hrecord (.inl (hsame.trans hid))
    exact ⟨hmem, heq ▸ hhash.symm, hcoherent.sealed row hmem⟩) hclean
  rw [← htenant, hcoherent.scan_rows_head hrecord] at hhead
  exact ⟨clean, hhead, hverdict⟩

theorem released_only_after_clean_scan (hcoherent : Coherent p crypto anchor host)
    (hrow : row ∈ host.db.quarantine) (hheld : row.status = .quarantined)
    (hnew : new ∈ (guardStep p crypto host call).db.quarantine) (hid : new.id = row.id)
    (hreleased : new.status = .released) :
    ∃ clean, lastTrustedScan crypto anchor host.db row.id = some clean ∧
      clean.verdict = some "clean" := by
  have hchanged : new ≠ row := by
    rintro rfl
    rw [hheld] at hreleased
    cases hreleased
  obtain ⟨other, hother, hamends⟩ := guard_step_amends crypto call hrow
  have heq : other = new := Table.eq_of_conflict hother hnew (.inl (hamends.id.trans hid.symm))
  subst heq
  cases hamends with
  | same => exact absurd rfl hchanged
  | rescanned reason => rw [hheld] at hreleased; cases hreleased
  | closed status hdecision =>
      cases call with
      | quarantine => cases hdecision
      | scan => cases hdecision
      | reject => cases hdecision; cases hreleased
      | release id request draw =>
          rcases guard_step_cases p crypto host (.release id request draw)
            with hstep | hstep
          · rw [hstep] at hother
            exact absurd (Table.eq_of_conflict hother hrow (.inl rfl)) hchanged
          obtain ⟨outcome, hok, hresult⟩ := map_eq_ok hstep
          obtain ⟨record, clean, signed, stored, table, -, -, -, -, -, -, -, hdb⟩ :=
            release_from_quarantine_ok hok
          rw [← hresult, hdb] at hother
          -- Only the row the call names was rewritten, so that row is this one.
          by_cases hnamed : row.id = id
          · rw [hnamed]
            exact hcoherent.release_clean hok
          · have hkept : row.close id .released = row := if_neg hnamed
            have hmem : row ∈ (({ host.db with attestations := table } : Database).closeQuarantine
                id .released (by decide)).quarantine :=
              (mem_close_quarantine (by decide)).mpr ⟨row, hrow, hkept⟩
            exact absurd (Table.eq_of_conflict hother hmem (.inl rfl)) hchanged

/-- The CapGuard state machine. After every sequence of calls on a host without attestations
whose trust anchor is in place, one row at most is held for each tenant, URI and content; a row
that is no longer held stays exactly as it is through every further sequence; and whatever the
next call is, a row it adds is held, and every other row survives it with its identity, its
status moves only from held to released or rejected, a release finds the last trusted scan
clean, and a call addressed with another tenant changes nothing. -/
theorem capguard_state_machine (p : Platform) (crypto : Crypto) (anchor : String) (host : Host)
    (hattestations : host.db.attestations = .empty)
    (hanchor : host.keys.trustedSigningKeyId p crypto = some anchor) (calls : List GuardCall) :
    let reached := run (guardStep p crypto) host calls
    (∀ a ∈ reached.db.quarantine, ∀ b ∈ reached.db.quarantine, a.status = .quarantined →
      b.Holds a.tenantId a.capabilityUri a.contentHash → a = b) ∧
    (∀ row ∈ reached.db.quarantine, row.status ≠ .quarantined → ∀ more : List GuardCall,
      row ∈ (run (guardStep p crypto) reached more).db.quarantine) ∧
    (∀ call : GuardCall, ∀ new ∈ (guardStep p crypto reached call).db.quarantine,
      (∀ row ∈ reached.db.quarantine, row.id ≠ new.id) → new.status = .quarantined) ∧
    (∀ row ∈ reached.db.quarantine, ∀ call : GuardCall,
      ∃ new ∈ (guardStep p crypto reached call).db.quarantine,
        (new.id = row.id ∧ new.tenantId = row.tenantId ∧ new.capabilityUri = row.capabilityUri ∧
          new.contentHash = row.contentHash) ∧
        (new.status = row.status ∨ (row.status = .quarantined ∧
          (new.status = .released ∨ new.status = .rejected))) ∧
        (row.status = .quarantined → new.status = .released →
          ∃ clean, lastTrustedScan crypto anchor reached.db row.id = some clean ∧
            clean.verdict = some "clean") ∧
        (p.tenantOr call.tenant ≠ row.tenantId → new = row)) := by
  intro reached
  have hcoherent : Coherent p crypto anchor reached :=
    run_invariant (I := Coherent p crypto anchor) (fun _ call h => h.step call) calls
      (coherent_of_empty hanchor hattestations)
  refine ⟨fun a ha b hb hheld hholds => Table.eq_of_conflict ha hb (.inr ⟨hheld, hholds⟩), ?_,
    fun call new hnew hadded => guard_step_added hnew hadded, ?_⟩
  · intro row hrow hclosed more
    refine run_invariant (I := fun host : Host => row ∈ host.db.quarantine) ?_ more hrow
    intro host call hmem
    obtain ⟨new, hnew, hamends⟩ := guard_step_amends crypto call hmem
    exact hamends.eq_of_closed hclosed ▸ hnew
  · intro row hrow call
    obtain ⟨new, hnew, hamends⟩ := guard_step_amends crypto call hrow
    refine ⟨new, hnew, ?_, ?_, fun hheld hreleased => released_only_after_clean_scan hcoherent
      hrow hheld hnew hamends.id hreleased, hamends.eq_of_tenant⟩
    · cases hamends <;> exact ⟨rfl, rfl, rfl, rfl⟩
    · cases hamends with
      | same => exact .inl rfl
      | rescanned reason => exact .inl rfl
      | closed status hdecision _ hheld =>
          refine .inr ⟨hheld, ?_⟩
          cases call with
          | quarantine => cases hdecision
          | scan => cases hdecision
          | release => cases hdecision; exact .inl rfl
          | reject => cases hdecision; exact .inr rfl

end

/-- A skill held, scanned clean, and released, on a host with a signing key. -/
def releaseScenario : List GuardCall :=
  [.quarantine
      { tenantId := "asg", capabilityUri := "cap://user/asg/skill/notes@1.0.0"
        capabilityType := .skill, name := "notes", version := "1.0.0"
        sourcePath := "/skills/notes/SKILL.md", contentHash := "sha256:a" } "qtn_1",
    .scan "qtn_1" "asg" ⟨some true, none, [], some 0, some 0, none, none⟩ "capmesh-malware_scan"
      none true ⟨"now", "att_1", ""⟩,
    .release "qtn_1" { tenantId := "asg", actor := "op@asg" } ⟨"now", "att_2", ""⟩]

theorem capguard_state_machine_release_scenario :
    let host := run (guardStep (.ascii fun _ => "") .transparent)
      ⟨.empty, ⟨true, .key "k", true⟩⟩ releaseScenario
    host.db.quarantine.rows.map (·.status) = [.released] ∧
    ∀ row ∈ host.db.quarantine, row.status ≠ .quarantined → ∀ more : List GuardCall,
      row ∈ (run (guardStep (.ascii fun _ => "") .transparent) host more).db.quarantine := by
  refine ⟨?_, (capguard_state_machine (.ascii fun _ => "") .transparent "sha256:public:k"
    ⟨.empty, ⟨true, .key "k", true⟩⟩ rfl (by decide) releaseScenario).2.1⟩
  decide +kernel

end Capmesh
