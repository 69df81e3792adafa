import Capmesh.Model.Capability
import Capmesh.Relational.Table

/-!
# The catalog database

The tables that ingest, CapGuard, promotion, and sharing read and write, with the
uniqueness constraints of the schema. A capability row stores every column of the
record it was written from; `metadata_json` is stored with sorted keys. Columns no
modelled operation reads (timestamps, titles of requests, audit rows) are left out.
-/

namespace Capmesh

open Python Relational

/-- A row of `capabilities`. -/
structure CapabilityRow where
  id : Nat
  cap : Capability
  deriving DecidableEq, Repr

/-- The primary key, `uri`, and `canonical_key` are unique. -/
instance : Constrained CapabilityRow where
  Conflict a b :=
    a.id = b.id ∨ a.cap.uri = b.cap.uri ∨ a.cap.canonicalKey = b.cap.canonicalKey
  symm h := by
    rcases h with h | h | h
    · exact .inl h.symm
    · exact .inr (.inl h.symm)
    · exact .inr (.inr h.symm)

/-- A row of `capability_fts`. -/
structure FtsRow where
  rowid : Nat
  uri : String
  name : String
  title : String
  description : String
  keywords : String
  plugin : String
  category : String
  content : String
  deriving DecidableEq, Repr

instance : Constrained FtsRow where
  Conflict a b := a.rowid = b.rowid
  symm h := h.symm

/-- A row of `capability_sources`. -/
structure SourceRow where
  sourcePath : String
  uri : String
  sourceKind : String
  sourceSystem : String
  contentHash : String
  deriving DecidableEq, Repr

instance : Constrained SourceRow where
  Conflict a b := a.sourcePath = b.sourcePath
  symm h := h.symm

/-- A row of `capability_vec`. -/
structure VectorRow where
  rowid : Nat
  embedding : String
  deriving DecidableEq, Repr

instance : Constrained VectorRow where
  Conflict a b := a.rowid = b.rowid
  symm h := h.symm

/-- `QUARANTINE_STATUSES`. -/
inductive QuarantineStatus where
  | quarantined | released | rejected | superseded
  deriving DecidableEq, Repr

/-- The stored text of a quarantine status. -/
def QuarantineStatus.text : QuarantineStatus → String
  | .quarantined => "quarantined"
  | .released => "released"
  | .rejected => "rejected"
  | .superseded => "superseded"

/-- `QUARANTINE_REASONS`. -/
inductive QuarantineReason where
  | pendingScan | scanFailed | manualHold | resubmitted
  deriving DecidableEq, Repr

/-- `QUARANTINE_REASONS`, as the texts a caller may pass. -/
def QuarantineReason.parse (text : String) : Option QuarantineReason :=
  if text = "pending_scan" then some .pendingScan
  else if text = "scan_failed" then some .scanFailed
  else if text = "manual_hold" then some .manualHold
  else if text = "resubmitted" then some .resubmitted
  else none

/-- A row of `capguard_quarantine`. -/
structure QuarantineRow where
  id : String
  tenantId : String
  capabilityUri : String
  capabilityType : CapabilityType
  name : String
  version : String
  sourcePath : String
  contentHash : String
  reason : QuarantineReason
  status : QuarantineStatus
  submittedBy : Option String
  metadata : Dict
  deriving DecidableEq, Repr

/-- Whether a quarantine row is an active hold on this tenant, URI and content. -/
def QuarantineRow.Holds (row : QuarantineRow) (tenant uri hash : String) : Prop :=
  row.tenantId = tenant ∧ row.capabilityUri = uri ∧ row.contentHash = hash ∧
    row.status = .quarantined

instance (row : QuarantineRow) (tenant uri hash : String) :
    Decidable (row.Holds tenant uri hash) :=
  inferInstanceAs (Decidable (_ ∧ _))

/-- The primary key, and `idx_capguard_quarantine_active`: one active hold for each tenant, URI
and content. -/
instance : Constrained QuarantineRow where
  Conflict a b := a.id = b.id ∨
    (a.status = .quarantined ∧ b.Holds a.tenantId a.capabilityUri a.contentHash)
  symm h := by
    rcases h with h | ⟨ha, ht, hu, hc, hb⟩
    · exact .inl h.symm
    · exact .inr ⟨hb, ht.symm, hu.symm, hc.symm, ha⟩

/-- `ATTESTATION_TYPES`. -/
inductive AttestationType where
  | scan | release | reject
  deriving DecidableEq, Repr

/-- The stored text of an attestation type. -/
def AttestationType.text : AttestationType → String
  | .scan => "scan"
  | .release => "release"
  | .reject => "reject"

/-- A row of `capguard_attestations`. The verdict is an unconstrained text column; the stored
envelope is the value `json_loads` reads back. -/
structure AttestationRow where
  id : String
  tenantId : String
  quarantineId : String
  attestationType : AttestationType
  subjectUri : String
  contentHash : String
  verdict : Option String
  scannerId : Option String
  scannerVersion : Option String
  findingsSummary : Json
  algorithm : String
  keyId : String
  publicKey : String
  signature : String
  envelope : Json
  verifies : Bool
  actor : Option String
  reason : Option String
  deriving DecidableEq, Repr

instance : Constrained AttestationRow where
  Conflict a b := a.id = b.id
  symm h := h.symm

/-- The state of a share. -/
inductive ShareRowState where
  | active | revoked
  deriving DecidableEq, Repr

/-- A row of `shares`; `revoked` says that `revoked_at` is set. -/
structure ShareRow where
  id : String
  tenantId : String
  capabilityUri : String
  fromIdentityId : Option String
  subjectType : String
  subjectId : String
  rights : List String
  state : ShareRowState
  expiresAt : Option String
  revoked : Bool
  deriving DecidableEq, Repr

instance : Constrained ShareRow where
  Conflict a b := a.id = b.id
  symm h := h.symm

/-- `default_promotion_gates`. -/
inductive GateName where
  | sourceIntegrity | tests | retrievalEvals | signature | provenance | promptInjectionScan
  | riskTierPolicy
  deriving DecidableEq, Repr

/-- The state of one promotion gate. -/
inductive GateState where
  | pending | passed | failed | skipped
  deriving DecidableEq, Repr

/-- The gate states of one promotion request. -/
abbrev Gates := List (GateName × GateState)

/-- The state of a promotion request. -/
inductive RequestState where
  | pending | approved | rejected | recalled | demoted | yanked
  deriving DecidableEq, Repr

/-- A row of `promotion_requests`; `gates` is `none` when `gates_json` does not parse. -/
structure PromotionRequest where
  id : String
  tenantId : String
  capabilityUri : String
  sourceStoreId : Option String
  targetNamespaceId : String
  requestedBy : String
  state : RequestState
  gates : Option Gates
  deriving DecidableEq, Repr

instance : Constrained PromotionRequest where
  Conflict a b := a.id = b.id
  symm h := h.symm

/-- A row of `relationship_tuples`. -/
structure RelationshipTuple where
  id : String
  tenantId : String
  object : String
  relation : String
  user : String
  source : String
  deriving DecidableEq, Repr

/-- The primary key, and `UNIQUE(tenant_id, object, relation, user)`. -/
instance : Constrained RelationshipTuple where
  Conflict a b := a.id = b.id ∨
    (a.tenantId = b.tenantId ∧ a.object = b.object ∧ a.relation = b.relation ∧ a.user = b.user)
  symm h := by
    rcases h with h | ⟨ht, ho, hr, hu⟩
    · exact .inl h.symm
    · exact .inr ⟨ht.symm, ho.symm, hr.symm, hu.symm⟩

/-- A row of `role_assignments`; `revoked` says that `revoked_at` is set. -/
structure RoleAssignment where
  id : String
  tenantId : String
  subjectType : String
  subjectId : String
  role : String
  scopeType : String
  scopeId : String
  expiresAt : Option String
  revoked : Bool
  deriving DecidableEq, Repr

instance : Constrained RoleAssignment where
  Conflict a b := a.id = b.id
  symm h := h.symm

/-- A row of `capability_reviews`. -/
structure ReviewRow where
  id : String
  tenantId : String
  capabilityUri : String
  contentHash : String
  reviewScope : String
  reviewer : String
  deriving DecidableEq, Repr

/-- The primary key, and `UNIQUE(tenant_id, capability_uri, content_hash, review_scope)`. -/
instance : Constrained ReviewRow where
  Conflict a b := a.id = b.id ∨ (a.tenantId = b.tenantId ∧ a.capabilityUri = b.capabilityUri ∧
    a.contentHash = b.contentHash ∧ a.reviewScope = b.reviewScope)
  symm h := by
    rcases h with h | ⟨ht, hu, hc, hs⟩
    · exact .inl h.symm
    · exact .inr ⟨ht.symm, hu.symm, hc.symm, hs.symm⟩

/-- The catalog database. -/
structure Database where
  capabilities : Table CapabilityRow
  fts : Table FtsRow
  sources : Table SourceRow
  vectors : Table VectorRow
  quarantine : Table QuarantineRow
  attestations : Table AttestationRow
  shares : Table ShareRow
  requests : Table PromotionRequest
  tuples : Table RelationshipTuple
  roles : Table RoleAssignment
  reviews : Table ReviewRow

namespace Database

/-- A database without rows. -/
def empty : Database :=
  ⟨.empty, .empty, .empty, .empty, .empty, .empty, .empty, .empty, .empty, .empty, .empty⟩

/-- The capability row at a URI. -/
def capabilityAt (db : Database) (uri : String) : Option CapabilityRow :=
  db.capabilities.find? fun row => row.cap.uri = uri

/-- The capability row with a canonical key. -/
def capabilityWithKey (db : Database) (key : String) : Option CapabilityRow :=
  db.capabilities.find? fun row => row.cap.canonicalKey = key

variable {db : Database} {uri key : String} {row other : CapabilityRow}

theorem capability_at_some (h : db.capabilityAt uri = some row) :
    row ∈ db.capabilities ∧ row.cap.uri = uri := by
  obtain ⟨hmem, hp⟩ := Table.find?_some h
  exact ⟨hmem, by simpa using hp⟩

theorem capability_at_none (h : db.capabilityAt uri = none) (hrow : row ∈ db.capabilities) :
    row.cap.uri ≠ uri := by
  simpa using Table.find?_none h hrow

theorem capability_at_eq (hrow : row ∈ db.capabilities) :
    db.capabilityAt row.cap.uri = some row :=
  Table.find?_eq_some hrow (by simp) fun _ _ hp => .inr (.inl (by simpa using hp))

theorem capability_with_key_some (h : db.capabilityWithKey key = some row) :
    row ∈ db.capabilities ∧ row.cap.canonicalKey = key := by
  obtain ⟨hmem, hp⟩ := Table.find?_some h
  exact ⟨hmem, by simpa using hp⟩

theorem capability_with_key_none (h : db.capabilityWithKey key = none)
    (hrow : row ∈ db.capabilities) : row.cap.canonicalKey ≠ key := by
  simpa using Table.find?_none h hrow

theorem capability_with_key_eq (hrow : row ∈ db.capabilities) :
    db.capabilityWithKey row.cap.canonicalKey = some row :=
  Table.find?_eq_some hrow (by simp) fun _ _ hp => .inr (.inr (by simpa using hp))

theorem eq_of_uri (hrow : row ∈ db.capabilities) (hother : other ∈ db.capabilities)
    (h : row.cap.uri = other.cap.uri) : row = other :=
  Table.eq_of_conflict hrow hother (.inr (.inl h))

theorem eq_of_key (hrow : row ∈ db.capabilities) (hother : other ∈ db.capabilities)
    (h : row.cap.canonicalKey = other.cap.canonicalKey) : row = other :=
  Table.eq_of_conflict hrow hother (.inr (.inr h))

theorem eq_of_id (hrow : row ∈ db.capabilities) (hother : other ∈ db.capabilities)
    (h : row.id = other.id) : row = other :=
  Table.eq_of_conflict hrow hother (.inl h)

end Database

end Capmesh
