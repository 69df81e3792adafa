import Capmesh.Index.QuarantineFirst

/-!
# Staged rebuild

`stage_rebuild_index` of `index.py`: the candidate starts as a copy of the live catalog,
the quarantine pass runs on it, every row that is neither a system capability nor a draft
is deleted, the preserved rows are written back, and the batch is indexed on what is left.
A governance decision lives only in the deleted row. `PreservedFrom` relates the catalog
after the preserve pass to the live one; `stage_rebuild_index_keeps_iff` says when a decision
comes back: the columns the batch writes have to be the ones the decision had.
-/

namespace Capmesh

open Python Relational

/-- What a staged rebuild takes beside an ingest: the builtin system capabilities, the vector
backend's answers for the preserved rows, the approved removals, and whether every discovered
source is covered. -/
structure RebuildInput (p : Platform) extends IngestInput p where
  builtins : List Capability
  builtin : ∀ cap ∈ builtins, cap.sourceKind = "system_capability"
  embedPreserved : Nat → String → Option String
  approvedRemovals : List String
  coverageOk : Bool

/-- The URIs of the rows that are neither system capabilities nor drafts. -/
def Database.ordinaryUris (db : Database) : List String :=
  (db.capabilities.rows.filter fun row => !row.cap.isSystemOrDraft).map (·.cap.uri)

/-- The catalog after the deletes of a staged rebuild. -/
def Database.stripped (db : Database) (vectorEnabled : Bool) : Database :=
  { db with
    fts := .empty
    sources := .empty
    capabilities := db.capabilities.filter fun row => row.cap.isSystemOrDraft
    vectors := if vectorEnabled then .empty else db.vectors }

/-- Write the preserved capabilities back; `index` counts the embeddings. -/
def preserveAll (p : Platform) (input : RebuildInput p) :
    Nat → Database → List Capability → Except Failure Database
  | _, db, [] => .ok db
  | index, db, cap :: caps => do
      let (id, next) ← upsertCapability p db cap
      if input.vectorEnabled then
        match input.embedPreserved index cap.indexText with
        | some embedding =>
            preserveAll p input (index + 1)
              { next with vectors := next.vectors.replace ⟨id, embedding⟩ } caps
        | none =>
            .error (.runtime "candidate vector rebuild failed for a preserved capability")
      else preserveAll p input index next caps

/-- The catalog the batch of a staged rebuild is indexed on. -/
def preserved (p : Platform) (input : RebuildInput p) (db : Database) :
    Except Failure Database :=
  preserveAll p input 0 (db.stripped input.vectorEnabled)
    (input.builtins ++ (db.capabilities.rows.filter fun row =>
      row.cap.sourceKind = "capmesh_draft").map (·.cap))

/-- `object LIKE 'cap://%'`: the operator ignores the case of ASCII letters. -/
def RelationshipTuple.isOnCapability (tuple : RelationshipTuple) : Bool :=
  startsWith (String.ofList (tuple.object.toList.map Char.toLower)) "cap://"

/-- `validate_candidate_database`, without the checks of the storage engine. -/
def validateCandidateDatabase (db : Database) (coverageOk : Bool) : Except Failure Unit :=
  if db.capabilities.rows.length ≠ db.fts.rows.length then
    .error (.runtime ("candidate FTS mismatch: capabilities=" ++
      toString db.capabilities.rows.length ++ ", fts=" ++ toString db.fts.rows.length))
  else if db.capabilities.any db.isOrphan then
    .error (.runtime ("candidate contains " ++
      toString (db.capabilities.rows.filter db.isOrphan).length ++
      " source-orphaned capability row(s)"))
  else if db.shares.any (fun share => (db.capabilityAt share.capabilityUri).isNone) ||
      db.requests.any (fun request => request.state = .pending &&
        (db.capabilityAt request.capabilityUri).isNone) ||
      db.tuples.any (fun tuple => tuple.isOnCapability &&
        (db.capabilityAt tuple.object).isNone) then
    .error (.runtime "candidate has orphaned governance references")
  else if !coverageOk then .error (.runtime "candidate is missing discovered source(s)")
  else .ok ()

/-- The removals of a staged rebuild must be exactly the approved ones. -/
def checkRemovals (before after approved : List String) : Except Failure Unit :=
  let removed := before.filter fun uri => !after.contains uri
  let unexpected := removed.filter fun uri => !approved.contains uri
  let unused := approved.filter fun uri => !removed.contains uri
  if !unexpected.isEmpty then
    .error (.runtime ("staged rebuild rejected " ++ toString unexpected.dedup.length ++
      " unapproved removal(s)"))
  else if !unused.isEmpty then
    .error (.runtime ("staged rebuild rejected " ++ toString unused.dedup.length ++
      " unused removal approval(s)"))
  else .ok ()

/-- `stage_rebuild_index`, from the live catalog to the validated candidate. -/
def stageRebuildIndex (p : Platform) (live : Database) (input : RebuildInput p) :
    Except Failure Database := do
  match quarantineNewCapabilities p live input.toIngestInput with
  | (_, .error failure) => .error failure
  | (held, .ok _) => do
      let kept ← preserved p input held
      let (changes, candidate) ← upsertDiscovered p kept input.toIngestInput
      if input.vectorEnabled && !changes.vectorsOk then
        .error (.runtime "candidate vector rebuild failed")
      else do
        checkRemovals live.ordinaryUris candidate.ordinaryUris input.approvedRemovals
        validateCandidateDatabase candidate input.coverageOk
        .ok candidate

/-- The capabilities a staged rebuild writes, each placed against the preserved catalog. -/
def rebuildPlan (p : Platform) (live : Database) (input : RebuildInput p) :
    Except Failure (List Capability) :=
  match quarantineNewCapabilities p live input.toIngestInput with
  | (_, .error failure) => .error failure
  | (held, .ok _) => do
      let kept ← preserved p input held
      plan p input.toIngestInput kept.capabilities

/-- The six columns a governance decision is recorded in. -/
structure GovernanceColumns where
  approvalState : ApprovalState
  lifecycle : Lifecycle
  shareState : ShareState
  signatureStatus : CheckStatus
  provenanceStatus : CheckStatus
  riskReviewStatus : RiskReview
  deriving DecidableEq, Repr

/-- The governance columns of a capability. -/
def Capability.governance (cap : Capability) : GovernanceColumns :=
  ⟨cap.approvalState, cap.lifecycle, cap.shareState, cap.signatureStatus, cap.provenanceStatus,
    cap.riskReviewStatus⟩

/-- The states in which `evaluate_access` refuses every right. -/
def GovernanceColumns.isBlocked (columns : GovernanceColumns) : Bool :=
  [.rejected, .recalled, .demoted, .yanked].contains columns.approvalState ||
    [.disabled, .deleted, .retired, .recalled, .yanked].contains columns.lifecycle

/-- A rebuild keeps governance decisions: a URI that is neither a system capability nor a draft and
has one content before and after keeps its columns, and stays blocked if it was. -/
def KeepsGovernance (live candidate : Database) : Prop :=
  ∀ old ∈ live.capabilities, old.cap.isSystemOrDraft = false →
    ∀ new ∈ candidate.capabilities, new.cap.isSystemOrDraft = false →
      new.cap.uri = old.cap.uri → new.cap.contentHash = old.cap.contentHash →
        new.cap.governance = old.cap.governance ∧
          (old.cap.governance.isBlocked = true → new.cap.governance.isBlocked = true)

/-- A catalog on which `init_db` has just run: an upsert of a builtin would change nothing. -/
def Database.Initialized (db : Database) (builtins : List Capability) : Prop :=
  ∀ cap ∈ builtins, ∃ row ∈ db.capabilities, row.cap.uri = cap.uri ∧
    row.cap.sourceKind = "system_capability" ∧
    written (some row) (clampLifecycle (some row) cap) = row.cap

/-- The system capability or draft a planned capability takes over: the one with its key, unless
a capability earlier in the plan has that row's URI. -/
def takenOver (db : Database) (earlier : List Capability) (e : Capability) :
    Option CapabilityRow :=
  match db.capabilityWithKey e.canonicalKey with
  | some row =>
      if row.cap.isSystemOrDraft && !earlier.any (·.uri = row.cap.uri) then some row else none
  | none => none

/-- Every live row that the plan has again with the same content already carries the columns the
rebuild writes there: those of the discovered capability, pending and draft under a hold. A
capability that takes over a promoted draft is filed at the draft's address instead. -/
def DecisionsAgree (live : Database) (planned : List Capability) : Prop :=
  ∀ earlier e later, planned = earlier ++ e :: later →
    ∀ old ∈ live.capabilities, old.cap.isSystemOrDraft = false → old.cap.uri = e.uri →
      old.cap.contentHash = e.contentHash →
      (∃ row, takenOver live earlier e = some row ∧ row.cap.isPromoted = true) ∨
      (indexed (capguardIsHeld live.quarantine e) (takenOver live earlier e) e).governance =
        old.cap.governance

/-- A row and its copy after the preserve pass: the columns that decide what a capability does to
it are the same. -/
structure Preserved (row copy : CapabilityRow) : Prop where
  uri : copy.cap.uri = row.cap.uri
  canonicalKey : copy.cap.canonicalKey = row.cap.canonicalKey
  contentHash : copy.cap.contentHash = row.cap.contentHash
  sourceKind : copy.cap.sourceKind = row.cap.sourceKind
  promotedFromUri : copy.cap.promotedFromUri = row.cap.promotedFromUri
  governance : copy.cap.governance = row.cap.governance

/-- A catalog of copies of the system capabilities and drafts of another. -/
structure PreservedFrom (live db : Database) : Prop where
  origin : ∀ copy ∈ db.capabilities, ∃ row ∈ live.capabilities,
    row.cap.isSystemOrDraft = true ∧ Preserved row copy
  copied : ∀ row ∈ live.capabilities, row.cap.isSystemOrDraft = true →
    ∃ copy ∈ db.capabilities, Preserved row copy

/-- A row and its copy, column by column: the metadata is sorted, and a draft that is not governed
may get another tenant. -/
structure Recopied (row copy : CapabilityRow) : Prop where
  id : copy.id = row.id
  columns : copy.cap =
    { row.cap with metadata := copy.cap.metadata, tenantId := copy.cap.tenantId }
  tenant : row.cap.Governed → copy.cap.tenantId = row.cap.tenantId

/-- What the preserve pass leaves of a catalog: a copy of each system capability and draft, and no
other row. -/
structure RecopiedFrom (live db : Database) : Prop where
  origin : ∀ copy ∈ db.capabilities, ∃ row ∈ live.capabilities,
    row.cap.isSystemOrDraft = true ∧ Recopied row copy
  copied : ∀ row ∈ live.capabilities, row.cap.isSystemOrDraft = true →
    ∃ copy ∈ db.capabilities, Recopied row copy

section

variable {p : Platform} {input : RebuildInput p} {live db next kept candidate : Database}
variable {planned earlier later : List Capability} {cap e : Capability}
variable {row copy : CapabilityRow} {id : Nat}

/-- A capability takes over a system capability or draft with its key. -/
theorem taken_over_some (h : takenOver db earlier e = some row) :
    row ∈ db.capabilities ∧ row.cap.canonicalKey = e.canonicalKey := by
  unfold takenOver at h
  split at h
  · rename_i found hfound
    split at h
    · cases h
      exact Database.capability_with_key_some hfound
    · cases h
  · cases h

theorem Recopied.refl (row : CapabilityRow) : Recopied row row := ⟨rfl, rfl, fun _ => rfl⟩

theorem Recopied.uri (h : Recopied row copy) : copy.cap.uri = row.cap.uri := by
  rw [h.columns]

/-- A copy agrees with its row in the columns that decide what a capability does to it. -/
theorem Recopied.preserved (h : Recopied row copy) : Preserved row copy := by
  have hcolumns := h.columns
  constructor <;> rw [hcolumns]
  rfl

/-- A write reads neither the metadata nor the tenant of the row it merges into. -/
theorem Recopied.written_eq (h : Recopied row copy) (cap : Capability) :
    written (some copy) (clampLifecycle (some copy) cap) =
      written (some row) (clampLifecycle (some row) cap) := by
  obtain ⟨id, columns⟩ := copy
  obtain ⟨-, hcolumns, -⟩ := h
  dsimp only at hcolumns
  rw [hcolumns]
  rfl

theorem Preserved.isPromoted (h : Preserved row copy) :
    copy.cap.isPromoted = row.cap.isPromoted := by
  have happroval : copy.cap.approvalState = row.cap.approvalState :=
    congrArg GovernanceColumns.approvalState h.governance
  simp [Capability.isPromoted, h.promotedFromUri, happroval]

theorem Preserved.isSystemOrDraft (h : Preserved row copy) :
    copy.cap.isSystemOrDraft = row.cap.isSystemOrDraft := by
  simp [Capability.isSystemOrDraft, h.sourceKind]

/-- The governance columns of a merge depend on the old row through its content and its own. -/
theorem merged_governance_congr {old old' new : Capability}
    (hhash : old'.contentHash = old.contentHash) (h : old'.governance = old.governance) :
    (merged old' new).governance = (merged old new).governance := by
  cases old
  cases old'
  simp only [Capability.governance, GovernanceColumns.mk.injEq] at h hhash
  obtain ⟨rfl, rfl, rfl, rfl, rfl, rfl⟩ := h
  subst hhash
  rfl

/-- What a write leaves in the compared columns depends on the old row through them alone. -/
theorem Preserved.written (h : Preserved row copy) (id : Nat) (cap : Capability) :
    Preserved ⟨id, written (some row) (clampLifecycle (some row) cap)⟩
      ⟨id, written (some copy) (clampLifecycle (some copy) cap)⟩ := by
  have hlifecycle : copy.cap.lifecycle = row.cap.lifecycle :=
    congrArg GovernanceColumns.lifecycle h.governance
  have hclamp : clampLifecycle (some copy) cap = clampLifecycle (some row) cap := by
    simp only [clampLifecycle, hlifecycle, h.contentHash]
  rw [hclamp]
  refine ⟨rfl, rfl, rfl, rfl, ?_, merged_governance_congr h.contentHash h.governance⟩
  simp [Capmesh.written, merged, h.promotedFromUri]

/-- A draft written back over its own row leaves a copy. -/
theorem recopied_draft (haddressed : isAddressed row.cap.uri = true) :
    (applyDefaultUserNamespace p row.cap).uri = row.cap.uri ∧
    Recopied row ⟨row.id, written (some row)
      (clampLifecycle (some row) (applyDefaultUserNamespace p row.cap))⟩ := by
  have hdefault : ∃ tenantId, applyDefaultUserNamespace p row.cap = { row.cap with tenantId } := by
    unfold applyDefaultUserNamespace
    split
    · exact ⟨row.cap.tenantId, rfl⟩
    · rename_i hsystem
      -- An address outside the system namespace is governed.
      have hgoverned : isGovernedUri row.cap.uri = true := by
        simp only [Capability.isSystem, Bool.or_eq_true, not_or] at hsystem
        simpa [isAddressed, hsystem.2] using haddressed
      simp only [hgoverned, if_true]
      exact ⟨_, rfl⟩
  obtain ⟨tenantId, hdefault⟩ := hdefault
  have htenant : row.cap.Governed → tenantId = row.cap.tenantId := by
    intro hgoverned
    rw [apply_default_of_governed hgoverned] at hdefault
    rw [hdefault]
  have hclamp : clampLifecycle (some row) { row.cap with tenantId } =
      { row.cap with tenantId } := by simp [clampLifecycle]
  rw [hdefault, hclamp]
  refine ⟨rfl, rfl, ?_, htenant⟩
  simp [Capmesh.written, merged, mergeState, Capability.stored]

/-- A capability the preserve pass may write: over its own row it leaves a copy. -/
def Refreshes (p : Platform) (live : Database) (cap : Capability) : Prop :=
  ∃ row ∈ live.capabilities, row.cap.isSystemOrDraft = true ∧
    (applyDefaultUserNamespace p cap).uri = row.cap.uri ∧
    Recopied row ⟨row.id, written (some row)
      (clampLifecycle (some row) (applyDefaultUserNamespace p cap))⟩

/-- One write of the preserve pass. -/
theorem RecopiedFrom.step (h : RecopiedFrom live db) (hcap : Refreshes p live cap)
    (hupsert : upsertCapability p db cap = .ok (id, next)) :
    RecopiedFrom live next ∧ next = { db with
      capabilities := next.capabilities, sources := next.sources, fts := next.fts } := by
  obtain ⟨row, hrow, hkind, huri, hrecopied⟩ := hcap
  obtain ⟨copy, hcopy, hcopied⟩ := h.copied row hrow hkind
  obtain ⟨table, expected, hwrite, -, -, rfl⟩ := upsert_capability_ok hupsert
  have hat : db.capabilityAt (applyDefaultUserNamespace p cap).uri = some copy := by
    rw [huri, ← hcopied.uri]
    exact Database.capability_at_eq hcopy
  have hincoming : incoming p db cap =
      clampLifecycle (some copy) (applyDefaultUserNamespace p cap) := by
    simp only [incoming, hat]
  obtain ⟨lifecycle, hclamped⟩ := clamp_lifecycle_eq (some copy) (applyDefaultUserNamespace p cap)
  have hincomingUri : (incoming p db cap).uri = row.cap.uri := by
    rw [hincoming, hclamped]
    exact huri
  obtain ⟨hmem, hid, -⟩ := write_row_ok hwrite
  rw [hincomingUri, ← huri] at hid
  rw [hincomingUri, ← huri, hat, hincoming, hid copy hat, hcopied.id, hcopied.written_eq] at hmem
  refine ⟨⟨fun x hx => ?_, fun other hother hotherKind => ?_⟩, rfl⟩
  · rcases (hmem x).mp hx with rfl | ⟨hx, -⟩
    · exact ⟨row, hrow, hkind, hrecopied⟩
    · exact h.origin x hx
  · obtain ⟨x, hx, hxCopied⟩ := h.copied other hother hotherKind
    by_cases hsame : other = row
    · subst hsame
      exact ⟨_, (hmem _).mpr (.inl rfl), hrecopied⟩
    · refine ⟨x, (hmem x).mpr (.inr ⟨hx, fun hxUri => hsame ?_⟩), hxCopied⟩
      exact Database.eq_of_uri hother hrow (hxCopied.uri.symm.trans (hxUri.trans huri))

theorem preserve_all_ok {caps : List Capability} {index : Nat} (h : RecopiedFrom live db)
    (hcaps : ∀ cap ∈ caps, Refreshes p live cap)
    (hall : preserveAll p input index db caps = .ok kept) :
    RecopiedFrom live kept ∧ kept = { db with capabilities := kept.capabilities
                                              sources := kept.sources
                                              fts := kept.fts
                                              vectors := kept.vectors } := by
  induction caps generalizing index db with
  | nil =>
      cases hall
      exact ⟨h, rfl⟩
  | cons cap caps ih =>
      unfold preserveAll at hall
      obtain ⟨⟨id, next⟩, hupsert, hall⟩ := bind_eq_ok hall
      obtain ⟨hnext, hrest⟩ := h.step (hcaps cap List.mem_cons_self) hupsert
      have hcaps := fun other hother => hcaps other (List.mem_cons_of_mem _ hother)
      dsimp only at hall
      split at hall
      · split at hall
        · rename_i embedding _
          have hembedded : RecopiedFrom live
              { next with vectors := next.vectors.replace ⟨id, embedding⟩ } :=
            ⟨hnext.origin, hnext.copied⟩
          obtain ⟨hkept, hkeptRest⟩ := ih hembedded hcaps hall
          exact ⟨hkept, by rw [hkeptRest, hrest]⟩
        · cases hall
      · obtain ⟨hkept, hkeptRest⟩ := ih hnext hcaps hall
        exact ⟨hkept, by rw [hkeptRest, hrest]⟩

/-- The preserve pass leaves copies of the system capabilities and drafts, and nothing else. -/
theorem preserved_ok (hdrafts : ∀ row ∈ db.capabilities,
      row.cap.sourceKind = "capmesh_draft" → isAddressed row.cap.uri = true)
    (hinit : db.Initialized input.builtins) (h : preserved p input db = .ok kept) :
    RecopiedFrom db kept ∧ kept = { db with capabilities := kept.capabilities
                                            sources := kept.sources
                                            fts := kept.fts
                                            vectors := kept.vectors } := by
  unfold preserved at h
  have hstripped : RecopiedFrom db (db.stripped input.vectorEnabled) := by
    refine ⟨fun copy hcopy => ?_, fun row hrow hkind => ?_⟩
    · obtain ⟨hcopy, hkind⟩ := (Table.mem_filter copy).mp hcopy
      exact ⟨copy, hcopy, hkind, .refl copy⟩
    · exact ⟨row, (Table.mem_filter row).mpr ⟨hrow, hkind⟩, .refl row⟩
  have hcaps : ∀ cap ∈ input.builtins ++ (db.capabilities.rows.filter fun row =>
      row.cap.sourceKind = "capmesh_draft").map (·.cap), Refreshes p db cap := by
    intro cap hcap
    rcases List.mem_append.mp hcap with hcap | hcap
    · obtain ⟨row, hrow, huri, hkind, hsame⟩ := hinit cap hcap
      have hsystem : cap.Governed := .inl (by simp [Capability.isSystem, input.builtin cap hcap])
      refine ⟨row, hrow, by simp [Capability.isSystemOrDraft, hkind], ?_, ?_⟩
      · rw [apply_default_of_governed hsystem, huri]
      · rw [apply_default_of_governed hsystem, hsame]
        exact .refl row
    · obtain ⟨row, hrow, rfl⟩ := List.mem_map.mp hcap
      obtain ⟨hrow, hkind⟩ := List.mem_filter.mp hrow
      have hdraft : row.cap.sourceKind = "capmesh_draft" := by simpa using hkind
      obtain ⟨huri, hrecopied⟩ := recopied_draft (p := p) (hdrafts row hrow hdraft)
      exact ⟨row, hrow, by simp [Capability.isSystemOrDraft, hdraft], huri, hrecopied⟩
  obtain ⟨hkept, hrest⟩ := preserve_all_ok hstripped hcaps h
  exact ⟨hkept, hrest⟩

/-- Copies are copies in the compared columns. -/
theorem RecopiedFrom.preservedFrom (h : RecopiedFrom live db) : PreservedFrom live db := by
  refine ⟨fun copy hcopy => ?_, fun row hrow hkind => ?_⟩
  · obtain ⟨row, hrow, hkind, hrecopied⟩ := h.origin copy hcopy
    exact ⟨row, hrow, hkind, hrecopied.preserved⟩
  · obtain ⟨copy, hcopy, hrecopied⟩ := h.copied row hrow hkind
    exact ⟨copy, hcopy, hrecopied.preserved⟩

namespace PreservedFrom

variable (h : PreservedFrom live db)

include h

theorem normalized (hlive : live.Normalized) : db.Normalized := by
  intro copy hcopy
  obtain ⟨row, hrow, -, hpreserved⟩ := h.origin copy hcopy
  rw [hpreserved.uri]
  exact hlive row hrow

theorem kind (hcopy : copy ∈ db.capabilities) : copy.cap.isSystemOrDraft = true := by
  obtain ⟨row, -, hkind, hpreserved⟩ := h.origin copy hcopy
  rw [hpreserved.isSystemOrDraft, hkind]

theorem uri_ne {old : CapabilityRow} (hold : old ∈ live.capabilities)
    (hordinary : old.cap.isSystemOrDraft = false) (hcopy : copy ∈ db.capabilities) :
    copy.cap.uri ≠ old.cap.uri := by
  intro huri
  obtain ⟨row, hrow, hkind, hpreserved⟩ := h.origin copy hcopy
  rw [Database.eq_of_uri hrow hold (hpreserved.uri.symm.trans huri), hordinary] at hkind
  cases hkind

theorem taken_over (earlier : List Capability) (e : Capability) :
    (takenOver live earlier e = none ∧ takenOver db earlier e = none) ∨
    ∃ row copy, takenOver live earlier e = some row ∧ takenOver db earlier e = some copy ∧
      Preserved row copy := by
  cases hlive : live.capabilityWithKey e.canonicalKey with
  | none =>
      have hnone : db.capabilityWithKey e.canonicalKey = none := by
        cases hdb : db.capabilityWithKey e.canonicalKey with
        | none => rfl
        | some copy =>
            obtain ⟨hcopy, hkey⟩ := Database.capability_with_key_some hdb
            obtain ⟨row, hrow, -, hpreserved⟩ := h.origin copy hcopy
            exact absurd (hpreserved.canonicalKey.symm.trans hkey)
              (Database.capability_with_key_none hlive hrow)
      exact .inl (by simp [takenOver, hlive, hnone])
  | some row =>
      obtain ⟨hrow, hkey⟩ := Database.capability_with_key_some hlive
      by_cases hkind : row.cap.isSystemOrDraft = true
      · obtain ⟨copy, hcopy, hpreserved⟩ := h.copied row hrow hkind
        have hdb : db.capabilityWithKey e.canonicalKey = some copy := by
          rw [← hkey, ← hpreserved.canonicalKey]
          exact Database.capability_with_key_eq hcopy
        simp only [takenOver, hlive, hdb, hkind, hpreserved.isSystemOrDraft, hpreserved.uri,
          Bool.true_and]
        split
        · exact .inr ⟨row, copy, rfl, rfl, hpreserved⟩
        · exact .inl ⟨rfl, rfl⟩
      · have hnone : db.capabilityWithKey e.canonicalKey = none := by
          cases hdb : db.capabilityWithKey e.canonicalKey with
          | none => rfl
          | some copy =>
              obtain ⟨hcopy, hcopyKey⟩ := Database.capability_with_key_some hdb
              obtain ⟨other, hother, hotherKind, hpreserved⟩ := h.origin copy hcopy
              have hsame := Database.eq_of_key hother hrow
                (hpreserved.canonicalKey.symm.trans (hcopyKey.trans hkey.symm))
              rw [hsame] at hotherKind
              exact absurd hotherKind hkind
        exact .inl (by simp [takenOver, hlive, hnone, hkind])

/-- What the index pass writes depends on the preserved row through the compared columns alone. -/
theorem indexed_governance {held : Bool}
    (hpromoted : ∀ row, takenOver live earlier e = some row → row.cap.isPromoted = false) :
    (indexed held (takenOver db earlier e) e).governance =
      (indexed held (takenOver live earlier e) e).governance := by
  rcases h.taken_over earlier e with ⟨hlive, hdb⟩ | ⟨row, copy, hlive, hdb, hpreserved⟩
  · rw [hlive, hdb]
  · have hrow := hpromoted row hlive
    have hcopy := hpreserved.isPromoted.trans hrow
    rw [hlive, hdb]
    simp only [indexed, carryOver, hrow, hcopy, Bool.false_eq_true, if_false, Option.map_some]
    have hmoved : Preserved (row.moved e.uri) (copy.moved e.uri) :=
      ⟨rfl, hpreserved.canonicalKey, hpreserved.contentHash, hpreserved.sourceKind,
        hpreserved.promotedFromUri, hpreserved.governance⟩
    exact (hmoved.written 0 (holdDowngrade held e)).governance

theorem previous_row {input : IngestInput p} {before : Indexing} (hdb : db.Normalized)
    (hplanned : Planned p (earlier ++ e :: later))
    (hfree : ∀ copy ∈ db.capabilities, copy.cap.uri ≠ e.uri)
    (hbefore : indexAll p input (.start db) earlier = .ok before) :
    previousRow before.db e = takenOver db earlier e := by
  have hearlier : Planned p earlier := hplanned.sublist (List.sublist_append_left _ _)
  have hprogress := (index_all_progress hearlier hdb hbefore).1
  have hat : before.db.capabilityAt e.uri = none := by
    cases hat : before.db.capabilityAt e.uri with
    | none => rfl
    | some x =>
        obtain ⟨hx, hxUri⟩ := Database.capability_at_some hat
        rcases hprogress x hx with ⟨hx, -⟩ | ⟨d, hd, hlanded⟩
        · exact absurd hxUri (hfree x hx)
        · rcases hlanded.address with huri | ⟨r, hr, -, -, huri, -⟩
          · exact absurd (huri.symm.trans hxUri) (hplanned.ne_of_mem (.inl hd)).1
          · exact absurd (huri.symm.trans hxUri) (hfree r hr)
  -- A row with the key of the capability is a copy that nothing earlier in the plan refreshed.
  have hkeyed : ∀ x, before.db.capabilityWithKey e.canonicalKey = some x →
      x ∈ db.capabilities ∧ x.cap.canonicalKey = e.canonicalKey ∧
        ∀ d ∈ earlier, d.uri ≠ x.cap.uri := by
    intro x hfound
    obtain ⟨hx, hxKey⟩ := Database.capability_with_key_some hfound
    rcases hprogress x hx with ⟨hx, hdone⟩ | ⟨d, hd, hlanded⟩
    · exact ⟨hx, hxKey, fun d hd => (hdone d hd).2⟩
    · exact absurd (hlanded.canonicalKey.symm.trans hxKey) (hplanned.ne_of_mem (.inl hd)).2
  simp only [previousRow, hat]
  cases hfound : before.db.capabilityWithKey e.canonicalKey with
  | some x =>
      obtain ⟨hx, hxKey, hxFree⟩ := hkeyed x hfound
      have hwith : db.capabilityWithKey e.canonicalKey = some x := by
        rw [← hxKey]
        exact Database.capability_with_key_eq hx
      have hany : earlier.any (·.uri = x.cap.uri) = false := by simpa using hxFree
      simp [takenOver, hwith, h.kind hx, hany]
  | none =>
      cases hwith : db.capabilityWithKey e.canonicalKey with
      | none => simp [takenOver, hwith]
      | some r =>
          obtain ⟨hr, hrKey⟩ := Database.capability_with_key_some hwith
          by_cases hany : earlier.any (·.uri = r.cap.uri) = true
          · simp [takenOver, hwith, hany]
          · -- Nothing refreshed the copy, so it still stands.
            have hrBefore : r ∈ before.db.capabilities :=
              (index_all_untouched hearlier hdb hr (fun d hd => ⟨hrKey ▸
                (hplanned.ne_of_mem (.inl hd)).2, fun huri => hany ?_⟩) hbefore).1
            · exact absurd hrKey (Database.capability_with_key_none hfound hrBefore)
            · exact List.any_eq_true.mpr ⟨d, hd, by simpa using huri⟩

end PreservedFrom

/-- What a successful rebuild did: it held what is new, preserved the system capabilities and the
drafts, indexed the plan on them, and retired the orphans. -/
theorem stage_rebuild_index_ok (h : stageRebuildIndex p live input = .ok candidate) :
    ∃ held counts kept planned final removed,
      quarantineNewCapabilities p live input.toIngestInput = (held, .ok counts) ∧
      preserved p input held = .ok kept ∧
      plan p input.toIngestInput kept.capabilities = .ok planned ∧
      rebuildPlan p live input = .ok planned ∧
      indexAll p input.toIngestInput (.start kept) planned = .ok final ∧
      deleteSourceOrphaned p input.vectorEnabled final.db = .ok (removed, candidate) := by
  unfold stageRebuildIndex at h
  cases hquarantine : quarantineNewCapabilities p live input.toIngestInput with
  | mk held outcome =>
      cases outcome with
      | error failure => simp [hquarantine] at h
      | ok counts =>
          simp only [hquarantine] at h
          obtain ⟨kept, hkept, h⟩ := bind_eq_ok h
          obtain ⟨⟨changes, result⟩, hupsert, h⟩ := bind_eq_ok h
          unfold upsertDiscovered at hupsert
          obtain ⟨planned, hplanned, hupsert⟩ := bind_eq_ok hupsert
          obtain ⟨final, hfinal, hupsert⟩ := bind_eq_ok hupsert
          obtain ⟨⟨removed, retired⟩, hremoved, hupsert⟩ := bind_eq_ok hupsert
          cases hupsert
          have hrebuild : rebuildPlan p live input = .ok planned := by
            simp only [rebuildPlan, hquarantine, hkept, bind, Except.bind, hplanned]
          split at h
          · cases h
          · obtain ⟨-, -, h⟩ := bind_eq_ok h
            obtain ⟨-, -, h⟩ := bind_eq_ok h
            cases h
            exact ⟨held, counts, kept, planned, final, removed, rfl, hkept, hplanned, hrebuild,
              hfinal, hremoved⟩

/-- The quarantine pass does not change whether an indexed identity is held. -/
theorem held_iff_of_indexed {input : IngestInput p} {held : Database} {counts : QuarantineCounts}
    {old : CapabilityRow} (hold : old ∈ live.capabilities) (huri : old.cap.uri = cap.uri)
    (hhash : old.cap.contentHash = cap.contentHash)
    (hquarantine : quarantineNewCapabilities p live input = (held, .ok counts)) :
    capguardIsHeld held.quarantine cap = capguardIsHeld live.quarantine cap := by
  obtain ⟨hadded, hnew, -⟩ := quarantine_loop_ok (.refl live) hquarantine
  rw [Bool.eq_iff_iff, capguard_is_held_iff, capguard_is_held_iff]
  constructor
  · rintro ⟨q, hq, hholds⟩
    rcases hnew q hq with hq | ⟨source, -, ⟨-, hindexes⟩, hsource⟩
    · exact ⟨q, hq, hholds⟩
    · rw [← hsource.2.1, ← hsource.2.2.1, hholds.2.1, hholds.2.2.1, ← huri, ← hhash,
        Database.indexes, Database.capability_at_eq hold] at hindexes
      simp at hindexes
  · rintro ⟨q, hq, hholds⟩
    exact ⟨q, hadded.kept q hq, hholds⟩

/-- What a successful rebuild did, seen from the live catalog. -/
structure Rebuilt (p : Platform) (input : IngestInput p) (live kept candidate : Database)
    (planned : List Capability) (final : Indexing) : Prop where
  normalized : kept.Normalized
  copies : PreservedFrom live kept
  filed : Planned p planned
  indexed : indexAll p input (.start kept) planned = .ok final
  retired : Retired
    (fun id => ∃ row ∈ final.db.capabilities, final.db.isOrphan row = true ∧ id = row.id)
    final.db candidate
  held : ∀ old ∈ live.capabilities, ∀ cap : Capability, old.cap.uri = cap.uri →
    old.cap.contentHash = cap.contentHash →
    capguardIsHeld kept.quarantine cap = capguardIsHeld live.quarantine cap

theorem stage_rebuild_index_rebuilt (hlive : live.Normalized)
    (hinit : live.Initialized input.builtins)
    (h : stageRebuildIndex p live input = .ok candidate)
    (hplan : rebuildPlan p live input = .ok planned) :
    ∃ kept final, Rebuilt p input.toIngestInput live kept candidate planned final := by
  obtain ⟨held, counts, kept, planned', final, removed, hquarantine, hkept, hplanKept, hrebuild,
    hindex, hdelete⟩ := stage_rebuild_index_ok h
  cases hplan.symm.trans hrebuild
  have hadded := (quarantine_loop_ok (.refl live) hquarantine).1
  have hcapabilities := hadded.capabilities
  have hheld := normalized_holds_added hlive hadded
  obtain ⟨hrecopied, hkeptRest⟩ := preserved_ok (fun row hrow _ => hheld row hrow) (by
    intro cap hcap
    rw [hcapabilities]
    exact hinit cap hcap) hkept
  have hcopies := hrecopied.preservedFrom
  have hkeptQuarantine : kept.quarantine = held.quarantine := by rw [hkeptRest]
  refine ⟨kept, final, hcopies.normalized hheld, ⟨?_, ?_⟩, plan_ok hplanKept, hindex,
    delete_source_orphaned_ok hdelete, fun old hold cap huri hhash => ?_⟩
  · rw [← hcapabilities]
    exact hcopies.origin
  · rw [← hcapabilities]
    exact hcopies.copied
  · rw [hkeptQuarantine]
    exact held_iff_of_indexed hold huri hhash hquarantine

namespace Rebuilt

variable {input : IngestInput p} {before final : Indexing} {after : Database}
variable {old : CapabilityRow} (h : Rebuilt p input live kept candidate planned final)
variable (hold : old ∈ live.capabilities) (hordinary : old.cap.isSystemOrDraft = false)

include h hold hordinary

/-- The row written for a capability at the URI and content of a live row: over a promoted draft
it is at the draft's address, else at the capability's, with the columns discovery writes. -/
theorem landed (hsplit : planned = earlier ++ e :: later) (huri : old.cap.uri = e.uri)
    (hhash : old.cap.contentHash = e.contentHash)
    (hbefore : indexAll p input (.start kept) earlier = .ok before)
    (hlanding : Landing p before.db after e row) :
    (∃ r, takenOver live earlier e = some r ∧ r.cap.isPromoted = true ∧
      ∃ copy ∈ kept.capabilities, row.cap.uri = copy.cap.uri) ∨
    (∀ r, takenOver live earlier e = some r → r.cap.isPromoted = false) ∧
      row.cap.uri = e.uri ∧ row.cap.governance =
        (Capmesh.indexed (capguardIsHeld live.quarantine e) (takenOver live earlier e) e).governance := by
  have hplanned : Planned p (earlier ++ e :: later) := hsplit ▸ h.filed
  have hearlier : Planned p earlier := hplanned.sublist (List.sublist_append_left _ _)
  have hfree : ∀ copy ∈ kept.capabilities, copy.cap.uri ≠ e.uri := fun copy hcopy =>
    huri ▸ h.copies.uri_ne hold hordinary hcopy
  have hprevious := h.copies.previous_row h.normalized hplanned hfree hbefore
  -- The columns of a row that carried nothing over.
  have hplain : (∀ r, takenOver live earlier e = some r → r.cap.isPromoted = false) →
      carryOver (takenOver kept earlier e) e = e → row.cap.uri = e.uri ∧ row.cap.governance =
        (Capmesh.indexed (capguardIsHeld live.quarantine e) (takenOver live earlier e) e).governance := by
    intro hunpromoted hcarry
    have hquarantine : before.db.quarantine = kept.quarantine :=
      (index_all_progress hearlier h.normalized hbefore).2
    refine ⟨by rw [hlanding.indexedColumns.uri, hprevious, hcarry], ?_⟩
    have hrow := hlanding.columns
    rw [hprevious, hcarry, hquarantine, h.held old hold e huri hhash] at hrow
    rw [hrow, ← h.copies.indexed_governance hunpromoted]
    rfl
  rcases h.copies.taken_over earlier e with
    ⟨hnone, hkeptNone⟩ | ⟨r, copy, hr, hcopy, hsame⟩
  · refine .inr ⟨fun r hr => by simp [hnone] at hr, hplain (fun r hr => by simp [hnone] at hr) ?_⟩
    rw [hkeptNone]
    rfl
  · by_cases hpromoted : r.cap.isPromoted = true
    · refine .inl ⟨r, hr, hpromoted, copy, (taken_over_some hcopy).1, ?_⟩
      rw [hlanding.indexedColumns.uri, hprevious, hcopy]
      simp [carryOver, hsame.isPromoted, hpromoted]
    · have hunpromoted : ∀ x, takenOver live earlier e = some x → x.cap.isPromoted = false := by
        intro x hx
        rw [hr] at hx
        cases hx
        simpa using hpromoted
      refine .inr ⟨hunpromoted, hplain hunpromoted ?_⟩
      rw [hcopy]
      simp [carryOver, hsame.isPromoted, hpromoted]

theorem landed_uri {new : CapabilityRow} (hsplit : planned = earlier ++ e :: later)
    (hbefore : indexAll p input (.start kept) earlier = .ok before)
    (hlanding : Landing p before.db after e new) (huri : new.cap.uri = old.cap.uri) :
    new.cap.uri = e.uri := by
  have hplanned : Planned p (earlier ++ e :: later) := hsplit ▸ h.filed
  have hearlier : Planned p earlier := hplanned.sublist (List.sublist_append_left _ _)
  have hprogress := (index_all_progress hearlier h.normalized hbefore).1.step hplanned hlanding
  have hfree : ∀ copy ∈ kept.capabilities, copy.cap.uri ≠ old.cap.uri := fun copy hcopy =>
    h.copies.uri_ne hold hordinary hcopy
  rcases hprogress new hlanding.row_mem with ⟨hstart, -⟩ | ⟨d, hd, hlanded⟩
  · exact absurd huri (hfree new hstart)
  · have hde : d = e := by
      rcases List.mem_append.mp hd with hd | hd
      · exact absurd (hlanded.canonicalKey.symm.trans hlanding.canonicalKey)
          (hplanned.ne_of_mem (.inl hd)).2
      · exact List.mem_singleton.mp hd
    -- A promoted address belongs to a copy.
    rcases hlanded.address with haddress | ⟨r, hr, -, -, haddress, -⟩
    · rw [haddress, hde]
    · exact absurd (haddress.symm.trans huri) (hfree r hr)

end Rebuilt

/-- A staged rebuild keeps every governance decision exactly when each decision is the one
discovery writes anyway. -/
theorem stage_rebuild_index_keeps_iff (hlive : live.Normalized)
    (hinit : live.Initialized input.builtins)
    (h : stageRebuildIndex p live input = .ok candidate)
    (hplan : rebuildPlan p live input = .ok planned) :
    KeepsGovernance live candidate ↔ DecisionsAgree live planned := by
  obtain ⟨kept, final, hrebuilt⟩ := stage_rebuild_index_rebuilt hlive hinit h hplan
  constructor
  · intro hkeeps earlier e later hsplit old hold hordinary huri hhash
    have hplanned : Planned p (earlier ++ e :: later) := hsplit ▸ hrebuilt.filed
    have hstart : (Indexing.start kept).db.Normalized := hrebuilt.normalized
    obtain ⟨before, next, row, hbefore, -, -, hlanding, hsettled⟩ :=
      index_all_settled hplanned hstart (hsplit ▸ hrebuilt.indexed)
    rcases hrebuilt.landed hold hordinary hsplit huri hhash hbefore hlanding with
      ⟨r, hr, hpromoted, -⟩ | ⟨-, hrowUri, hgovernance⟩
    · exact .inl ⟨r, hr, hpromoted⟩
    · have hrowSettled := hsettled fun later hlater =>
        hrowUri ▸ (hplanned.ne_of_mem (.inr hlater)).1
      have hrow : row ∈ candidate.capabilities :=
        (hrebuilt.retired.mem_iff row).mpr ⟨hrowSettled.mem, hrowSettled.not_orphan⟩
      have hkind : row.cap.isSystemOrDraft = false := by
        have hkind : row.cap.sourceKind = e.sourceKind :=
          hlanding.indexedColumns.sourceKind.trans (carry_over_source _ e).2.2.2
        simpa [Capability.isSystemOrDraft, hkind] using (hplanned.filed e (by simp)).2.2
      right
      rw [← hgovernance]
      exact (hkeeps old hold hordinary row hrow hkind (hrowUri.trans huri.symm)
        (hlanding.contentHash.trans hhash.symm)).1
  · intro hagree old hold hordinary new hnew hnewKind huri hhash
    suffices hgovernance : new.cap.governance = old.cap.governance from
      ⟨hgovernance, fun hblocked => hgovernance ▸ hblocked⟩
    have hfree : ∀ copy ∈ kept.capabilities, copy.cap.uri ≠ old.cap.uri := fun copy hcopy =>
      hrebuilt.copies.uri_ne hold hordinary hcopy
    obtain ⟨hnewFinal, -⟩ := (hrebuilt.retired.mem_iff new).mp hnew
    rcases index_all_landed hrebuilt.filed hrebuilt.normalized hrebuilt.indexed hnewFinal with
      hstart | ⟨earlier, e, later, before, after, hsplit, hbefore, hlanding⟩
    · exact absurd huri (hfree new hstart)
    · have hnewUri := hrebuilt.landed_uri hold hordinary hsplit hbefore hlanding huri
      have holdUri : old.cap.uri = e.uri := huri.symm.trans hnewUri
      have holdHash : old.cap.contentHash = e.contentHash :=
        hhash.symm.trans hlanding.contentHash
      rcases hrebuilt.landed hold hordinary hsplit holdUri holdHash hbefore hlanding with
        ⟨-, -, -, copy, hcopy, hcopyUri⟩ | ⟨hunpromoted, -, hgovernance⟩
      · exact absurd (hcopyUri.symm.trans huri) (hfree copy hcopy)
      · rw [hgovernance]
        rcases hagree earlier e later hsplit old hold hordinary holdUri holdHash with
          ⟨r, hr, hpromoted⟩ | hwritten
        · rw [hunpromoted r hr] at hpromoted
          cases hpromoted
        · exact hwritten

end

/-- The builtin `system.help`. -/
def systemHelp : Capability :=
  { uri := "cap://system/asg/help@0.1.0", capabilityType := .workflow, name := "system.help"
    version := "0.1.0", title := "System Help"
    description :=
      "Show capmesh syntax, examples, JSON schemas, and LLM/coder operating guidance."
    packagePath := "/opt/capmesh", entrypoint := "governance.py"
    sourcePath := "/opt/capmesh/governance.py", sourceKind := "system_capability"
    sourceSystem := "capmesh.system", canonicalKey := "workflow:system:system.help:0.1.0"
    contentHash := "sha256:81938fd121035de5566d74c86d7f15878e93cde4084b5535d996d95a0765eac7"
    owner := "asg-platform", plugin := some "capmesh-system", category := some "governance"
    keywords := ["governance", "identity", "namespace", "store", "approval", "system.help"]
    storeId := some "store_23c14037e2024da7dffb58a4", namespaceId := some "ns_65964ae6c530b05f86024240"
    createdBy := some "capmesh-system", lifecycle := .published, approvalState := .approved
    signatureStatus := .system, provenanceStatus := .system, riskReviewStatus := .approved
    metadata := [("rights", .arr [.str "discover", .str "load", .str "call"]),
      ("systemCapability", .bool true)] }

/-- The notes skill in the user's namespace, after a governance decision. -/
def decidedNotes (approvalState : ApprovalState) : CapabilityRow :=
  ⟨2, { (applyDefaultUserNamespace .sample (notesSkill "sha256:v1")).stored with approvalState }⟩

theorem system_help_decided_notes (approvalState : ApprovalState) :
    [⟨1, systemHelp⟩, decidedNotes approvalState].Pairwise
      fun a b => ¬ Constrained.Conflict a b := by
  have hdistinct : ¬ Constrained.Conflict ⟨1, systemHelp⟩ (decidedNotes .draft) := by
    decide +kernel
  refine List.pairwise_cons.mpr ⟨fun row hrow => ?_, List.pairwise_singleton _ _⟩
  rw [List.mem_singleton.mp hrow]
  exact hdistinct

/-- A live catalog with `system.help` and that skill, which no hold covers. -/
def decidedCatalog (approvalState : ApprovalState) : Database :=
  { Database.empty with
    capabilities := ⟨_, system_help_decided_notes approvalState⟩ }

theorem decided_catalog_normalized (approvalState : ApprovalState) :
    (decidedCatalog approvalState).Normalized := by
  intro row hrow
  rcases List.mem_cons.mp hrow with rfl | hrow
  · decide +kernel
  · rw [List.mem_singleton.mp hrow]
    exact (by decide +kernel : isAddressed (decidedNotes .draft).cap.uri = true)

theorem decided_catalog_initialized (approvalState : ApprovalState) :
    (decidedCatalog approvalState).Initialized [systemHelp] := by
  intro cap hcap
  rw [List.mem_singleton.mp hcap]
  exact ⟨⟨1, systemHelp⟩, List.mem_cons_self, rfl, rfl, by decide +kernel⟩

theorem first_hash_ne : "sha256:v1" ≠ "" := by decide

/-- A rebuild that discovers the same skill, unchanged. -/
def notesRebuild : RebuildInput .sample where
  toIngestInput := notesInput "sha256:v1" first_hash_ne
  builtins := [systemHelp]
  builtin cap hcap := by
    rw [List.mem_singleton.mp hcap]
    rfl
  embedPreserved _ _ := none
  approvedRemovals := []
  coverageOk := true

/-- Whether a row that was blocked is there with the same content and no longer blocked. -/
def losesDecision (live candidate : Database) : Bool :=
  live.capabilities.rows.any fun old => candidate.capabilities.rows.any fun new =>
    !old.cap.isSystemOrDraft && !new.cap.isSystemOrDraft && new.cap.uri = old.cap.uri &&
      new.cap.contentHash = old.cap.contentHash && old.cap.governance.isBlocked &&
      !new.cap.governance.isBlocked

theorem not_keeps_of_loses {live candidate : Database} (h : losesDecision live candidate = true) :
    ¬ KeepsGovernance live candidate := by
  intro hkeeps
  obtain ⟨old, hold, h⟩ := List.any_eq_true.mp h
  obtain ⟨new, hnew, h⟩ := List.any_eq_true.mp h
  simp only [Bool.and_eq_true, Bool.not_eq_true', decide_eq_true_eq] at h
  obtain ⟨⟨⟨⟨⟨holdKind, hnewKind⟩, huri⟩, hhash⟩, hblocked⟩, hserved⟩ := h
  have hstill := (hkeeps old hold holdKind new hnew hnewKind huri hhash).2 hblocked
  rw [hserved] at hstill
  cases hstill

/-- A rejected skill comes back as a draft. -/
theorem stage_rebuild_rejected_counterexample :
    ¬ ∀ (p : Platform) (input : RebuildInput p) (live candidate : Database),
      live.Normalized → live.Initialized input.builtins →
      stageRebuildIndex p live input = .ok candidate → KeepsGovernance live candidate := by
  intro hclaim
  have hloses : (stageRebuildIndex .sample (decidedCatalog .rejected) notesRebuild).toOption.any
      (losesDecision (decidedCatalog .rejected)) = true := by decide +kernel
  cases hresult : stageRebuildIndex .sample (decidedCatalog .rejected) notesRebuild with
  | error failure => simp [hresult, Except.toOption] at hloses
  | ok candidate =>
      refine not_keeps_of_loses (by simpa [hresult, Except.toOption] using hloses)
        (hclaim _ _ _ candidate (decided_catalog_normalized _) (decided_catalog_initialized _)
          hresult)

/-- A draft that no one decided on is rebuilt as it was. -/
theorem stage_rebuild_index_keeps_iff_draft : ∃ candidate,
    stageRebuildIndex .sample (decidedCatalog .draft) notesRebuild = .ok candidate ∧
      KeepsGovernance (decidedCatalog .draft) candidate := by
  have hsome : (stageRebuildIndex .sample (decidedCatalog .draft) notesRebuild).toOption.isSome =
      true := by decide +kernel
  have hagrees : (rebuildPlan .sample (decidedCatalog .draft) notesRebuild).toOption.all
      (fun planned => planned.length = 1 && planned.all fun e =>
        (indexed (capguardIsHeld (decidedCatalog .draft).quarantine e)
          (takenOver (decidedCatalog .draft) [] e) e).governance =
        (decidedNotes .draft).cap.governance) = true := by decide +kernel
  cases hresult : stageRebuildIndex .sample (decidedCatalog .draft) notesRebuild with
  | error failure => simp [hresult, Except.toOption] at hsome
  | ok candidate =>
      obtain ⟨_, _, _, planned, _, _, _, _, _, hplan, _⟩ := stage_rebuild_index_ok hresult
      simp only [hplan, Except.toOption, Option.all_some, Bool.and_eq_true, decide_eq_true_eq,
        List.all_eq_true] at hagrees
      obtain ⟨hlength, hagrees⟩ := hagrees
      refine ⟨candidate, rfl, (stage_rebuild_index_keeps_iff (decided_catalog_normalized _)
        (decided_catalog_initialized _) hresult hplan).mpr ?_⟩
      intro earlier e later hsplit old hold hordinary huri hhash
      right
      have hfirst : earlier = [] := by
        rw [hsplit, List.length_append, List.length_cons] at hlength
        exact List.length_eq_zero_iff.mp (by omega)
      rcases List.mem_cons.mp hold with rfl | hold
      · cases hordinary
      · rw [hfirst, hagrees e (by simp [hsplit]), List.mem_singleton.mp hold]

end Capmesh
