import Capmesh.Access.Sharing
import Capmesh.Execution.Watermark
import Capmesh.Governance.Addresses
import Capmesh.Governance.Drafts
import Capmesh.Governance.Trust
import Capmesh.Index.Initialization
import Capmesh.Lifecycle.Catalog
import Capmesh.Registry.PostIngest
import Capmesh.Relational.Collation

/-!
# The generation of the catalog

`_catalog_generation` of `index.py`, the digest of four columns of the capability rows that
replicas compare, and the writers of these columns. Ingest, `submit_promotion` and
`approve_request` store the generation of what they commit; the others commit without it.
`quiet_keeps` says what the others may do: the condition of each is that the columns it sets have
their value already. `generation_current` is the run.
-/

namespace Capmesh

open Python Relational Execution

/-- The stored text of an approval state. -/
def ApprovalState.text : ApprovalState → String
  | .draft => "draft"
  | .pending => "pending"
  | .published => "published"
  | .approved => "approved"
  | .rejected => "rejected"
  | .recalled => "recalled"
  | .demoted => "demoted"
  | .yanked => "yanked"
  | .other text => text

/-- The stored text of a share state. -/
def ShareState.text : ShareState → String
  | .notShared => "not_shared"
  | .shared => "shared"
  | .other text => text

/-- The columns a generation covers. -/
structure Fingerprint where
  uri : String
  contentHash : String
  approvalState : ApprovalState
  shareState : ShareState
  deriving DecidableEq, Repr

/-- The columns of a capability that a generation covers. -/
def Capability.fingerprint (cap : Capability) : Fingerprint :=
  ⟨cap.uri, cap.contentHash, cap.approvalState, cap.shareState⟩

/-- What one row adds to the digest. -/
def Fingerprint.line (columns : Fingerprint) : String :=
  join "\t" [columns.uri, columns.contentHash, columns.approvalState.text,
    columns.shareState.text] ++ "\n"

/-- The text that a generation is a digest of. -/
def Database.generationText (db : Database) : String :=
  join "" (((db.capabilities.rows.map (·.cap.fingerprint)).insertionSort
    fun a b => a.uri ≤ b.uri).map Fingerprint.line)

/-- `_catalog_generation`. -/
def catalogGeneration (p : Platform) (db : Database) : String :=
  "sha256:" ++ p.sha256Text db.generationText

/-- Two catalogs with the same rows, as far as a generation covers them. -/
def SameFingerprints (before after : Database) : Prop :=
  ∀ columns, (∃ row ∈ after.capabilities, row.cap.fingerprint = columns) ↔
    ∃ row ∈ before.capabilities, row.cap.fingerprint = columns

/-- A database that `init_db` leaves as it is, as far as a generation covers it: the rows that
are not system capabilities are at governed addresses, and the built-in ones stand with their
content. -/
structure Database.Opened (p : Platform) (db : Database) (builtins : List Capability) : Prop where
  addressed : ∀ row ∈ db.capabilities, row.cap.sourceKind ≠ "system_capability" →
    isAddressed row.cap.uri = true
  builtins : ∀ cap ∈ builtins,
    db.indexes (applyDefaultUserNamespace p cap).uri cap.contentHash = true

/-- `publish_private_capability`. -/
def publishPrivateCapability (db : Database) (call : EditCall) : Except Failure Database := do
  let cap ← requireCapabilityForEdit db call
  .ok (db.amendCapabilities (·.uri = cap.uri)
    (fun row => { row with lifecycle := .published, approvalState := .draft })
    fun _ => ⟨rfl, rfl, rfl, rfl⟩)

/-- The capability a draft call writes. -/
def DraftCall.drafted (p : Platform) (call : DraftCall) : Except Failure Capability := do
  let storeId ← checkDraft p call
  draftCapability p call storeId

/-- A lifecycle on the database and the keys of a host. -/
def Reviewing.on (ctx : Reviewing) (host : Host) : Reviewing :=
  { ctx with db := host.db, host := { ctx.host with keys := host.keys } }

/-- The rows a batch reviews. -/
def BatchRequest.page (request : BatchRequest) (db : Database) (principal : Principal) :
    List String :=
  (db.selectedUris principal.lifecycleTenant request.includeApproved request.afterUri).take
    request.limit.toNat

/-- One call of a writer of the covered columns. An ingest takes the built-in capabilities, the
discovery with its admission guards, the hook that runs before its commit, and the answers of the
embedding backend to the repair of the vectors after it. -/
inductive WriterCall (p : Platform) where
  | ingest (builtins : List Capability) (discover : Database → Except Failure (IngestInput p))
      (post : Database → Except Failure Database) (embed : Nat → String → Option String)
  | share (call : ShareCall)
  | submit (call : SubmitCall)
  | approve (call : ApproveCall)
  | review (ctx : Reviewing) (principal : Principal) (options : ReviewOptions)
      (identifier : String) (dryRun : Bool)
  | reviewBatch (ctx : Reviewing) (principal : Principal) (request : BatchRequest)
  | guard (call : GuardCall)
  | publishPrivate (call : EditCall)
  | createDraft (call : DraftCall)
  | updateDraft (call : EditCall)

/-- A transaction that commits without the generation, or fails. -/
def unmarkedCommit (host : Host) : Except Failure Database → List (Commit Host)
  | .ok db => [.unmarked { host with db }]
  | .error _ => []

/-- A transaction that refreshes the generation and commits, or fails. -/
def markedCommit (host : Host) : Except Failure Database → List (Commit Host)
  | .ok db => [.marked { host with db }]
  | .error _ => []

/-- The databases the quarantine pass of an ingest commits, one for each prefix of its batch. -/
def quarantineCommits (p : Platform) (db : Database) (input : IngestInput p) : List Database :=
  (List.range (input.batch.capabilities.length + 1)).map fun n =>
    (quarantineLoop p input db db ⟨0, 0⟩ (input.batch.capabilities.take n)).1

/-- The commits of `ingest_index` after `init_db`: the holds, the transaction of the index, and the
passes after it. -/
def ingestCommits (p : Platform) (host : Host) (input : IngestInput p)
    (post : Database → Except Failure Database) (embed : Nat → String → Option String) :
    List (Commit Host) :=
  ((quarantineCommits p host.db input).map fun db => ({ host with db } : Host)).map .unmarked ++
    match ingest p host.db input with
    | (_, .error _) => []
    | (result, .ok _) =>
        match post result with
        | .error _ => []
        | .ok db => .marked { host with db } ::
            ((passCommits input embed db).map fun db => ({ host with db } : Host)).map .unmarked

/-- The commits of a call, in order. -/
def writerCommits (p : Platform) (crypto : Crypto) (host : Host) :
    WriterCall p → List (Commit Host)
  | .ingest builtins discover post embed =>
      match initDb p builtins host.db with
      | .error _ => []
      | .ok db =>
          .unmarked { host with db } ::
            match discover db with
            | .error _ => []
            | .ok input => ingestCommits p { host with db } input post embed
  | .share call => unmarkedCommit host (createShare p host.db call)
  | .submit call => markedCommit host (submitPromotion p host.db call)
  | .approve call =>
      match approveRequest p host.db call with
      | (db, .ok _) => [.marked { host with db }]
      -- The gate states of a refused approval become durable with the next commit.
      | (db, .error _) => [.unmarked { host with db }]
  | .review ctx principal options identifier dryRun =>
      match lifecycleReview p (ctx.on host) principal options identifier dryRun with
      | .ok (_, next) => [.unmarked ⟨next.db, next.host.keys⟩]
      | .error _ => []
  | .reviewBatch ctx principal request =>
      match reviewBatch p (ctx.on host) principal request with
      | .ok (_, next) => [.unmarked ⟨next.db, next.host.keys⟩]
      | .error _ => []
  | .guard call =>
      match guardCall p crypto host call with
      | .ok after => [.unmarked after]
      | .error _ => []
  | .publishPrivate call => unmarkedCommit host (publishPrivateCapability host.db call)
  | .createDraft call => unmarkedCommit host (createCapabilityDraft p host.db call)
  | .updateDraft call => unmarkedCommit host (updateCapabilityDraft p host.db call)

/-- A call that, where it commits without the generation, sets no covered column to a new value. -/
def WriterCall.Quiet (p : Platform) (crypto : Crypto) (host : Host) : WriterCall p → Prop
  | .ingest builtins _ _ _ => ∀ db, initDb p builtins host.db = .ok db → host.db.Opened p builtins
  | .share call => ∀ after, createShare p host.db call = .ok after →
      ∀ row ∈ host.db.capabilities, row.cap.uri = call.capabilityUri → row.cap.shareState = .shared
  | .submit _ => True
  | .approve _ => True
  | .review ctx principal options identifier dryRun => dryRun = true ∨
      ∀ cap, ReviewPasses p (ctx.on host) principal options true identifier cap →
        cap.approvalState = .approved
  | .reviewBatch ctx principal request => request.dryRun = true ∨
      ∀ uri ∈ request.page host.db principal, ∀ cap,
        ReviewPasses p (ctx.on host) principal request.options true uri cap →
          cap.approvalState = .approved
  | .guard call => ∀ after, guardCall p crypto host call = .ok after →
      ∀ state, call.sets = some state → ∀ record ∈ host.db.quarantine,
        call.decides = some record.id → ∀ row ∈ host.db.capabilities,
          row.cap.tenantId = p.tenantOr call.tenant ∧ row.cap.uri = record.capabilityUri ∧
            row.cap.contentHash = record.contentHash → row.cap.approvalState = state
  | .publishPrivate call => ∀ cap, requireCapabilityForEdit host.db call = .ok cap →
      cap.approvalState = .draft
  | .createDraft call => ∀ after, createCapabilityDraft p host.db call = .ok after →
      ∀ cap, call.drafted p = .ok cap →
        host.db.indexes (applyDefaultUserNamespace p cap).uri cap.contentHash = true
  | .updateDraft call => ∀ after, updateCapabilityDraft p host.db call = .ok after →
      ∀ cap content, requireCapabilityForEdit host.db call = .ok cap →
        editedContent call = .ok content →
          host.db.indexes (applyDefaultUserNamespace p cap).uri
            ("sha256:" ++ p.sha256Text content) = true

section

variable {p : Platform} {before db after result : Database} {cap : Capability} {id : Nat}

theorem fingerprints_nodup (db : Database) :
    (db.capabilities.rows.map (·.cap.fingerprint)).Nodup := by
  refine List.pairwise_map.mpr (db.capabilities.unique.imp fun hconflict hsame => ?_)
  exact hconflict (.inr (.inl (congrArg Fingerprint.uri hsame)))

/-- A generation depends on nothing but the fingerprints of the rows. -/
theorem generation_text_congr (h : SameFingerprints before after) :
    after.generationText = before.generationText := by
  have hperm : (after.capabilities.rows.map (·.cap.fingerprint)).Perm
      (before.capabilities.rows.map (·.cap.fingerprint)) := by
    refine (List.perm_ext_iff_of_nodup (fingerprints_nodup after) (fingerprints_nodup before)).mpr
      fun columns => ?_
    rw [List.mem_map, List.mem_map]
    exact h columns
  unfold Database.generationText
  rw [sort_eq_of_perm (texts_preordered.comap Fingerprint.uri) (fun a ha b hb hab hba => ?_) hperm]
  -- Two fingerprints at one URI are those of one row.
  obtain ⟨x, hx, rfl⟩ := List.mem_map.mp ha
  obtain ⟨y, hy, rfl⟩ := List.mem_map.mp hb
  rw [Database.eq_of_uri hx hy (String.le_antisymm hab hba)]

theorem SameFingerprints.refl (db : Database) : SameFingerprints db db := fun _ => Iff.rfl

theorem SameFingerprints.trans (h : SameFingerprints before db)
    (hnext : SameFingerprints db after) : SameFingerprints before after :=
      fun columns => (hnext columns).trans (h columns)

theorem same_fingerprints_map {change : CapabilityRow → CapabilityRow}
    (hmem : ∀ x, x ∈ after.capabilities ↔ ∃ y ∈ before.capabilities, change y = x)
    (h : ∀ row ∈ before.capabilities, (change row).cap.fingerprint = row.cap.fingerprint) :
    SameFingerprints before after := by
  intro columns
  constructor
  · rintro ⟨row, hrow, rfl⟩
    obtain ⟨old, hold, rfl⟩ := (hmem row).mp hrow
    exact ⟨old, hold, (h old hold).symm⟩
  · rintro ⟨row, hrow, rfl⟩
    exact ⟨change row, (hmem _).mpr ⟨row, hrow, rfl⟩, h row hrow⟩

theorem same_fingerprints_amend {selects : Capability → Bool} {change : Capability → Capability}
    (hmem : ∀ x, x ∈ after.capabilities ↔
      ∃ y ∈ before.capabilities, y.amend selects change = x)
    (h : ∀ row ∈ before.capabilities, selects row.cap = true →
      (change row.cap).fingerprint = row.cap.fingerprint) : SameFingerprints before after := by
  refine same_fingerprints_map hmem fun row hrow => ?_
  unfold CapabilityRow.amend
  split
  · exact h row hrow ‹_›
  · rfl

/-- Whether a catalog indexes a URI with a content can be read off the fingerprints. -/
theorem SameFingerprints.indexes (h : SameFingerprints before after) (uri hash : String) :
    after.indexes uri hash = before.indexes uri hash := by
  have hiff : ∀ db : Database, db.indexes uri hash = true ↔ ∃ columns : Fingerprint,
      (∃ row ∈ db.capabilities, row.cap.fingerprint = columns) ∧
        columns.uri = uri ∧ columns.contentHash = hash := by
    intro db
    rw [Database.indexes_iff]
    constructor
    · rintro ⟨row, hrow, huri, hhash⟩
      exact ⟨_, ⟨row, hrow, rfl⟩, huri, hhash⟩
    · rintro ⟨_, ⟨row, hrow, rfl⟩, huri, hhash⟩
      exact ⟨row, hrow, huri, hhash⟩
  rw [Bool.eq_iff_iff, hiff, hiff]
  simp only [h _]

theorem same_fingerprints_upsert (h : upsertCapability p db cap = .ok (id, result))
    (hindexed : db.indexes (applyDefaultUserNamespace p cap).uri cap.contentHash = true) :
    SameFingerprints db result := by
  obtain ⟨table, expected, hwrite, -, -, rfl⟩ := upsert_capability_ok h
  obtain ⟨row, hrow, huri, hhash⟩ := Database.indexes_iff.mp hindexed
  have htarget := (incoming_source p db cap).2.1
  rw [← incoming_uri p db cap] at huri
  rw [← htarget] at hhash
  obtain ⟨hmem, -, -⟩ := write_row_ok hwrite
  generalize incoming p db cap = target at huri hhash hmem
  have hat : db.capabilityAt target.uri = some row := huri ▸ Database.capability_at_eq hrow
  rw [hat] at hmem
  -- The content is the same, so the governed columns are those of the row.
  have hsame : (written (some row) target).fingerprint = row.cap.fingerprint := by
    simp [written, Capability.fingerprint, merged, mergeState, Capability.stored, huri, hhash]
  intro columns
  constructor
  · rintro ⟨x, hx, rfl⟩
    rcases (hmem x).mp hx with rfl | ⟨hx, -⟩
    · exact ⟨row, hrow, hsame.symm⟩
    · exact ⟨x, hx, rfl⟩
  · rintro ⟨x, hx, rfl⟩
    by_cases hxUri : x.cap.uri = target.uri
    · refine ⟨_, (hmem _).mpr (.inl rfl), ?_⟩
      rw [Database.eq_of_uri hx hrow (hxUri.trans huri.symm)]
      exact hsame
    · exact ⟨x, (hmem x).mpr (.inr ⟨hx, hxUri⟩), rfl⟩

/-- A row at a governed address is normalized in place. -/
theorem normalize_row_in_place {row : CapabilityRow} {changed : Nat} (hrow : row ∈ db.capabilities)
    (haddressed : isAddressed row.cap.uri = true)
    (h : normalizeRow p db row = .ok (changed, result)) :
    SameFingerprints db result ∧
      ∀ other ∈ db.capabilities, other.id ≠ row.id → other ∈ result.capabilities := by
  rcases normalize_row_ok hrow h with ⟨-, rfl⟩ | ⟨hmoves, -, hmem⟩
  · exact ⟨.refl _, fun other hother _ => hother⟩
  have hplain : ¬ row.cap.isSystem = true := fun hsystem =>
    hmoves (apply_default_of_governed (.inl hsystem))
  have hgoverned : isGovernedUri row.cap.uri = true := by
    simp only [Capability.isSystem, Bool.or_eq_true, not_or] at hplain
    simpa [isAddressed, hplain.2] using haddressed
  have hdefault : applyDefaultUserNamespace p row.cap =
      { row.cap with tenantId := p.tenantOr row.cap.tenantId } := by
    unfold applyDefaultUserNamespace
    rw [if_neg hplain]
    exact if_pos hgoverned
  -- No other row is at the URI, so the row stays there.
  have hfree : db.takenUri row.id row.cap.uri = false := by
    rw [Bool.eq_false_iff]
    intro htaken
    obtain ⟨other, hother, hsame⟩ := Table.any_iff.mp htaken
    simp only [Bool.and_eq_true, decide_eq_true_eq] at hsame
    exact hsame.2 (congrArg (·.id) (Database.eq_of_uri hother hrow hsame.1))
  have hstays : uniqueMigrationUri p db row.cap.uri row.id row.cap.canonicalKey = row.cap.uri := by
    unfold uniqueMigrationUri
    rw [hfree]
    rfl
  refine ⟨fun columns => ?_, fun other hother hid => (hmem other).mpr (.inr ⟨hother, hid⟩)⟩
  rw [hdefault] at hmem
  dsimp only at hmem
  rw [hstays] at hmem
  constructor
  · rintro ⟨x, hx, rfl⟩
    rcases (hmem x).mp hx with rfl | ⟨hx, -⟩
    · exact ⟨row, hrow, rfl⟩
    · exact ⟨x, hx, rfl⟩
  · rintro ⟨x, hx, rfl⟩
    by_cases hid : x.id = row.id
    · exact ⟨_, (hmem _).mpr (.inl rfl), by rw [Database.eq_of_id hx hrow hid]; rfl⟩
    · exact ⟨x, (hmem x).mpr (.inr ⟨hx, hid⟩), rfl⟩

theorem normalize_all_in_place {rows : List CapabilityRow} {changed : Nat}
    (hrows : ∀ row ∈ rows, row ∈ db.capabilities ∧ isAddressed row.cap.uri = true)
    (hids : rows.Pairwise fun a b => a.id ≠ b.id)
    (h : normalizeAll p db rows = .ok (changed, result)) : SameFingerprints db result := by
  induction rows generalizing db changed with
  | nil =>
      cases h
      exact .refl _
  | cons row rows ih =>
      unfold normalizeAll at h
      obtain ⟨⟨first, next⟩, hnext, h⟩ := bind_eq_ok h
      obtain ⟨⟨more, final⟩, hfinal, h⟩ := bind_eq_ok h
      cases h
      obtain ⟨hother, hids⟩ := List.pairwise_cons.mp hids
      obtain ⟨hrow, haddressed⟩ := hrows row List.mem_cons_self
      obtain ⟨hsame, hstand⟩ := normalize_row_in_place hrow haddressed hnext
      refine hsame.trans (ih (fun other hmem => ?_) hids hfinal)
      obtain ⟨hin, hat⟩ := hrows other (List.mem_cons_of_mem row hmem)
      exact ⟨hstand other hin (hother other hmem).symm, hat⟩

theorem upsert_builtins_in_place {caps : List Capability}
    (hindexed : ∀ cap ∈ caps,
      db.indexes (applyDefaultUserNamespace p cap).uri cap.contentHash = true)
    (h : upsertBuiltins p db caps = .ok result) : SameFingerprints db result := by
  induction caps generalizing db with
  | nil =>
      cases h
      exact .refl _
  | cons cap caps ih =>
      unfold upsertBuiltins at h
      obtain ⟨⟨id, next⟩, hnext, h⟩ := bind_eq_ok h
      have hsame := same_fingerprints_upsert hnext (hindexed cap List.mem_cons_self)
      refine hsame.trans (ih (fun other hmem => ?_) h)
      rw [hsame.indexes]
      exact hindexed other (List.mem_cons_of_mem cap hmem)

/-- `init_db` on a database it has opened before. -/
theorem Database.Opened.init {builtins : List Capability} (hopened : db.Opened p builtins)
    (h : initDb p builtins db = .ok result) : SameFingerprints db result := by
  unfold initDb at h
  obtain ⟨⟨changed, normalized⟩, hnormalize, h⟩ := bind_eq_ok h
  have hids : (db.capabilities.rows.filter (·.cap.sourceKind ≠ "system_capability")).Pairwise
      fun a b => a.id ≠ b.id :=
    (db.capabilities.unique.imp fun hconflict hid => hconflict (.inl hid)).filter _
  have hnormalized : SameFingerprints db normalized := by
    refine normalize_all_in_place (fun row hrow => ?_) hids hnormalize
    obtain ⟨hrow, hkind⟩ := List.mem_filter.mp hrow
    exact ⟨hrow, hopened.addressed row hrow (by simpa using hkind)⟩
  refine hnormalized.trans (upsert_builtins_in_place (fun cap hcap => ?_) h)
  rw [hnormalized.indexes]
  exact hopened.builtins cap hcap

theorem create_capability_draft_drafted {call : DraftCall}
    (h : createCapabilityDraft p db call = .ok result) :
    ∃ cap id, call.drafted p = .ok cap ∧ upsertCapability p db cap = .ok (id, result) := by
  unfold createCapabilityDraft at h
  obtain ⟨storeId, hstore, h⟩ := bind_eq_ok h
  obtain ⟨cap, hcap, h⟩ := bind_eq_ok h
  obtain ⟨⟨id, written⟩, hupsert, h⟩ := bind_eq_ok h
  cases h
  refine ⟨cap, id, ?_, hupsert⟩
  unfold DraftCall.drafted
  rw [hstore]
  exact hcap

theorem update_capability_draft_edited {call : EditCall}
    (h : updateCapabilityDraft p db call = .ok result) :
    ∃ cap content edited id, requireCapabilityForEdit db call = .ok cap ∧
      editedContent call = .ok content ∧ edited.contentHash = "sha256:" ++ p.sha256Text content ∧
      (applyDefaultUserNamespace p edited).uri = (applyDefaultUserNamespace p cap).uri ∧
      upsertCapability p db edited = .ok (id, result) := by
  unfold updateCapabilityDraft at h
  obtain ⟨cap, hcap, h⟩ := bind_eq_ok h
  obtain ⟨content, hcontent, h⟩ := bind_eq_ok h
  obtain ⟨riskTier, -, h⟩ := bind_eq_ok h
  obtain ⟨⟨id, written⟩, hupsert, h⟩ := bind_eq_ok h
  cases h
  refine ⟨cap, content, _, id, hcap, hcontent, rfl, ?_, hupsert⟩
  rw [apply_default_uri, apply_default_uri]
  rfl

theorem edited_capability_mem {call : EditCall} (h : requireCapabilityForEdit db call = .ok cap) :
    ∃ row ∈ db.capabilities, row.cap = cap := by
  unfold requireCapabilityForEdit at h
  dsimp only at h
  split at h
  · cases h
  split at h
  · cases h
  rename_i hserved
  split at h
  · cases h
  split at h
  · cases h
  cases h
  exact get_capability_mem hserved

theorem same_fingerprints_reviewed {start ctx : Reviewing} {targets : List String}
    (h : ReviewedFrom p start ctx targets)
    (happroved : ∀ row ∈ start.db.capabilities, row.cap.uri ∈ targets →
      row.cap.approvalState = .approved) : SameFingerprints start.db ctx.db := by
  have hmem : ∀ x, x ∈ ctx.db.capabilities ↔
      ∃ y ∈ start.db.capabilities, y.reviewedIn targets = x := by
    intro x
    rw [← Table.mem_rows, h.rows]
    exact List.mem_map
  refine same_fingerprints_map hmem fun row hrow => ?_
  show (row.cap.reviewedIn targets).fingerprint = _
  unfold Capability.reviewedIn
  split
  · rename_i htarget
    have hstate := happroved row hrow (by simpa using htarget)
    simp [Capability.fingerprint, Capability.reviewed, hstate]
  · rfl

theorem review_same_fingerprints {ctx next : Reviewing} {principal : Principal}
    {options : ReviewOptions} {identifier : String} {dryRun : Bool} {review : Review}
    (hquiet : dryRun = true ∨ ∀ cap, ReviewPasses p ctx principal options true identifier cap →
      cap.approvalState = .approved)
    (h : lifecycleReview p ctx principal options identifier dryRun = .ok (review, next)) :
    SameFingerprints ctx.db next.db := by
  cases dryRun with
  | true =>
      rw [lifecycle_review_dry h]
      exact .refl _
  | false =>
      have hquiet := hquiet.resolve_left Bool.false_ne_true
      refine same_fingerprints_reviewed (lifecycle_review_step (.refl ctx) h)
        fun row hrow htarget => ?_
      cases hpassed : review.passed with
      | false => simp [hpassed] at htarget
      | true =>
          rw [hpassed] at htarget
          obtain ⟨cap, huri, hpasses⟩ :=
            lifecycle_review_passed_iff.mp ⟨review, next, h, hpassed, rfl⟩
          obtain ⟨served, hserved, hcap⟩ := get_capability_mem hpasses.served
          have hsame : row = served := Database.eq_of_uri hrow hserved (by
            rw [hcap, huri]
            simpa using htarget)
          rw [hsame, hcap]
          exact hquiet cap hpasses

theorem review_batch_same_fingerprints {ctx next : Reviewing} {principal : Principal}
    {request : BatchRequest} {batch : BatchReview}
    (hquiet : request.dryRun = true ∨ ∀ uri ∈ request.page ctx.db principal, ∀ cap,
      ReviewPasses p ctx principal request.options true uri cap → cap.approvalState = .approved)
    (h : reviewBatch p ctx principal request = .ok (batch, next)) :
    SameFingerprints ctx.db next.db := by
  have hauthorized : ctx.Authorizes p principal := by
    obtain ⟨_, hauthorize, -⟩ := bind_eq_ok h
    exact authorize_eq_ok_iff.mp hauthorize
  have hlimit : 1 ≤ request.limit ∧ request.limit ≤ maxBatch := by
    obtain ⟨_, -, hlimit⟩ := bind_eq_ok h
    dsimp only at hlimit
    split at hlimit
    · cases hlimit
    · rename_i hwithin
      simp only [Bool.or_eq_true, decide_eq_true_eq] at hwithin
      omega
  rw [review_batch_eq hauthorized hlimit.1 hlimit.2 rfl] at h
  cases h
  show SameFingerprints ctx.db (reviewItems p principal request.options request.dryRun ctx
    (request.page ctx.db principal)).2.db
  cases hdry : request.dryRun with
  | true =>
      rw [review_items_dry]
      exact .refl _
  | false =>
      have hquiet := hquiet.resolve_left (by simp [hdry])
      obtain ⟨-, -, hlast⟩ := review_items_spec principal request.options
        (request.page ctx.db principal) (ReviewedFrom.refl (p := p) ctx)
      refine same_fingerprints_reviewed hlast fun row hrow htarget => ?_
      rw [List.nil_append] at htarget
      obtain ⟨uri, huri, hanswer⟩ := List.mem_filterMap.mp htarget
      obtain ⟨cap, hcap, hpasses⟩ := approves_with_eq_some_iff.mp hanswer
      obtain ⟨served, hserved, heq⟩ := get_capability_mem hpasses.served
      have hsame : row = served := Database.eq_of_uri hrow hserved (by rw [heq, hcap])
      rw [hsame, heq]
      exact hquiet uri huri cap hpasses

theorem same_fingerprints_decide {tenant uri hash : String} (lifecycle : Lifecycle)
    {state : ApprovalState}
    (hmem : ∀ x, x ∈ after.capabilities ↔
      ∃ y ∈ before.capabilities, y.decide tenant uri hash lifecycle state = x)
    (h : ∀ row ∈ before.capabilities, row.cap.tenantId = tenant ∧ row.cap.uri = uri ∧
      row.cap.contentHash = hash → row.cap.approvalState = state) :
    SameFingerprints before after := by
  refine same_fingerprints_map hmem fun row hrow => ?_
  unfold CapabilityRow.decide
  split
  · simp [Capability.fingerprint, h row hrow ‹_›]
  · rfl

theorem guard_call_same_fingerprints {crypto : Crypto} {host next : Host} {call : GuardCall}
    (hquiet : ∀ state, call.sets = some state → ∀ record ∈ host.db.quarantine,
      call.decides = some record.id → ∀ row ∈ host.db.capabilities,
        row.cap.tenantId = p.tenantOr call.tenant ∧ row.cap.uri = record.capabilityUri ∧
          row.cap.contentHash = record.contentHash → row.cap.approvalState = state)
    (h : guardCall p crypto host call = .ok next) : SameFingerprints host.db next.db := by
  rcases guard_call_capabilities h with
    hkept | ⟨record, hrecord, lifecycle, state, hdecides, hsets, hdecided⟩
  · intro columns
    simp only [hkept]
  · exact same_fingerprints_decide lifecycle hdecided (hquiet state hsets record hrecord hdecides)

end

/-- The generation of a host's catalog. -/
def hostGeneration (p : Platform) (host : Host) : String := catalogGeneration p host.db

section

open Marked

variable {p : Platform} {crypto : Crypto} {host : Host}

/-- A commit that keeps the fingerprints keeps the generation. -/
theorem generation_congr {before after : Host} (h : SameFingerprints before.db after.db) :
    hostGeneration p after = hostGeneration p before :=
  congrArg (fun text => "sha256:" ++ p.sha256Text text) (generation_text_congr h)

theorem keeps_unmarked_commit {outcome : Except Failure Database}
    (h : ∀ after, outcome = .ok after → SameFingerprints host.db after) :
    Keeps (hostGeneration p) (hostGeneration p host) (unmarkedCommit host outcome) := by
  cases outcome with
  | error failure => trivial
  | ok after => exact ⟨generation_congr (h after rfl), trivial⟩

theorem keeps_marked_commit (mark : String) (outcome : Except Failure Database) :
    Keeps (hostGeneration p) mark (markedCommit host outcome) := by
  cases outcome <;> trivial

theorem keeps_ingest_commits (input : IngestInput p) (post : Database → Except Failure Database)
    (embed : Nat → String → Option String) :
    Keeps (hostGeneration p) (hostGeneration p host) (ingestCommits p host input post embed) := by
  unfold ingestCommits
  rw [keeps_unmarked_append fun state hstate => ?_]
  · split
    · trivial
    · split
      · trivial
      · rw [Keeps, ← List.append_nil (List.map _ _), keeps_unmarked_append fun state hstate => ?_]
        · trivial
        · obtain ⟨after, hafter, rfl⟩ := List.mem_map.mp hstate
          refine generation_congr fun columns => ?_
          rw [pass_commits_capabilities hafter]
  · obtain ⟨db, hdb, rfl⟩ := List.mem_map.mp hstate
    obtain ⟨n, -, rfl⟩ := List.mem_map.mp hdb
    have hadded := (quarantine_loop_ok (.refl host.db) (Prod.ext rfl rfl :
      quarantineLoop p input host.db host.db ⟨0, 0⟩ (input.batch.capabilities.take n) = _)).1
    refine generation_congr fun columns => ?_
    rw [hadded.capabilities]

theorem quiet_keeps {call : WriterCall p} (h : call.Quiet p crypto host) :
    Keeps (hostGeneration p) (hostGeneration p host) (writerCommits p crypto host call) := by
  cases call with
  | ingest builtins discover post embed =>
      dsimp only [writerCommits]
      cases hinit : initDb p builtins host.db with
      | error failure => trivial
      | ok db =>
          have hsame : hostGeneration p { host with db } = hostGeneration p host :=
            generation_congr ((h db hinit).init hinit)
          refine ⟨hsame, ?_⟩
          rw [← hsame]
          cases discover db with
          | error failure => trivial
          | ok input => exact keeps_ingest_commits input post embed
  | share call =>
      refine keeps_unmarked_commit fun after hafter => ?_
      refine same_fingerprints_amend (create_share_ok hafter).2 fun row hrow huri => ?_
      simp [Capability.fingerprint, h after hafter row hrow (of_decide_eq_true huri)]
  | submit call => exact keeps_marked_commit _ _
  | approve call =>
      dsimp only [writerCommits]
      cases houtcome : approveRequest p host.db call with
      | mk db outcome =>
          cases outcome with
          | ok done => trivial
          | error failure =>
              refine ⟨generation_congr ?_, trivial⟩
              obtain ⟨-, hsame | ⟨_, _, hok, _⟩⟩ := approve_request_cases houtcome
              · intro columns
                dsimp only
                rw [hsame]
              · cases hok
  | review ctx principal options identifier dryRun =>
      dsimp only [writerCommits]
      cases hreview : lifecycleReview p (ctx.on host) principal options identifier dryRun with
      | error failure => trivial
      | ok result => exact ⟨generation_congr (review_same_fingerprints h hreview), trivial⟩
  | reviewBatch ctx principal request =>
      dsimp only [writerCommits]
      cases hbatch : reviewBatch p (ctx.on host) principal request with
      | error failure => trivial
      | ok result =>
          have hsame : SameFingerprints (ctx.on host).db result.2.db :=
            review_batch_same_fingerprints h hbatch
          exact ⟨generation_congr hsame, trivial⟩
  | guard call =>
      dsimp only [writerCommits]
      cases hcall : guardCall p crypto host call with
      | error failure => trivial
      | ok after =>
          exact ⟨generation_congr (guard_call_same_fingerprints (h after hcall) hcall), trivial⟩
  | publishPrivate call =>
      refine keeps_unmarked_commit fun after hafter => ?_
      obtain ⟨cap, hcap, hafter⟩ := bind_eq_ok hafter
      cases hafter
      refine same_fingerprints_amend (fun x => mem_amend_capabilities x) fun row hrow huri => ?_
      obtain ⟨served, hserved, heq⟩ := edited_capability_mem hcap
      have hsame : row = served :=
        Database.eq_of_uri hrow hserved (by rw [heq]; exact of_decide_eq_true huri)
      have hstate : row.cap.approvalState = .draft := by
        rw [hsame, heq]
        exact h cap hcap
      simp [Capability.fingerprint, hstate]
  | createDraft call =>
      refine keeps_unmarked_commit fun after hafter => ?_
      obtain ⟨cap, id, hcap, hupsert⟩ := create_capability_draft_drafted hafter
      exact same_fingerprints_upsert hupsert (h after hafter cap hcap)
  | updateDraft call =>
      refine keeps_unmarked_commit fun after hafter => ?_
      obtain ⟨cap, content, edited, id, hcap, hcontent, hhash, huri, hupsert⟩ :=
        update_capability_draft_edited hafter
      refine same_fingerprints_upsert hupsert ?_
      rw [huri, hhash]
      exact h after hafter cap content hcap hcontent

end

/-- The text of a generation that covers the help capability and the notes skill. -/
def notesGenerationText (shareState : ShareState) : String :=
  "cap://system/asg/help@0.1.0\t" ++
    "sha256:81938fd121035de5566d74c86d7f15878e93cde4084b5535d996d95a0765eac7" ++
    "\tapproved\tnot_shared\n" ++
    "cap://user/asg/idn_8a771be063fbef53149d218b/private/personal/skill/notes.notes@0.1.0" ++
    "\tsha256:v1\tpending\t" ++ shareState.text ++ "\n"

/-- A deployment that knows SHA-256 on these texts. -/
def generationPlatform : Platform := .ascii fun content =>
  (((sampleDigests ++
    [(notesGenerationText .notShared,
        "a23bba376823ea7af79a2839eea3991ed5cc2fc5692164ddcd9e01a4c50ae389"),
      (notesGenerationText .shared,
        "dcaa41b7832e57d4424a773333512e8ef2fb2f2f98206e7f752a956c6e49c8b2")]).find?
    fun entry => entry.1.toUTF8.data.toList = content).map (·.2)).getD ""

/-- An ingest of the notes skill alone. -/
def ingestNotes : WriterCall generationPlatform :=
  .ingest [systemHelp] (fun _ => .ok (.bare (.single (notesSkill "sha256:v1") (by decide)
    (Capability.unlisted rfl)))) .ok fun _ _ => none

/-- What calls leave of an empty host without a generation. -/
def generationRun (calls : List (WriterCall generationPlatform)) : Marked Host String :=
  run (Marked.turn (hostGeneration generationPlatform)
    (writerCommits generationPlatform .transparent)) ⟨emptyHost, none⟩ calls

/-- A share of the ingested skill by its owner. -/
def shareIngested (shareId : String) : WriterCall generationPlatform :=
  .share (ShareCall.decided generationPlatform
    ⟨(generationRun [ingestNotes]).state.db, ⟨[], [], [], [], []⟩, fun _ _ => none,
      "2026-01-01 00:00:00"⟩
    { principal := { subject := "capmesh", tenantId := "asg" }
      capabilityUri :=
        "cap://user/asg/idn_8a771be063fbef53149d218b/private/personal/skill/notes.notes@0.1.0"
      rights := ["load"], subjectId := "bob", access := ⟨false, ""⟩
      grant := fun _ => ⟨false, ""⟩, shareId, tupleIds := ("rel_" ++ ·) })

end Capmesh
