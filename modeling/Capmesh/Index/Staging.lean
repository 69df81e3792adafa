import Capmesh.Governance.CatalogIndex
import Capmesh.Index.Initialization

/-!
# The removal contract of a staged rebuild

`stage_rebuild_index` of `index.py` with its file operations: the live database is
initialised and copied, the copy is initialised, rebuilt and validated, and a failure of the
rebuild deletes it. `stage_rebuild_contract` says when the contract holds. A successful
rebuild meets it unless the batch takes over a system capability or draft; a failed one
leaves the copy behind when discovery or the removal manifest fails, which the code reads
outside the block that cleans up.
-/

namespace Capmesh

open Python Relational

/-- The `approved_removals` argument: nothing, a file with its parsed content, or a collection. -/
inductive RemovalManifest where
  | absent
  | file (content : Except Failure Json)
  | values (items : List Json)

/-- The URIs of a manifest, when each of its items is a string. -/
def removalUris (items : List Json) : Except Failure (List String) :=
  items.mapM fun
    | .str uri => .ok uri
    | _ => .error (.value
        "Removal manifest must be a JSON list or \x7b'approvedRemovals': [uri, ...]\x7d")

/-- `_approved_removal_uris`. -/
def approvedRemovalUris : RemovalManifest → Except Failure (List String)
  | .absent => .ok []
  | .file content => do
      let raw ← content
      let values := match raw with
        | .obj fields => (fields.lookup "approvedRemovals").getD (.arr [])
        | raw => raw
      match values with
      | .arr items => removalUris items
      | _ => .error (.value
          "Removal manifest must be a JSON list or \x7b'approvedRemovals': [uri, ...]\x7d")
  | .values items => removalUris items

/-- One call of `stage_rebuild_index`: the resolved paths, what discovery and the vector backend
answer, the manifest, and whether the candidate covers every discovered source. -/
structure StageCall (p : Platform) where
  dbPath : String
  candidatePath : Option String
  discovered : Except Failure (Batch p)
  manifest : RemovalManifest
  builtins : Builtins
  placement : PlacementIndex
  vectorEnabled : Bool
  embed : Nat → String → Option String
  ids : Nat → String
  embedPreserved : Nat → String → Option String
  coverageOk : Bool

/-- The input of the index pass. -/
def StageCall.ingest {p : Platform} (call : StageCall p) (batch : Batch p) : IngestInput p where
  batch
  placement := call.placement
  vectorEnabled := call.vectorEnabled
  embed := call.embed
  ids := call.ids

/-- The input of the rebuild, once discovery and the manifest are read. -/
def StageCall.rebuild {p : Platform} (call : StageCall p) (batch : Batch p)
    (approved : List String) : RebuildInput p where
  toIngestInput := call.ingest batch
  builtins := call.builtins.capabilities
  builtin := call.builtins.system
  embedPreserved := call.embedPreserved
  approvedRemovals := approved
  coverageOk := call.coverageOk

/-- `Path.parent` of a resolved path, with its last slash. -/
def parentPath (path : String) : String :=
  String.ofList (path.toList.reverse.dropWhile (· ≠ '/')).reverse

/-- Whether the candidate is to be in another directory than the live database. -/
def StageCall.isForeign {p : Platform} (call : StageCall p) : Bool :=
  call.candidatePath.any fun path => parentPath path ≠ parentPath call.dbPath

/-- The two database files after a call, and what it returns. -/
structure StageOutcome where
  live : Option Database
  candidate : Option Database
  result : Except Failure Unit

/-- The files once the candidate exists. A candidate at the path of the live database has
replaced it. -/
def StageCall.leaves {p : Platform} (call : StageCall p) (live : Database)
    (candidate : Option Database) (result : Except Failure Unit) : StageOutcome where
  live := if call.candidatePath = some call.dbPath then candidate else some live
  candidate
  result

/-- `stage_rebuild_index`. Discovery, the manifest and the second `init_db` run before the block
that deletes the candidate on a failure. -/
def stageRebuild (p : Platform) (live : Database) (call : StageCall p) : StageOutcome :=
  match initDb p call.builtins.capabilities live with
  | .error failure => ⟨some live, none, .error failure⟩
  | .ok initialized =>
      if call.isForeign then
        ⟨some initialized, none, .error (.value
          "Candidate DB must be on the same filesystem/directory as the live DB")⟩
      else
        let attempt : Except Failure (Batch p × List String × Database) := do
          let batch ← call.discovered
          let approved ← approvedRemovalUris call.manifest
          let copy ← initDb p call.builtins.capabilities initialized
          .ok (batch, approved, copy)
        match attempt with
        | .error failure => call.leaves initialized (some initialized) (.error failure)
        | .ok (batch, approved, copy) =>
            match stageRebuildIndex p copy (call.rebuild batch approved) with
            | .error failure => call.leaves initialized none (.error failure)
            | .ok candidate => call.leaves initialized (some candidate) (.ok ())

/-- What a successful rebuild promises. The catalog that `init_db` left loses exactly the approved
URIs; the index and the governance references are complete; each system capability and draft
survives in its row, up to the order of its metadata. -/
structure RemovalContract (initialized candidate : Database) (approved : List String) : Prop where
  removed : ∀ uri, (uri ∈ initialized.ordinaryUris ∧ uri ∉ candidate.ordinaryUris) ↔ uri ∈ approved
  text : ∀ row ∈ candidate.capabilities, ∃ fts ∈ candidate.fts, fts.rowid = row.id
  sourced : ∀ row ∈ candidate.capabilities, row.cap.isSystemOrDraft = false →
    ∃ source ∈ candidate.sources, source.uri = row.cap.uri
  shares : ∀ share ∈ candidate.shares,
    ∃ row ∈ candidate.capabilities, row.cap.uri = share.capabilityUri
  requests : ∀ request ∈ candidate.requests, request.state = .pending →
    ∃ row ∈ candidate.capabilities, row.cap.uri = request.capabilityUri
  tuples : ∀ tuple ∈ candidate.tuples, startsWith tuple.object "cap://" = true →
    ∃ row ∈ candidate.capabilities, row.cap.uri = tuple.object
  survives : ∀ row ∈ initialized.capabilities, row.cap.isSystemOrDraft = true →
    ∃ copy ∈ candidate.capabilities, copy.id = row.id ∧
      copy.cap = { row.cap with metadata := copy.cap.metadata }

/-- Nothing that the batch plans over the system capabilities and drafts of a catalog has the URI
or the key of one of them. -/
def Database.NoTakeover (p : Platform) (db : Database) (input : IngestInput p) : Prop :=
  ∀ planned, plan p input (db.capabilities.filter fun row => row.cap.isSystemOrDraft) = .ok planned →
    ∀ e ∈ planned, ∀ row ∈ db.capabilities, row.cap.isSystemOrDraft = true →
      row.cap.uri ≠ e.uri ∧ row.cap.canonicalKey ≠ e.canonicalKey

/-- The contract of a call: a successful one meets `RemovalContract`, a failed one leaves the live
database as `init_db` left it and no candidate. -/
structure StageCall.MeetsContract {p : Platform} (call : StageCall p) (live : Database) : Prop where
  success : (stageRebuild p live call).result = .ok () → ∃ initialized approved candidate,
    initDb p call.builtins.capabilities live = .ok initialized ∧
    approvedRemovalUris call.manifest = .ok approved ∧
    (stageRebuild p live call).candidate = some candidate ∧
    RemovalContract initialized candidate approved
  failure : ∀ failure, (stageRebuild p live call).result = .error failure →
    (stageRebuild p live call).live =
      some (committed live (initDb p call.builtins.capabilities live)) ∧
    (stageRebuild p live call).candidate = none

section

variable {p : Platform} {input : RebuildInput p} {db live kept candidate result : Database}
variable {planned : List Capability} {e : Capability} {state next final : Indexing}
variable {row copy : CapabilityRow} {ingestInput : IngestInput p}

/-- A capability that lands takes the place of the full-text row of the row it refreshes. -/
theorem Landing.backed (hlanding : Landing p db result e row) (h : db.Backed) :
    result.Backed := by
  intro fts hfts
  rcases (hlanding.fts fts).mp hfts with rfl | ⟨hfts, hne⟩
  · exact ⟨row, hlanding.row_mem, rfl⟩
  · obtain ⟨x, hx, hid⟩ := h fts hfts
    refine ⟨x, (hlanding.mem x).mpr (.inr ⟨hx, fun hprevious => hne ?_⟩), hid⟩
    rw [← hid, hlanding.id x hprevious]

theorem index_all_backed (hplanned : Planned p planned) (h : state.db.Backed)
    (hindex : indexAll p ingestInput state planned = .ok final) : final.db.Backed := by
  refine index_all_induction (motive := fun _ current => current.db.Backed) hplanned h ?_ hindex
  intro done e rest current next row _ hcurrent _ hlanding
  exact hlanding.backed hcurrent

/-- The system capabilities and drafts after the loop stood before it, and no capability of the
plan has the URI or the key of one. -/
theorem index_all_survivors (hplanned : Planned p planned)
    (hindex : indexAll p ingestInput state planned = .ok final) (hrow : row ∈ final.db.capabilities)
    (hkind : row.cap.isSystemOrDraft = true) :
    row ∈ state.db.capabilities ∧
      ∀ e ∈ planned, row.cap.uri ≠ e.uri ∧ row.cap.canonicalKey ≠ e.canonicalKey := by
  induction planned generalizing state with
  | nil =>
      cases hindex
      exact ⟨hrow, by simp⟩
  | cons e planned ih =>
      unfold indexAll at hindex
      obtain ⟨next, hnext, hindex⟩ := bind_eq_ok hindex
      obtain ⟨landed, hlanding, hordinary⟩ := hplanned.lands List.mem_cons_self hnext
      obtain ⟨hnextRow, hrest⟩ :=
        ih (hplanned.sublist (List.sublist_cons_self e planned)) hindex
      have hne : row ≠ landed := by
        intro hsame
        rw [hsame, hordinary] at hkind
        cases hkind
      obtain ⟨hstood, hprevious⟩ := ((hlanding.mem row).mp hnextRow).resolve_left hne
      refine ⟨hstood, fun other hother => ?_⟩
      rcases List.mem_cons.mp hother with rfl | hother
      · refine ⟨fun huri => hprevious (previous_row_of_uri hstood huri), fun hsame => hne ?_⟩
        exact Database.eq_of_key hnextRow hlanding.row_mem (hsame.trans hlanding.canonicalKey.symm)
      · exact hrest other hother

/-- A loop body that finds no row to refresh writes rows, sources, full text and vectors only. -/
theorem index_one_rest (hnone : previousRow state.db e = none)
    (h : indexOne p ingestInput state e = .ok next) :
    next.db = { state.db with
      capabilities := next.db.capabilities, sources := next.db.sources, fts := next.db.fts
      vectors := next.db.vectors } := by
  obtain ⟨moved, id, written, hmoved, hupsert, rfl⟩ := index_one_inv h
  rw [hnone] at hmoved
  cases hmoved
  have hwritten : written = { state.db with
      capabilities := written.capabilities, sources := written.sources, fts := written.fts } := by
    obtain ⟨table, expected, -, -, -, hresult⟩ := upsert_capability_ok hupsert
    rw [hresult]
  generalize hcounted : ({ state with db := written }).count (previousRow state.db e)
    (carryOver (previousRow state.db e) e).contentHash = counted
  have hcountedDb : counted.db = written := by rw [← hcounted, count_db]
  obtain ⟨vectors, hdb | hdb⟩ := embed_db counted ingestInput id
    (carryOver (previousRow state.db e) e).indexText
    (previousIndexText state.db (previousRow state.db e) =
      some (carryOver (previousRow state.db e) e).indexText)
  · rw [hdb, hcountedDb, hwritten]
  · rw [hdb, hcountedDb, hwritten]
    rfl

/-- The loop over a plan that meets no row of the catalog: every row stands, each capability that
is done is settled in a row of its own, and the other tables are as they were. -/
structure FreshRun (p : Platform) (start : Database) (done : List Capability)
    (current : Database) : Prop where
  kept : ∀ row ∈ start.capabilities, row ∈ current.capabilities
  origin : ∀ row ∈ current.capabilities, row ∈ start.capabilities ∨
    ∃ d ∈ done, row.cap.uri = d.uri ∧ row.cap.canonicalKey = d.canonicalKey
  settled : ∀ d ∈ done, ∃ row, Settled p d row current ∧ row.cap =
    { holdDowngrade (capguardIsHeld start.quarantine d) d with metadata := row.cap.metadata }
  rest : current = { start with
    capabilities := current.capabilities, sources := current.sources, fts := current.fts
    vectors := current.vectors }

theorem FreshRun.step {start : Database} {done rest : List Capability}
    (h : FreshRun p start done state.db) (hplanned : Planned p (done ++ e :: rest))
    (hfree : ∀ row ∈ start.capabilities,
      row.cap.uri ≠ e.uri ∧ row.cap.canonicalKey ≠ e.canonicalKey)
    (hnext : indexOne p ingestInput state e = .ok next)
    (hlanding : Landing p state.db next.db e row) : FreshRun p start (done ++ [e]) next.db := by
  have hmeets : ∀ x ∈ state.db.capabilities,
      x.cap.uri ≠ e.uri ∧ x.cap.canonicalKey ≠ e.canonicalKey := by
    intro x hx
    rcases h.origin x hx with hx | ⟨d, hd, huri, hkey⟩
    · exact hfree x hx
    · rw [huri, hkey]
      exact hplanned.ne_of_mem (.inl hd)
  have hnone : previousRow state.db e = none := by
    cases hprevious : previousRow state.db e with
    | none => rfl
    | some r =>
        obtain ⟨huri, hkey⟩ := hmeets r (previous_row_mem hprevious)
        rcases previous_row_cases hprevious with hsame | ⟨-, hsame⟩
        · exact absurd hsame huri
        · exact absurd hsame hkey
  have hquarantine : state.db.quarantine = start.quarantine := by rw [h.rest]
  have hcolumns : row.cap = { holdDowngrade (capguardIsHeld start.quarantine e) e with
      metadata := row.cap.metadata } := by
    have hlanded := hlanding.columns
    rw [hnone, hquarantine] at hlanded
    exact hlanded
  have hsettled := hlanding.settled
  rw [hnone] at hsettled
  refine ⟨fun x hx => ?_, fun x hx => ?_, fun d hd => ?_, ?_⟩
  · exact hlanding.kept (h.kept x hx) (by simp [hnone])
  · rcases (hlanding.mem x).mp hx with rfl | ⟨hx, -⟩
    · refine .inr ⟨e, by simp, ?_, hlanding.canonicalKey⟩
      rw [hcolumns]
      exact hold_downgrade_uri _ e
    · rcases h.origin x hx with hx | ⟨d, hd, hsame⟩
      · exact .inl hx
      · exact .inr ⟨d, List.mem_append_left _ hd, hsame⟩
  · rcases List.mem_append.mp hd with hd | hd
    · obtain ⟨other, hother, hotherColumns⟩ := h.settled d hd
      refine ⟨other, hother.step hlanding ?_ ?_ fun path hpath => ?_, hotherColumns⟩
      · exact (hmeets other hother.mem).1.symm
      · exact (hmeets other hother.mem).2.symm
      · exact fun hclaimed => hplanned.disjoint_of_mem (.inl hd) hclaimed hpath
    · rw [List.mem_singleton.mp hd]
      exact ⟨row, hsettled, hcolumns⟩
  · rw [index_one_rest hnone hnext, h.rest]

/-- The loop over a plan that meets no row of the catalog. -/
theorem index_all_fresh (hplanned : Planned p planned)
    (hfree : ∀ e ∈ planned, ∀ row ∈ state.db.capabilities,
      row.cap.uri ≠ e.uri ∧ row.cap.canonicalKey ≠ e.canonicalKey)
    (hindex : indexAll p ingestInput state planned = .ok final) :
    FreshRun p state.db planned final.db := by
  refine index_all_induction (motive := fun done current => FreshRun p state.db done current.db)
    hplanned ⟨fun row hrow => hrow, fun row hrow => .inl hrow, by simp, rfl⟩ ?_ hindex
  intro done e rest current next row hsplit hcurrent hnext hlanding
  have he : e ∈ planned := by
    rw [hsplit]
    simp
  exact hcurrent.step (hsplit ▸ hplanned) (hfree e he) hnext hlanding

/-- When no full-text row is without a capability and there are as many of the one as of the
other, each capability has a full-text row. -/
theorem Database.Backed.complete (h : db.Backed)
    (hcount : db.capabilities.rows.length = db.fts.rows.length) :
    ∀ row ∈ db.capabilities, ∃ fts ∈ db.fts, fts.rowid = row.id := by
  have hnodup : (db.fts.rows.map (·.rowid)).Nodup := List.pairwise_map.mpr db.fts.unique
  have hsubset : db.fts.rows.map (·.rowid) ⊆ db.capabilities.rows.map (·.id) := by
    intro id hid
    obtain ⟨fts, hfts, rfl⟩ := List.mem_map.mp hid
    obtain ⟨row, hrow, hid⟩ := h fts hfts
    exact List.mem_map.mpr ⟨row, hrow, hid⟩
  have hperm := (List.subperm_of_subset hnodup hsubset).perm_of_length_le (by simp [hcount])
  intro row hrow
  obtain ⟨fts, hfts, hid⟩ := List.mem_map.mp
    (hperm.mem_iff.mpr (List.mem_map.mpr ⟨row, hrow, rfl⟩))
  exact ⟨fts, hfts, hid⟩

/-- The preserve pass starts from an empty full-text table. -/
theorem preserve_all_backed {caps : List Capability} {index : Nat} (h : db.Backed)
    (hall : preserveAll p input index db caps = .ok kept) : kept.Backed := by
  induction caps generalizing index db with
  | nil =>
      cases hall
      exact h
  | cons cap caps ih =>
      unfold preserveAll at hall
      obtain ⟨⟨id, next⟩, hupsert, hall⟩ := bind_eq_ok hall
      dsimp only at hall
      split at hall
      · split at hall
        · have hnext : next.Backed := h.upsert hupsert
          refine ih ?_ hall
          exact hnext
        · cases hall
      · exact ih (h.upsert hupsert) hall

theorem preserved_backed (h : preserved p input db = .ok kept) : kept.Backed := by
  unfold preserved at h
  exact preserve_all_backed (fun fts hfts => absurd hfts (Table.not_mem_empty fts)) h

theorem check_removals_ok {before after approved : List String}
    (h : checkRemovals before after approved = .ok ()) (uri : String) :
    (uri ∈ before ∧ uri ∉ after) ↔ uri ∈ approved := by
  unfold checkRemovals at h
  dsimp only at h
  split at h
  · cases h
  · rename_i hunexpected
    split at h
    · cases h
    · rename_i hunused
      simp only [Bool.not_eq_false, List.isEmpty_iff, List.filter_eq_nil_iff, List.mem_filter,
        Bool.not_eq_eq_eq_not, Bool.not_true, List.contains_eq_mem, decide_eq_false_iff_not]
        at hunexpected hunused
      constructor
      · intro hremoved
        by_contra hne
        exact hunexpected uri hremoved hne
      · intro happroved
        by_contra hne
        exact hunused uri happroved hne

/-- A URI that starts with `cap://` is one that the validation looks at. -/
theorem is_on_capability {tuple : RelationshipTuple}
    (h : startsWith tuple.object "cap://" = true) : tuple.isOnCapability = true := by
  unfold startsWith at h
  unfold RelationshipTuple.isOnCapability startsWith
  obtain ⟨rest, hrest⟩ := List.isPrefixOf_iff_prefix.mp h
  refine List.isPrefixOf_iff_prefix.mpr ⟨rest.map Char.toLower, ?_⟩
  have hlower : (String.ofList (tuple.object.toList.map Char.toLower)).toList =
      "cap://".toList.map Char.toLower ++ rest.map Char.toLower := by
    rw [← List.map_append, hrest, String.toList_ofList]
  rw [hlower]
  rfl

/-- What a validated candidate has. -/
structure Validated (candidate : Database) : Prop where
  count : candidate.capabilities.rows.length = candidate.fts.rows.length
  sourced : ∀ row ∈ candidate.capabilities, row.cap.isSystemOrDraft = false →
    ∃ source ∈ candidate.sources, source.uri = row.cap.uri
  shares : ∀ share ∈ candidate.shares,
    ∃ row ∈ candidate.capabilities, row.cap.uri = share.capabilityUri
  requests : ∀ request ∈ candidate.requests, request.state = .pending →
    ∃ row ∈ candidate.capabilities, row.cap.uri = request.capabilityUri
  tuples : ∀ tuple ∈ candidate.tuples, tuple.isOnCapability = true →
    ∃ row ∈ candidate.capabilities, row.cap.uri = tuple.object

theorem validate_candidate_database_ok {coverageOk : Bool}
    (h : validateCandidateDatabase db coverageOk = .ok ()) : Validated db := by
  unfold validateCandidateDatabase at h
  split at h
  · cases h
  rename_i hcount
  split at h
  · cases h
  rename_i horphans
  split at h
  · cases h
  rename_i hreferences
  simp only [Bool.or_eq_true, not_or, Bool.not_eq_true] at hreferences
  obtain ⟨⟨hshares, hrequests⟩, htuples⟩ := hreferences
  -- A URI that resolves is one of the catalog.
  have hresolves : ∀ uri, db.capabilityAt uri ≠ none →
      ∃ row ∈ db.capabilities, row.cap.uri = uri := by
    intro uri hfound
    cases hat : db.capabilityAt uri with
    | none => exact absurd hat hfound
    | some row => exact ⟨row, Database.capability_at_some hat⟩
  refine ⟨not_not.mp hcount, fun row hrow hkind => ?_, fun share hshare => ?_,
    fun request hrequest hpending => ?_, fun tuple htuple hon => ?_⟩
  · have hsourced : db.isOrphan row = false := by
      by_contra horphan
      exact horphans (Table.any_iff.mpr ⟨row, hrow, by simpa using horphan⟩)
    simp only [Database.isOrphan, hkind, Bool.not_false, Bool.true_and,
      Bool.not_eq_false'] at hsourced
    obtain ⟨source, hsource, huri⟩ := Table.any_iff.mp hsourced
    exact ⟨source, hsource, by simpa using huri⟩
  · exact hresolves _ (by simpa using List.any_eq_false.mp hshares share hshare)
  · exact hresolves _ (by simpa [hpending] using List.any_eq_false.mp hrequests request hrequest)
  · exact hresolves _ (by simpa [hon] using List.any_eq_false.mp htuples tuple htuple)

/-- What a successful rebuild checked before it returned. -/
theorem stage_rebuild_index_checked (h : stageRebuildIndex p live input = .ok candidate) :
    checkRemovals live.ordinaryUris candidate.ordinaryUris input.approvedRemovals = .ok () ∧
      validateCandidateDatabase candidate input.coverageOk = .ok () := by
  unfold stageRebuildIndex at h
  split at h
  · cases h
  · obtain ⟨kept, -, h⟩ := bind_eq_ok h
    obtain ⟨⟨changes, result⟩, -, h⟩ := bind_eq_ok h
    dsimp only at h
    split at h
    · cases h
    · obtain ⟨_, hremovals, h⟩ := bind_eq_ok h
      obtain ⟨_, hvalidated, h⟩ := bind_eq_ok h
      cases h
      exact ⟨hremovals, hvalidated⟩

/-- A placement depends on the catalog through its collisions alone. -/
theorem effective_congr {first second : Table CapabilityRow} {index : PlacementIndex}
    (h : ∀ cap matchKey namespaceId tenant,
      (vaultPlacementCollision first cap matchKey namespaceId tenant).isSome =
        (vaultPlacementCollision second cap matchKey namespaceId tenant).isSome) :
    effective p index first = effective p index second := by
  funext cap
  have happly : applyVaultPlacement p index first cap = applyVaultPlacement p index second cap := by
    unfold applyVaultPlacement
    split
    · rfl
    · rename_i vault _
      dsimp only
      have hsome := h cap (vaultMatchKey (capabilityCanonicalTail p cap))
        (vaultTarget p (p.tenantOr cap.tenantId) vault).namespaceId (p.tenantOr cap.tenantId)
      split <;> split <;> simp_all
  unfold effective
  rw [happly]

namespace Database.InitializedBy

variable {builtins : Builtins}

theorem governs (h : live.InitializedBy p builtins) (hrow : row ∈ live.capabilities) :
    row.cap.Governed := by
  by_cases hkind : row.cap.sourceKind = "system_capability"
  · exact system_governed hkind
  · exact h.governed row hrow hkind

theorem plan_eq (h : live.InitializedBy p builtins) (hkept : RecopiedFrom live kept)
    (ingestInput : IngestInput p) :
    plan p ingestInput kept.capabilities =
      plan p ingestInput (live.capabilities.filter fun row => row.cap.isSystemOrDraft) := by
  unfold plan
  rw [effective_congr]
  intro cap matchKey namespaceId tenant
  have hsame : ∀ {x y}, Recopied x y → x ∈ live.capabilities →
      y.cap.tenantId = x.cap.tenantId ∧ y.cap.namespaceId = x.cap.namespaceId ∧
        y.cap.contentHash = x.cap.contentHash ∧ y.cap.uri = x.cap.uri := by
    intro x y hcopy hx
    refine ⟨hcopy.tenant (h.governs hx), ?_, hcopy.preserved.contentHash, hcopy.uri⟩
    rw [hcopy.columns]
  unfold vaultPlacementCollision Table.find?
  rw [Bool.eq_iff_iff, List.find?_isSome, List.find?_isSome]
  constructor
  · rintro ⟨y, hy, hcollides⟩
    obtain ⟨x, hx, hkind, hcopy⟩ := hkept.origin y hy
    obtain ⟨htenant, hnamespace, hhash, huri⟩ := hsame hcopy hx
    rw [htenant, hnamespace, hhash, huri] at hcollides
    exact ⟨x, (Table.mem_filter x).mpr ⟨hx, hkind⟩, hcollides⟩
  · rintro ⟨x, hx, hcollides⟩
    obtain ⟨hx, hkind⟩ := (Table.mem_filter x).mp hx
    obtain ⟨y, hy, hcopy⟩ := hkept.copied x hx hkind
    obtain ⟨htenant, hnamespace, hhash, huri⟩ := hsame hcopy hx
    rw [← htenant, ← hnamespace, ← hhash, ← huri] at hcollides
    exact ⟨y, hy, hcollides⟩

end Database.InitializedBy

/-- What a successful rebuild of an initialised catalog did: it held what is new, kept the copies,
indexed the plan on them, and retired the orphans. -/
structure Staged (p : Platform) (input : IngestInput p) (live kept candidate : Database)
    (planned : List Capability) (final : Indexing) : Prop where
  copies : RecopiedFrom live kept
  rest : kept = { live with
    capabilities := kept.capabilities, sources := kept.sources, fts := kept.fts
    vectors := kept.vectors, quarantine := kept.quarantine }
  holds : ∀ hold ∈ live.quarantine, hold ∈ kept.quarantine
  held : ∀ old ∈ live.capabilities, ∀ cap : Capability, old.cap.uri = cap.uri →
    old.cap.contentHash = cap.contentHash →
    capguardIsHeld kept.quarantine cap = capguardIsHeld live.quarantine cap
  backed : kept.Backed
  filed : Planned p planned
  plans : plan p input (live.capabilities.filter fun row => row.cap.isSystemOrDraft) = .ok planned
  indexed : indexAll p input (.start kept) planned = .ok final
  retired : Retired
    (fun id => ∃ row ∈ final.db.capabilities, final.db.isOrphan row = true ∧ id = row.id)
    final.db candidate

theorem stage_rebuild_index_staged {builtins : Builtins} (hlive : live.InitializedBy p builtins)
    (hbuiltins : input.builtins = builtins.capabilities)
    (h : stageRebuildIndex p live input = .ok candidate) :
    ∃ kept planned final, Staged p input.toIngestInput live kept candidate planned final := by
  obtain ⟨held, counts, kept, planned, final, removed, hquarantine, hkept, hplan, -, hindex,
    hdelete⟩ := stage_rebuild_index_ok h
  have hadded := (quarantine_loop_ok (.refl live) hquarantine).1
  have hcapabilities := hadded.capabilities
  have hdrafts : ∀ row ∈ held.capabilities, row.cap.sourceKind = "capmesh_draft" →
      isAddressed row.cap.uri = true := by
    intro row hrow hkind
    rw [hcapabilities] at hrow
    exact governed_addressed (hlive.governs hrow) (by simp [hkind])
  have hinit : held.Initialized input.builtins := by
    intro cap hcap
    rw [hcapabilities]
    exact hlive.written cap (hbuiltins ▸ hcap)
  obtain ⟨hrecopied, hrest⟩ := preserved_ok hdrafts hinit hkept
  have hcopies : RecopiedFrom live kept := by
    refine ⟨?_, ?_⟩
    · rw [← hcapabilities]
      exact hrecopied.origin
    · rw [← hcapabilities]
      exact hrecopied.copied
  have hquarantined : kept.quarantine = held.quarantine := by rw [hrest]
  refine ⟨kept, planned, final, hcopies, by rw [hrest, hadded.rest], fun hold hhold => ?_,
    fun old hold cap huri hhash => ?_, preserved_backed hkept, plan_ok hplan,
    (hlive.plan_eq hcopies _).symm.trans hplan, hindex, delete_source_orphaned_ok hdelete⟩
  · rw [hquarantined]
    exact hadded.kept hold hhold
  · rw [hquarantined]
    exact held_iff_of_indexed hold huri hhash hquarantine

namespace Staged

variable {ingestInput : IngestInput p}

theorem candidate_mem (h : Staged p ingestInput live kept candidate planned final)
    (hrow : row ∈ final.db.capabilities) (hkind : row.cap.isSystemOrDraft = true) :
    row ∈ candidate.capabilities :=
  (h.retired.mem_iff row).mpr ⟨hrow, by simp [Database.isOrphan, hkind]⟩

/-- A survivor was not taken over. -/
theorem noTakeover (h : Staged p ingestInput live kept candidate planned final)
    (hsurvives : ∀ row ∈ live.capabilities, row.cap.isSystemOrDraft = true →
      ∃ copy ∈ candidate.capabilities, copy.cap.uri = row.cap.uri ∧
        copy.cap.canonicalKey = row.cap.canonicalKey ∧ copy.cap.isSystemOrDraft = true) :
    live.NoTakeover p ingestInput := by
  intro planned' hplan e he row hrow hkind
  cases hplan.symm.trans h.plans
  obtain ⟨copy, hcopy, huri, hkey, hcopyKind⟩ := hsurvives row hrow hkind
  obtain ⟨hcopyFinal, -⟩ := (h.retired.mem_iff copy).mp hcopy
  rw [← huri, ← hkey]
  exact (index_all_survivors h.filed h.indexed hcopyFinal hcopyKind).2 e he

/-- Without a takeover the plan meets no copy. -/
theorem free (h : Staged p ingestInput live kept candidate planned final)
    (hfree : live.NoTakeover p ingestInput) :
    ∀ e ∈ planned, ∀ copy ∈ kept.capabilities,
      copy.cap.uri ≠ e.uri ∧ copy.cap.canonicalKey ≠ e.canonicalKey := by
  intro e he copy hcopy
  obtain ⟨row, hrow, hkind, hrecopied⟩ := h.copies.origin copy hcopy
  rw [hrecopied.uri, hrecopied.preserved.canonicalKey]
  exact hfree planned h.plans e he row hrow hkind

theorem survives {builtins : Builtins} (hlive : live.InitializedBy p builtins)
    (h : Staged p ingestInput live kept candidate planned final)
    (hfree : live.NoTakeover p ingestInput) (hrow : row ∈ live.capabilities)
    (hkind : row.cap.isSystemOrDraft = true) :
    ∃ copy ∈ candidate.capabilities, copy.id = row.id ∧
      copy.cap = { row.cap with metadata := copy.cap.metadata } := by
  obtain ⟨copy, hcopy, hrecopied⟩ := h.copies.copied row hrow hkind
  have hfinal := (index_all_fresh h.filed (h.free hfree) h.indexed).kept copy hcopy
  refine ⟨copy, h.candidate_mem hfinal ?_, hrecopied.id, ?_⟩
  · rw [hrecopied.preserved.isSystemOrDraft, hkind]
  · have hcolumns := hrecopied.columns
    rw [hrecopied.tenant (hlive.governs hrow)] at hcolumns
    exact hcolumns

end Staged

/-- A successful rebuild meets the contract exactly when the batch takes over no system
capability or draft. -/
theorem removal_contract_iff {builtins : Builtins} (hlive : live.InitializedBy p builtins)
    (hbuiltins : input.builtins = builtins.capabilities)
    (h : stageRebuildIndex p live input = .ok candidate) :
    RemovalContract live candidate input.approvedRemovals ↔
      live.NoTakeover p input.toIngestInput := by
  obtain ⟨kept, planned, final, hstaged⟩ := stage_rebuild_index_staged hlive hbuiltins h
  obtain ⟨hremovals, hvalidate⟩ := stage_rebuild_index_checked h
  have hvalidated := validate_candidate_database_ok hvalidate
  constructor
  · intro hcontract
    refine hstaged.noTakeover fun row hrow hkind => ?_
    obtain ⟨copy, hcopy, -, hcolumns⟩ := hcontract.survives row hrow hkind
    refine ⟨copy, hcopy, ?_⟩
    rw [hcolumns]
    exact ⟨rfl, rfl, hkind⟩
  · intro hfree
    have hbacked : candidate.Backed :=
      hstaged.retired.backed (index_all_backed hstaged.filed hstaged.backed hstaged.indexed)
    exact
      { removed := check_removals_ok hremovals
        text := hbacked.complete hvalidated.count
        sourced := hvalidated.sourced
        shares := hvalidated.shares
        requests := hvalidated.requests
        tuples := fun tuple htuple hobject =>
          hvalidated.tuples tuple htuple (is_on_capability hobject)
        survives := fun row hrow hkind => hstaged.survives hlive hfree hrow hkind }

/-- The contract reads the initialised catalog through its rows. -/
theorem RemovalContract.congr {initialized copy : Database} {approved : List String}
    (h : copy.capabilities = initialized.capabilities) :
    RemovalContract copy candidate approved ↔ RemovalContract initialized candidate approved := by
  have huris : copy.ordinaryUris = initialized.ordinaryUris := by
    unfold Database.ordinaryUris
    rw [h]
  constructor
  · intro hcontract
    exact { hcontract with
      removed := huris ▸ hcontract.removed, survives := h ▸ hcontract.survives }
  · intro hcontract
    exact { hcontract with
      removed := huris ▸ hcontract.removed, survives := h ▸ hcontract.survives }

/-- Where a call ends. -/
inductive StageCall.Ends {p : Platform} (call : StageCall p) (live : Database) :
    StageOutcome → Prop
  | uninitialized {failure} (hinit : initDb p call.builtins.capabilities live = .error failure) :
      call.Ends live ⟨some live, none, .error failure⟩
  | foreign {initialized failure}
      (hinit : initDb p call.builtins.capabilities live = .ok initialized)
      (hforeign : call.isForeign = true) :
      call.Ends live ⟨some initialized, none, .error failure⟩
  | unread {initialized failure}
      (hinit : initDb p call.builtins.capabilities live = .ok initialized)
      (hforeign : call.isForeign = false)
      (hread : (∀ batch, call.discovered ≠ .ok batch) ∨
        ∀ approved, approvedRemovalUris call.manifest ≠ .ok approved) :
      call.Ends live (call.leaves initialized (some initialized) (.error failure))
  | rejected {initialized copy batch approved failure}
      (hinit : initDb p call.builtins.capabilities live = .ok initialized)
      (hforeign : call.isForeign = false) (hbatch : call.discovered = .ok batch)
      (happroved : approvedRemovalUris call.manifest = .ok approved)
      (hrebuild : stageRebuildIndex p copy (call.rebuild batch approved) = .error failure) :
      call.Ends live (call.leaves initialized none (.error failure))
  | staged {initialized copy candidate batch approved}
      (hinit : initDb p call.builtins.capabilities live = .ok initialized)
      (hforeign : call.isForeign = false)
      (hcopy : initDb p call.builtins.capabilities initialized = .ok copy)
      (hbatch : call.discovered = .ok batch)
      (happroved : approvedRemovalUris call.manifest = .ok approved)
      (hrebuild : stageRebuildIndex p copy (call.rebuild batch approved) = .ok candidate) :
      call.Ends live (call.leaves initialized (some candidate) (.ok ()))

/-- The copy of an initialised database is initialised without a failure, so a call ends in one of
five ways. -/
theorem stage_rebuild_ends (call : StageCall p) (live : Database) :
    call.Ends live (stageRebuild p live call) := by
  unfold stageRebuild
  split
  · rename_i failure hinit
    exact .uninitialized hinit
  rename_i initialized hinit
  split
  · rename_i hforeign
    exact .foreign hinit hforeign
  rename_i hforeign
  have hforeign : call.isForeign = false := by simpa using hforeign
  obtain ⟨copy, hcopy, -⟩ := init_db_again (init_db_ok hinit)
  simp only [hcopy]
  cases hbatch : call.discovered with
  | error failure => exact .unread hinit hforeign (.inl (by simp [hbatch]))
  | ok batch =>
      cases happroved : approvedRemovalUris call.manifest with
      | error failure => exact .unread hinit hforeign (.inr (by simp [happroved]))
      | ok approved =>
          show call.Ends live (match stageRebuildIndex p copy (call.rebuild batch approved) with
            | .error failure => call.leaves initialized none (.error failure)
            | .ok candidate => call.leaves initialized (some candidate) (.ok ()))
          cases hrebuild : stageRebuildIndex p copy (call.rebuild batch approved) with
          | error failure => exact .rejected hinit hforeign hbatch happroved hrebuild
          | ok candidate => exact .staged hinit hforeign hcopy hbatch happroved hrebuild

end

/-- When a call meets its contract. A successful one does exactly when nothing in the batch takes
over a system capability or draft; a failed one does exactly when it fails before the candidate
exists, or after discovery and the manifest with a candidate that is not the live database. -/
theorem stage_rebuild_contract {p : Platform} (call : StageCall p) (live : Database) :
    ((stageRebuild p live call).result = .ok () →
      (call.MeetsContract live ↔ ∀ initialized batch,
        initDb p call.builtins.capabilities live = .ok initialized →
        call.discovered = .ok batch → initialized.NoTakeover p (call.ingest batch))) ∧
    ∀ failure, (stageRebuild p live call).result = .error failure →
      (call.MeetsContract live ↔
        (∃ failure, initDb p call.builtins.capabilities live = .error failure) ∨
        call.isForeign = true ∨
        (call.candidatePath ≠ some call.dbPath ∧ (∃ batch, call.discovered = .ok batch) ∧
          ∃ approved, approvedRemovalUris call.manifest = .ok approved)) := by
  have hends := stage_rebuild_ends call live
  generalize houtcome : stageRebuild p live call = outcome at hends
  cases hends with
  | uninitialized hinit =>
      refine ⟨fun hok => (nomatch hok), fun failure _ => ?_⟩
      exact iff_of_true ⟨by simp [houtcome], by simp [houtcome, hinit, committed]⟩
        (.inl ⟨_, hinit⟩)
  | foreign hinit hforeign =>
      refine ⟨fun hok => (nomatch hok), fun failure _ => ?_⟩
      exact iff_of_true ⟨by simp [houtcome], by simp [houtcome, hinit, committed]⟩
        (.inr (.inl hforeign))
  | unread hinit hforeign hread =>
      refine ⟨fun hok => (nomatch hok), fun failure _ => iff_of_false (fun hcontract => ?_) ?_⟩
      · obtain ⟨-, hnone⟩ := hcontract.failure _ (by rw [houtcome]; rfl)
        rw [houtcome] at hnone
        cases hnone
      · rintro (⟨_, herror⟩ | hother | ⟨-, ⟨batch, hbatch⟩, approved, happroved⟩)
        · cases hinit.symm.trans herror
        · cases hforeign.symm.trans hother
        · rcases hread with hread | hread
          · exact hread batch hbatch
          · exact hread approved happroved
  | rejected hinit hforeign hbatch happroved hrebuild =>
      refine ⟨fun hok => (nomatch hok), fun failure _ => ⟨fun hcontract => ?_, fun hclean => ?_⟩⟩
      · -- At the path of the live database the candidate took the live rows with it.
        obtain ⟨hlive, -⟩ := hcontract.failure _ (by rw [houtcome]; rfl)
        rw [houtcome] at hlive
        refine .inr (.inr ⟨fun hpath => ?_, ⟨_, hbatch⟩, _, happroved⟩)
        simp [StageCall.leaves, hpath] at hlive
      · have hpath : call.candidatePath ≠ some call.dbPath := by
          rcases hclean with ⟨_, herror⟩ | hother | ⟨hpath, -⟩
          · cases hinit.symm.trans herror
          · cases hforeign.symm.trans hother
          · exact hpath
        exact ⟨by simp [houtcome, StageCall.leaves],
          by simp [houtcome, StageCall.leaves, hinit, hpath, committed]⟩
  | staged hinit hforeign hcopy hbatch happroved hrebuild =>
      rename_i initialized copy candidate batch approved
      refine ⟨fun _ => ?_, fun failure herror => (nomatch herror)⟩
      have hsame : copy.capabilities = initialized.capabilities := by
        obtain ⟨again, hagain, hrows⟩ := init_db_again (init_db_ok hinit)
        cases hcopy.symm.trans hagain
        rw [hrows]
      have hiff : RemovalContract copy candidate approved ↔
          copy.NoTakeover p (call.ingest batch) :=
        removal_contract_iff (init_db_ok hcopy) rfl hrebuild
      rw [RemovalContract.congr hsame] at hiff
      have htakeover : copy.NoTakeover p (call.ingest batch) ↔
          initialized.NoTakeover p (call.ingest batch) := by
        unfold Database.NoTakeover
        rw [hsame]
      constructor
      · intro hmeets
        obtain ⟨initialized', approved', candidate', hinit', happroved', hcandidate, hcontract⟩ :=
          hmeets.success (by rw [houtcome]; rfl)
        rw [houtcome] at hcandidate
        cases hinit.symm.trans hinit'
        cases happroved.symm.trans happroved'
        cases hcandidate
        intro initialized' batch' hinit' hbatch'
        cases hinit.symm.trans hinit'
        cases hbatch.symm.trans hbatch'
        exact htakeover.mp (hiff.mp hcontract)
      · intro hfree
        have hcontract := hiff.mpr (htakeover.mpr (hfree initialized batch hinit hbatch))
        exact ⟨fun _ => ⟨initialized, approved, candidate, hinit, happroved, by rw [houtcome]; rfl,
          hcontract⟩, fun failure herror => by rw [houtcome] at herror; cases herror⟩

/-- A rebuild of a fresh database that finds the notes skill. -/
def notesStage (manifest : RemovalManifest) : StageCall .sample where
  dbPath := "/secure/capmesh/capmesh.db"
  candidatePath := none
  discovered := .ok notesRebuild.batch
  manifest
  builtins :=
    { capabilities := [systemHelp], system := notesRebuild.builtin, uris := List.pairwise_singleton _ _ }
  placement := notesRebuild.placement
  vectorEnabled := notesRebuild.vectorEnabled
  embed := notesRebuild.embed
  ids := notesRebuild.ids
  embedPreserved _ _ := none
  coverageOk := true

/-- Whether a plan meets a system capability or draft of a catalog. -/
def meetsPreserved (catalog : Table CapabilityRow) (planned : List Capability) : Bool :=
  planned.any fun e => catalog.any fun row => row.cap.isSystemOrDraft &&
    (row.cap.uri = e.uri || row.cap.canonicalKey = e.canonicalKey)

/-- A plan that meets none takes over none. -/
theorem no_takeover_of_plan {p : Platform} {db : Database} {input : IngestInput p}
    (h : (plan p input (db.capabilities.filter fun row => row.cap.isSystemOrDraft)).toOption.all
      (fun planned => !meetsPreserved db.capabilities planned) = true) :
    db.NoTakeover p input := by
  intro planned hplan e he row hrow hkind
  simp only [hplan, Except.toOption, Option.all_some, Bool.not_eq_true'] at h
  have hmeets := List.any_eq_false.mp (Bool.not_eq_true _ ▸ List.any_eq_false.mp h e he) row hrow
  simpa [hkind] using hmeets

/-- A rebuild that removes nothing meets its contract. -/
theorem stage_rebuild_contract_notes :
    (stageRebuild .sample .empty (notesStage .absent)).result = .ok () ∧
      (notesStage .absent).MeetsContract .empty := by
  have hresult : (stageRebuild .sample .empty (notesStage .absent)).result = .ok () := by
    decide +kernel
  have hfree : (initDb .sample [systemHelp] .empty).toOption.all
      (fun initialized => (plan .sample notesRebuild.toIngestInput
        (initialized.capabilities.filter fun row => row.cap.isSystemOrDraft)).toOption.all
          fun planned => !meetsPreserved initialized.capabilities planned) = true := by
    decide +kernel
  refine ⟨hresult, ((stage_rebuild_contract (notesStage .absent) .empty).1 hresult).mpr ?_⟩
  intro initialized batch hinit hbatch
  cases hbatch
  simp only [notesStage] at hinit
  rw [hinit] at hfree
  exact no_takeover_of_plan hfree

/-- A manifest that is no list leaves a candidate behind. -/
theorem stage_rebuild_manifest_counterexample :
    ¬ ∀ (p : Platform) (call : StageCall p) (live : Database), call.MeetsContract live := by
  intro hclaim
  have hcontract : (notesStage (.file (.ok (.str "cap://all/notes@0.1.0")))).MeetsContract .empty :=
    hclaim _ _ _
  have hleft : (stageRebuild .sample .empty
      (notesStage (.file (.ok (.str "cap://all/notes@0.1.0"))))).candidate.isSome = true ∧
      (stageRebuild .sample .empty
        (notesStage (.file (.ok (.str "cap://all/notes@0.1.0"))))).result ≠ .ok () := by
    decide +kernel
  obtain ⟨hsome, hresult⟩ := hleft
  cases hfailed : (stageRebuild .sample .empty
      (notesStage (.file (.ok (.str "cap://all/notes@0.1.0"))))).result with
  | ok _ => exact hresult hfailed
  | error failure =>
      rw [(hcontract.failure failure hfailed).2] at hsome
      cases hsome

end Capmesh
