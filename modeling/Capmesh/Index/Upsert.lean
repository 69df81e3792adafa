import Mathlib.Data.List.Sort
import Capmesh.Governance.Namespaces
import Capmesh.Model.Database

/-!
# Upserting one capability

`upsert_capability` of `index.py`: the default namespace rewrite, the lifecycle clamp,
the `INSERT … ON CONFLICT(uri) DO UPDATE` with its no-op suppression, and the
synchronization of the source and full-text rows. `merge_of_not_changes` shows that the
suppression skips exactly the writes that would change nothing, so the stored row is
always `merged`. `upsert_capability_ok` is the specification the rest of the development
uses.
-/

namespace Capmesh

open Python Relational

/-- One provenance record of a capability, by the path it names. -/
def addSource (sources : List SourceRow) (source : SourceRow) : List SourceRow :=
  if sources.any (·.sourcePath = source.sourcePath) then sources else sources ++ [source]

/-- The source row of one `sourceProvenance` item; an item without a path is skipped. -/
def provenanceRow (p : Platform) (cap : Capability) (item : Json) : Option SourceRow :=
  match item with
  | .obj fields =>
      let text := fun key default =>
        match Dict.get? fields key with
        | some value => if value.truthy then value.toStr else default
        | none => default
      if Dict.truthy fields "sourcePath" then
        some ⟨p.normalizePath (text "sourcePath" ""), cap.uri, text "sourceKind" cap.sourceKind,
          text "sourceSystem" cap.sourceSystem, text "contentHash" cap.contentHash⟩
      else none
  | _ => none

/-- The provenance loop: two records for one path must agree. -/
def collectProvenance (p : Platform) (cap : Capability) :
    List SourceRow → List Json → Except Failure (List SourceRow)
  | sources, [] => .ok sources
  | sources, item :: items =>
      match provenanceRow p cap item with
      | none => collectProvenance p cap sources items
      | some row =>
          if sources.any fun source => source.sourcePath = row.sourcePath && source ≠ row then
            .error (.value
              ("conflicting provenance records for source path " ++ row.sourcePath))
          else collectProvenance p cap (addSource sources row) items

/-- The `sourcePaths` of a capability, its own path when there are none. -/
def rawSourcePaths (cap : Capability) : Except Failure (List String) :=
  match Dict.get? cap.metadata "sourcePaths" with
  | some value =>
      if value.truthy then
        match value with
        | .str path => .ok [path]
        | .arr items => .ok (items.map Json.toStr)
        | .obj fields => .ok (fields.map (·.1))
        | _ => .error (.runtime "object is not iterable")
      else .ok [cap.sourcePath]
  | none => .ok [cap.sourcePath]

/-- The row of a path without a provenance record. -/
def plainSource (p : Platform) (cap : Capability) (path : String) : SourceRow :=
  ⟨p.normalizePath path, cap.uri, cap.sourceKind, cap.sourceSystem, cap.contentHash⟩

/-- `_capability_source_rows`. -/
def capabilitySourceRows (p : Platform) (cap : Capability) : Except Failure (List SourceRow) := do
  let items := match Dict.get? cap.metadata "sourceProvenance" with
    | some (.arr items) => items
    | _ => []
  let sources ← collectProvenance p cap [] items
  let paths ← rawSourcePaths cap
  let sources := (paths ++ [cap.sourcePath]).foldl
    (fun sources path => addSource sources (plainSource p cap path)) sources
  .ok (sources.insertionSort fun a b => a.sourcePath ≤ b.sourcePath)

/-- The path a `sourceProvenance` item names. -/
def provenancePath (p : Platform) (item : Json) : Option String :=
  match item with
  | .obj fields =>
      match Dict.get? fields "sourcePath" with
      | some value => if value.truthy then some (p.normalizePath value.toStr) else none
      | none => none
  | _ => none

/-- The paths of the `sourceProvenance` items of a capability. -/
def provenancePaths (p : Platform) (metadata : Dict) : List String :=
  match Dict.get? metadata "sourceProvenance" with
  | some (.arr items) => items.filterMap (provenancePath p)
  | _ => []

/-- Every source path a capability lays claim to. -/
def claimedPaths (p : Platform) (cap : Capability) : List String :=
  let paths := match rawSourcePaths cap with
    | .ok paths => paths
    | .error _ => []
  provenancePaths p cap.metadata ++ paths.map p.normalizePath ++ [p.normalizePath cap.sourcePath]

/-- The columns as stored: `metadata_json` has sorted keys. -/
def Capability.stored (cap : Capability) : Capability :=
  { cap with metadata := Json.canonicalFields cap.metadata }

/-- The full-text row of a capability. -/
def Capability.ftsRow (cap : Capability) (id : Nat) : FtsRow :=
  ⟨id, cap.uri, cap.name, cap.title, cap.description, join " " cap.keywords,
    cap.plugin.getD "", cap.category.getD "", cap.indexText⟩

/-- The lifecycle clamp: without a content change an invalid transition keeps the stored
state. -/
def clampLifecycle (existing : Option CapabilityRow) (cap : Capability) : Capability :=
  match existing with
  | some row =>
      if row.cap.lifecycle ≠ cap.lifecycle && row.cap.contentHash = cap.contentHash &&
          !isValidTransition row.cap.lifecycle cap.lifecycle then
        { cap with lifecycle := row.cap.lifecycle }
      else cap
  | none => cap

/-- A governance column of the `SET` clause: kept while the content is the same, a trusted value
falls back when it changed. -/
def mergeState {σ : Type} [DecidableEq σ] (trusted fallback : σ) (sameContent : Bool)
    (old new : σ) : σ :=
  if sameContent then old else if old = trusted then fallback else new

/-- The `SET` clause. -/
def merged (old new : Capability) : Capability :=
  let same : Bool := old.contentHash = new.contentHash
  { new with
    lifecycle := if same && old.approvalState = .approved then old.lifecycle else new.lifecycle
    submittedBy := old.submittedBy.or new.submittedBy
    promotedFromUri := old.promotedFromUri.or new.promotedFromUri
    approvalState := mergeState .approved .pending same old.approvalState new.approvalState
    shareState := mergeState .shared .notShared same old.shareState new.shareState
    signatureStatus := mergeState .verified .pending same old.signatureStatus new.signatureStatus
    provenanceStatus :=
      mergeState .verified .pending same old.provenanceStatus new.provenanceStatus
    riskReviewStatus :=
      mergeState .approved .pending same old.riskReviewStatus new.riskReviewStatus }

/-- The `WHERE` clause: whether some compared column differs. -/
def changes (old new : Capability) : Bool :=
  old.contentHash ≠ new.contentHash ||
  old.canonicalKey ≠ new.canonicalKey ||
  old.tenantId ≠ new.tenantId ||
  old.storeId ≠ new.storeId ||
  old.namespaceId ≠ new.namespaceId ||
  old.capabilityType ≠ new.capabilityType ||
  old.name ≠ new.name ||
  old.version ≠ new.version ||
  old.title ≠ new.title ||
  old.description ≠ new.description ||
  old.packagePath ≠ new.packagePath ||
  old.entrypoint ≠ new.entrypoint ||
  old.sourcePath ≠ new.sourcePath ||
  old.sourceKind ≠ new.sourceKind ||
  old.sourceSystem ≠ new.sourceSystem ||
  old.visibility ≠ new.visibility ||
  old.discoveryMode ≠ new.discoveryMode ||
  old.owner ≠ new.owner ||
  old.plugin ≠ new.plugin ||
  old.category ≠ new.category ||
  old.keywords ≠ new.keywords ||
  old.requiredScopes ≠ new.requiredScopes ||
  old.allowGroups ≠ new.allowGroups ||
  old.allowUsers ≠ new.allowUsers ||
  old.riskTier ≠ new.riskTier ||
  old.mutating ≠ new.mutating ||
  (!(old.contentHash = new.contentHash && old.approvalState = .approved) &&
    old.lifecycle ≠ new.lifecycle) ||
  old.createdBy ≠ new.createdBy ||
  old.metadata ≠ new.metadata ||
  old.sourceCommit ≠ new.sourceCommit ||
  old.license ≠ new.license ||
  (old.submittedBy.isNone && new.submittedBy.isSome) ||
  (old.promotedFromUri.isNone && new.promotedFromUri.isSome)

/-- The id SQLite gives a new row. -/
def Database.freshId (db : Database) : Nat :=
  (db.capabilities.rows.map (·.id)).foldl max 0 + 1

/-- Write the row of a capability: update the row at its URI, or insert one. -/
def writeRow (db : Database) (cap : Capability) :
    Except Failure (Nat × Table CapabilityRow) :=
  match db.capabilityAt cap.uri with
  | some row => do
      let table ← constrained "capabilities.canonical_key" (db.capabilities.update? fun other =>
        if other.id = row.id && changes row.cap cap.stored then
          { other with cap := merged row.cap cap.stored }
        else other)
      .ok (row.id, table)
  | none => do
      let table ← constrained "capabilities.canonical_key"
        (db.capabilities.insert? ⟨db.freshId, cap.stored⟩)
      .ok (db.freshId, table)

/-- Synchronize the source rows of a URI. -/
def syncSources (sources : Table SourceRow) (uri : String) (expected : List SourceRow) :
    Table SourceRow :=
  let actual := (sources.rows.filter (·.uri = uri)).insertionSort
    fun a b => a.sourcePath ≤ b.sourcePath
  if actual = expected then sources
  else (expected.foldl Table.replace sources).filter fun source =>
    source.uri ≠ uri || expected.any (·.sourcePath = source.sourcePath)

/-- Synchronize the full-text row of an id. -/
def syncFts (fts : Table FtsRow) (expected : FtsRow) : Table FtsRow :=
  if fts.find? (·.rowid = expected.rowid) = some expected then fts else fts.replace expected

/-- The capability an upsert writes: in its namespace, with the lifecycle clamped. -/
def incoming (p : Platform) (db : Database) (cap : Capability) : Capability :=
  let cap := applyDefaultUserNamespace p cap
  clampLifecycle (db.capabilityAt cap.uri) cap

/-- `upsert_capability`. -/
def upsertCapability (p : Platform) (db : Database) (cap : Capability) :
    Except Failure (Nat × Database) := do
  let cap := incoming p db cap
  if cap.riskTier = .unset then
    .error (.integrity "CHECK constraint failed: risk_tier")
  else do
    let (id, table) ← writeRow db cap
    let expected ← capabilitySourceRows p cap
    .ok (id, { db with
      capabilities := table
      sources := syncSources db.sources cap.uri expected
      fts := syncFts db.fts (cap.ftsRow id) })

/-- No other row has the key of a capability. -/
def KeyFree (db : Database) (cap : Capability) : Prop :=
  ∀ row ∈ db.capabilities, row.cap.canonicalKey = cap.canonicalKey → row.cap.uri = cap.uri

/-- The columns an upsert leaves at a URI, given the row it found there. -/
def written (existing : Option CapabilityRow) (cap : Capability) : Capability :=
  match existing with
  | some row => merged row.cap cap.stored
  | none => cap.stored

section

variable {p : Platform} {db result : Database} {cap old new : Capability} {id : Nat}
variable {table : Table CapabilityRow} {expected : List SourceRow} {sources : List SourceRow}
variable {row : CapabilityRow} {uri : String}

/-- The suppressed writes are the ones that would change nothing. -/
theorem merge_of_not_changes (huri : old.uri = new.uri) (h : changes old new = false) :
    merged old new = old := by
  simp only [changes, Bool.or_eq_false_iff, decide_eq_false_iff_not, ne_eq, not_not,
    Bool.and_eq_false_iff, Bool.not_eq_false', Bool.and_eq_true, decide_eq_true_eq] at h
  obtain ⟨⟨⟨⟨⟨⟨⟨⟨⟨⟨⟨⟨⟨⟨⟨⟨⟨⟨⟨⟨⟨⟨⟨⟨⟨⟨⟨⟨⟨⟨⟨⟨hhash, hkey⟩, htenant⟩, hstore⟩, hnamespace⟩, htype⟩,
    hname⟩, hversion⟩, htitle⟩, hdescription⟩, hpackage⟩, hentrypoint⟩, hpath⟩, hkind⟩, hsystem⟩,
    hvisibility⟩, hmode⟩, howner⟩, hplugin⟩, hcategory⟩, hkeywords⟩, hscopes⟩, hgroups⟩, husers⟩,
    hrisk⟩, hmutating⟩, hlifecycle⟩, hcreated⟩, hmetadata⟩, hcommit⟩, hlicense⟩, hsubmitted⟩,
    hpromoted⟩ := h
  have hsubmitted' : old.submittedBy.or new.submittedBy = old.submittedBy := by
    cases ho : old.submittedBy <;> cases hn : new.submittedBy <;> simp_all
  have hpromoted' : old.promotedFromUri.or new.promotedFromUri = old.promotedFromUri := by
    cases ho : old.promotedFromUri <;> cases hn : new.promotedFromUri <;> simp_all
  have hlifecycle' : (if old.approvalState = .approved then old.lifecycle else new.lifecycle) =
      old.lifecycle := by
    split
    · rfl
    · rcases hlifecycle with hkept | hsame
      · exact absurd hkept.2 ‹_›
      · exact hsame.symm
  cases old
  cases new
  simp_all [merged, mergeState]

/-- An upsert leaves a row as it is exactly when no compared column differs. -/
theorem merged_eq_iff (old new : Capability) (huri : old.uri = new.uri) :
    merged old new = old ↔ changes old new = false := by
  refine ⟨fun h => ?_, merge_of_not_changes huri⟩
  have hlifecycle := congrArg Capability.lifecycle h
  have hsubmitted := congrArg Capability.submittedBy h
  have hpromoted := congrArg Capability.promotedFromUri h
  have hcolumns : ∀ {α : Type} (column : Capability → α),
      column (merged old new) = column new → column old = column new :=
    fun column hset => (congrArg column h).symm.trans hset
  simp only [changes, hcolumns Capability.contentHash rfl, hcolumns Capability.canonicalKey rfl,
    hcolumns Capability.tenantId rfl, hcolumns Capability.storeId rfl,
    hcolumns Capability.namespaceId rfl, hcolumns Capability.capabilityType rfl,
    hcolumns Capability.name rfl, hcolumns Capability.version rfl, hcolumns Capability.title rfl,
    hcolumns Capability.description rfl, hcolumns Capability.packagePath rfl,
    hcolumns Capability.entrypoint rfl, hcolumns Capability.sourcePath rfl,
    hcolumns Capability.sourceKind rfl, hcolumns Capability.sourceSystem rfl,
    hcolumns Capability.visibility rfl, hcolumns Capability.discoveryMode rfl,
    hcolumns Capability.owner rfl, hcolumns Capability.plugin rfl,
    hcolumns Capability.category rfl, hcolumns Capability.keywords rfl,
    hcolumns Capability.requiredScopes rfl, hcolumns Capability.allowGroups rfl,
    hcolumns Capability.allowUsers rfl, hcolumns Capability.riskTier rfl,
    hcolumns Capability.mutating rfl, hcolumns Capability.createdBy rfl,
    hcolumns Capability.metadata rfl, hcolumns Capability.sourceCommit rfl,
    hcolumns Capability.license rfl, ne_eq, not_true, decide_false, Bool.false_or, Bool.or_false]
  simp only [merged, hcolumns Capability.contentHash rfl] at hlifecycle hsubmitted hpromoted
  -- The other three columns fall back on the stored value.
  have hfills : ∀ {a b : Option String}, a.or b = a → (a.isNone && b.isSome) = false := by
    intro a b hab
    cases a with
    | some value => rfl
    | none => cases b with
      | some value => cases hab
      | none => rfl
  rw [hfills hsubmitted, hfills hpromoted, Bool.or_false, Bool.or_false]
  by_cases happroved : old.approvalState = .approved
  · simp [happroved]
  · simp only [happroved, decide_false, Bool.and_false, Bool.false_eq_true, if_false] at hlifecycle
    simp [hlifecycle]

theorem lt_fresh_id (hrow : row ∈ db.capabilities) : row.id < db.freshId := by
  have hle : ∀ (ids : List Nat) (start n : Nat), n = start ∨ n ∈ ids → n ≤ ids.foldl max start := by
    intro ids
    induction ids with
    | nil =>
        intro start n hn
        simp_all
    | cons first ids ih =>
        intro start n hn
        rw [List.foldl_cons]
        have hstart := ih (max start first) (max start first) (.inl rfl)
        rcases hn with rfl | hn
        · omega
        · rcases List.mem_cons.mp hn with rfl | hn
          · omega
          · exact ih (max start first) n (.inr hn)
  exact Nat.lt_succ_of_le (hle _ 0 row.id (.inr (List.mem_map_of_mem hrow)))

theorem write_row_ok (h : writeRow db cap = .ok (id, table)) :
    (∀ x, x ∈ table ↔ x = ⟨id, written (db.capabilityAt cap.uri) cap⟩ ∨
      (x ∈ db.capabilities ∧ x.cap.uri ≠ cap.uri)) ∧
    (∀ row, db.capabilityAt cap.uri = some row → id = row.id) ∧
    (db.capabilityAt cap.uri = none → ∀ row ∈ db.capabilities, row.id ≠ id) := by
  unfold writeRow at h
  cases hat : db.capabilityAt cap.uri with
  | none =>
      simp only [hat] at h
      obtain ⟨inserted, hinsert, h⟩ := bind_eq_ok h
      cases h
      refine ⟨fun x => ?_, fun row hrow => (Option.some_ne_none _ hrow.symm).elim, ?_⟩
      · rw [Table.mem_insert? (constrained_ok hinsert), written]
        constructor
        · rintro (hx | hx)
          · exact .inr ⟨hx, Database.capability_at_none hat hx⟩
          · exact .inl hx
        · rintro (hx | hx)
          · exact .inr hx
          · exact .inl hx.1
      · intro _ row hrow
        exact Nat.ne_of_lt (lt_fresh_id hrow)
  | some row =>
      simp only [hat] at h
      obtain ⟨updated, hupdate, h⟩ := bind_eq_ok h
      cases h
      obtain ⟨hrow, huri⟩ := Database.capability_at_some hat
      refine ⟨fun x => ?_, fun other hother => by rw [Option.some.inj hother], fun h => by cases h⟩
      rw [Table.mem_update? (constrained_ok hupdate), written]
      -- The row at the URI is the only one the statement addresses.
      have hself : (if row.id = row.id && changes row.cap cap.stored then
          { row with cap := merged row.cap cap.stored } else row) =
          (⟨row.id, merged row.cap cap.stored⟩ : CapabilityRow) := by
        by_cases hchanges : changes row.cap cap.stored = true
        · simp [hchanges]
        · have hsame : merged row.cap cap.stored = row.cap :=
            merge_of_not_changes huri (by simpa using hchanges)
          simp [hsame]
      have hother : ∀ y ∈ db.capabilities, y.cap.uri ≠ cap.uri → y.id ≠ row.id := by
        intro y hy hne hid
        exact hne (Database.eq_of_id hy hrow hid ▸ huri)
      constructor
      · rintro ⟨y, hy, rfl⟩
        by_cases hyuri : y.cap.uri = cap.uri
        · left
          rw [Database.eq_of_uri hy hrow (hyuri.trans huri.symm)]
          exact hself
        · right
          simp [hother y hy hyuri, hy, hyuri]
      · rintro (rfl | ⟨hx, hne⟩)
        · exact ⟨row, hrow, hself⟩
        · exact ⟨x, hx, by simp [hother x hx hne]⟩

theorem write_row_of_key_free (h : KeyFree db cap) :
    ∃ id table, writeRow db cap = .ok (id, table) := by
  cases hat : db.capabilityAt cap.uri with
  | none =>
      have hnew : ∀ row ∈ db.capabilities,
          ¬ Constrained.Conflict row (⟨db.freshId, cap.stored⟩ : CapabilityRow) := by
        intro row hrow hconflict
        have huri : row.cap.uri ≠ cap.uri := Database.capability_at_none hat hrow
        rcases hconflict with hid | hsame | hkey
        · exact Nat.ne_of_lt (lt_fresh_id hrow) hid
        · exact huri hsame
        · exact huri (h row hrow hkey)
      obtain ⟨table, htable⟩ := Option.isSome_iff_exists.mp (Table.insert?_isSome_iff.mpr hnew)
      exact ⟨db.freshId, table, by simp [writeRow, hat, htable, constrained, bind, Except.bind]⟩
  | some row =>
      obtain ⟨hrow, huri⟩ := Database.capability_at_some hat
      let write : CapabilityRow → CapabilityRow := fun other =>
        if other.id = row.id && changes row.cap cap.stored then
          { other with cap := merged row.cap cap.stored }
        else other
      -- a row keeps its id and its URI, and the one at the URI takes the key of the capability
      have hwrite : ∀ x ∈ db.capabilities, (write x).id = x.id ∧ (write x).cap.uri = x.cap.uri ∧
          ((write x).cap.canonicalKey = x.cap.canonicalKey ∨
            x = row ∧ (write x).cap.canonicalKey = cap.canonicalKey) := by
        intro x hx
        by_cases hwritten : (x.id = row.id && changes row.cap cap.stored) = true
        · have hid : x.id = row.id := by simpa using (Bool.and_eq_true_iff.mp hwritten).1
          obtain rfl := Database.eq_of_id hx hrow hid
          simp only [write, if_pos hwritten]
          exact ⟨trivial, huri.symm, .inr ⟨trivial, rfl⟩⟩
        · simp only [write, if_neg hwritten]
          exact ⟨trivial, trivial, .inl trivial⟩
      have hkeeps : ∀ a ∈ db.capabilities, ∀ b ∈ db.capabilities,
          Constrained.Conflict (write a) (write b) → Constrained.Conflict a b := by
        intro a ha b hb hconflict
        obtain ⟨haId, haUri, haKey⟩ := hwrite a ha
        obtain ⟨hbId, hbUri, hbKey⟩ := hwrite b hb
        rcases hconflict with hid | hsame | hkey
        · exact .inl (haId.symm.trans (hid.trans hbId))
        · exact .inr (.inl (haUri.symm.trans (hsame.trans hbUri)))
        · rcases haKey with haKey | ⟨rfl, haKey⟩
          · rcases hbKey with hbKey | ⟨rfl, hbKey⟩
            · exact .inr (.inr (haKey.symm.trans (hkey.trans hbKey)))
            · exact .inr (.inl ((h a ha (haKey.symm.trans (hkey.trans hbKey))).trans huri.symm))
          · rcases hbKey with hbKey | ⟨rfl, -⟩
            · have htaken := h b hb (hbKey.symm.trans (hkey.symm.trans haKey))
              exact .inr (.inl (huri.trans htaken.symm))
            · exact .inl rfl
      obtain ⟨table, htable⟩ := Table.update?_of_keeps hkeeps
      exact ⟨row.id, table, by
        simp only [writeRow, hat]
        rw [htable]
        rfl⟩

/-- A list of source rows of one URI, with one row for each path. -/
def SourceRow.Keyed (uri : String) (sources : List SourceRow) : Prop :=
  (∀ source ∈ sources, source.uri = uri) ∧
    sources.Pairwise fun a b => a.sourcePath ≠ b.sourcePath

theorem add_source_keyed {source : SourceRow} (h : SourceRow.Keyed uri sources)
    (huri : source.uri = uri) : SourceRow.Keyed uri (addSource sources source) := by
  unfold addSource
  split
  · exact h
  · rename_i hnew
    simp only [List.any_eq_true, decide_eq_true_eq, not_exists, not_and] at hnew
    refine ⟨fun x hx => ?_, List.pairwise_append.mpr ⟨h.2, List.pairwise_singleton _ _, ?_⟩⟩
    · rcases List.mem_append.mp hx with hx | hx
      · exact h.1 x hx
      · exact (List.mem_singleton.mp hx) ▸ huri
    · intro a ha b hb
      rw [List.mem_singleton.mp hb]
      exact hnew a ha

theorem mem_add_source {source x : SourceRow} (h : x ∈ addSource sources source) :
    x ∈ sources ∨ x = source := by
  unfold addSource at h
  split at h
  · exact .inl h
  · simpa using h

theorem add_source_paths (sources : List SourceRow) (source : SourceRow) (path : String) :
    (∃ x ∈ addSource sources source, x.sourcePath = path) ↔
      (∃ x ∈ sources, x.sourcePath = path) ∨ source.sourcePath = path := by
  unfold addSource
  split
  · rename_i hany
    obtain ⟨x, hx, hpath⟩ := List.any_eq_true.mp hany
    refine ⟨.inl, ?_⟩
    rintro (h | rfl)
    · exact h
    · exact ⟨x, hx, by simpa using hpath⟩
  · simp [or_and_right, exists_or]

theorem provenance_row_uri {item : Json} {row : SourceRow}
    (h : provenanceRow p cap item = some row) : row.uri = cap.uri := by
  unfold provenanceRow at h
  split at h
  · dsimp only at h
    split at h
    · cases h
      rfl
    · cases h
  · cases h

theorem collect_provenance_keyed {items : List Json} (hsources : SourceRow.Keyed cap.uri sources)
    (h : collectProvenance p cap sources items = .ok expected) :
    SourceRow.Keyed cap.uri expected := by
  induction items generalizing sources with
  | nil =>
      cases h
      exact hsources
  | cons item items ih =>
      unfold collectProvenance at h
      cases hrow : provenanceRow p cap item with
      | none =>
          simp only [hrow] at h
          exact ih hsources h
      | some row =>
          simp only [hrow] at h
          split at h
          · cases h
          · exact ih (add_source_keyed hsources (provenance_row_uri hrow)) h

theorem foldl_plain_source_keyed (paths : List String)
    (hsources : SourceRow.Keyed cap.uri sources) : SourceRow.Keyed cap.uri
      (paths.foldl (fun sources path => addSource sources (plainSource p cap path)) sources) := by
  induction paths generalizing sources with
  | nil => exact hsources
  | cons path paths ih => exact ih (add_source_keyed hsources rfl)

/-- The source rows of a capability carry its URI, one for each path, in the order of their paths,
and one of them is its own source file. -/
theorem capability_source_rows_ok (h : capabilitySourceRows p cap = .ok expected) :
    SourceRow.Keyed cap.uri expected ∧
    expected.Pairwise (fun a b => a.sourcePath ≤ b.sourcePath) ∧
    ∃ source ∈ expected, source.sourcePath = p.normalizePath cap.sourcePath := by
  unfold capabilitySourceRows at h
  obtain ⟨collected, hcollected, h⟩ := bind_eq_ok h
  obtain ⟨paths, -, h⟩ := bind_eq_ok h
  cases h
  have hkeyed := foldl_plain_source_keyed (p := p) (paths ++ [cap.sourcePath])
    (collect_provenance_keyed ⟨by simp, .nil⟩ hcollected)
  refine ⟨⟨fun source hsource => hkeyed.1 source ((List.mem_insertionSort _).mp hsource), ?_⟩,
    ?_, ?_⟩
  · exact (List.perm_insertionSort _ _).symm.pairwise hkeyed.2 fun hab hba => hab hba.symm
  · exact List.pairwise_insertionSort _ _
  · rw [List.foldl_append]
    obtain ⟨source, hsource, hpath⟩ := (add_source_paths
      (paths.foldl (fun sources path => addSource sources (plainSource p cap path)) collected)
      (plainSource p cap cap.sourcePath) _).mpr (.inr rfl)
    exact ⟨source, (List.mem_insertionSort _).mpr hsource, hpath⟩

theorem collect_provenance_congr {other : Capability}
    (h : provenanceRow p cap = provenanceRow p other) (sources : List SourceRow)
    (items : List Json) :
    collectProvenance p cap sources items = collectProvenance p other sources items := by
  induction items generalizing sources with
  | nil => rfl
  | cons item items ih =>
      unfold collectProvenance
      rw [h]
      cases provenanceRow p other item with
      | none => exact ih sources
      | some row => simp only [ih]

theorem capability_source_rows_congr {other : Capability}
    (h : provenanceRow p cap = provenanceRow p other)
    (hplain : plainSource p cap = plainSource p other)
    (hpath : cap.sourcePath = other.sourcePath) (hmetadata : cap.metadata = other.metadata) :
    capabilitySourceRows p cap = capabilitySourceRows p other := by
  unfold capabilitySourceRows rawSourcePaths
  rw [hpath, hmetadata, hplain]
  simp only [collect_provenance_congr h]

variable (p cap) in
theorem provenance_row_path (item : Json) :
    (provenanceRow p cap item).map (·.sourcePath) = provenancePath p item := by
  unfold provenanceRow provenancePath
  split
  · rename_i fields
    dsimp only
    unfold Dict.truthy
    cases Dict.get? fields "sourcePath" with
    | none => rfl
    | some value => cases htruthy : value.truthy <;> simp [htruthy]
  · rfl

theorem collect_provenance_paths {items : List Json} {sources : List SourceRow}
    (h : collectProvenance p cap sources items = .ok expected) (path : String) :
    (∃ x ∈ expected, x.sourcePath = path) ↔
      (∃ x ∈ sources, x.sourcePath = path) ∨ path ∈ items.filterMap (provenancePath p) := by
  induction items generalizing sources with
  | nil =>
      cases h
      simp
  | cons item items ih =>
      unfold collectProvenance at h
      rw [List.filterMap_cons, ← provenance_row_path p cap item]
      cases hrow : provenanceRow p cap item with
      | none =>
          simp only [hrow] at h
          exact ih h
      | some row =>
          simp only [hrow] at h
          split at h
          · cases h
          · rw [ih h, add_source_paths, or_assoc]
            simp [eq_comm]

theorem foldl_plain_source_paths (paths : List String) {sources : List SourceRow} (path : String) :
    (∃ x ∈ paths.foldl (fun sources path => addSource sources (plainSource p cap path)) sources,
        x.sourcePath = path) ↔
      (∃ x ∈ sources, x.sourcePath = path) ∨ path ∈ paths.map p.normalizePath := by
  induction paths generalizing sources with
  | nil => simp
  | cons first paths ih =>
      rw [List.foldl_cons, ih, add_source_paths, or_assoc, List.map_cons, List.mem_cons]
      simp [plainSource, eq_comm]

theorem capability_source_rows_paths (h : capabilitySourceRows p cap = .ok expected)
    (path : String) : (∃ x ∈ expected, x.sourcePath = path) ↔ path ∈ claimedPaths p cap := by
  unfold capabilitySourceRows at h
  obtain ⟨collected, hcollected, h⟩ := bind_eq_ok h
  obtain ⟨paths, hpaths, h⟩ := bind_eq_ok h
  cases h
  simp only [List.mem_insertionSort]
  rw [foldl_plain_source_paths, collect_provenance_paths hcollected]
  unfold claimedPaths provenancePaths
  simp only [hpaths, List.map_append, List.map_cons, List.map_nil]
  split <;> simp

theorem mem_foldl_replace {rows : List SourceRow} {sources : Table SourceRow}
    (hrows : rows.Pairwise fun a b => a.sourcePath ≠ b.sourcePath) (x : SourceRow) :
    x ∈ rows.foldl Table.replace sources ↔
      x ∈ rows ∨ (x ∈ sources ∧ ∀ row ∈ rows, x.sourcePath ≠ row.sourcePath) := by
  induction rows generalizing sources with
  | nil => simp
  | cons row rows ih =>
      obtain ⟨hrow, hrows⟩ := List.pairwise_cons.mp hrows
      rw [List.foldl_cons, ih hrows, Table.mem_replace]
      simp only [List.mem_cons, forall_eq_or_imp]
      constructor
      · rintro (hx | ⟨⟨hx, hpath⟩ | rfl, hothers⟩)
        · exact .inl (.inr hx)
        · exact .inr ⟨hx, hpath, hothers⟩
        · exact .inl (.inl rfl)
      · rintro ((rfl | hx) | ⟨hx, hpath, hothers⟩)
        · exact .inr ⟨.inr rfl, hrow⟩
        · exact .inl hx
        · exact .inr ⟨.inl ⟨hx, hpath⟩, hothers⟩

/-- Synchronizing the sources of a URI leaves exactly the expected rows there and takes their paths
away from every other URI. -/
theorem mem_sync_sources {sources : Table SourceRow} (hexpected : SourceRow.Keyed uri expected)
    (x : SourceRow) :
    x ∈ syncSources sources uri expected ↔ x ∈ expected ∨
      (x ∈ sources ∧ x.uri ≠ uri ∧ ∀ row ∈ expected, x.sourcePath ≠ row.sourcePath) := by
  unfold syncSources
  dsimp only
  split
  · rename_i hactual
    have hmem : ∀ y, y ∈ expected ↔ y ∈ sources ∧ y.uri = uri := by
      intro y
      rw [← hactual, List.mem_insertionSort]
      simp
    constructor
    · intro hx
      by_cases huri : x.uri = uri
      · exact .inl ((hmem x).mpr ⟨hx, huri⟩)
      · refine .inr ⟨hx, huri, fun row hrow hpath => huri ?_⟩
        rw [Table.eq_of_conflict hx ((hmem row).mp hrow).1 hpath]
        exact ((hmem row).mp hrow).2
    · rintro (hx | ⟨hx, -, -⟩)
      · exact ((hmem x).mp hx).1
      · exact hx
  · rw [Table.mem_filter, mem_foldl_replace hexpected.2]
    simp only [ne_eq, Bool.or_eq_true, decide_eq_true_eq, List.any_eq_true]
    constructor
    · rintro ⟨hx | ⟨hx, hpath⟩, hkept⟩
      · exact .inl hx
      · rcases hkept with huri | ⟨row, hrow, hsame⟩
        · exact .inr ⟨hx, huri, hpath⟩
        · exact absurd hsame.symm (hpath row hrow)
    · rintro (hx | ⟨hx, huri, hpath⟩)
      · exact ⟨.inl hx, .inr ⟨x, hx, rfl⟩⟩
      · exact ⟨.inr ⟨hx, hpath⟩, .inl huri⟩

/-- Synchronizing the full-text row of an id leaves exactly the expected row there. -/
theorem mem_sync_fts {fts : Table FtsRow} {row : FtsRow} (x : FtsRow) :
    x ∈ syncFts fts row ↔ x = row ∨ (x ∈ fts ∧ x.rowid ≠ row.rowid) := by
  unfold syncFts
  split
  · rename_i hfind
    obtain ⟨hrow, -⟩ := Table.find?_some hfind
    constructor
    · intro hx
      by_cases hid : x.rowid = row.rowid
      · exact .inl (Table.eq_of_conflict hx hrow hid)
      · exact .inr ⟨hx, hid⟩
    · rintro (rfl | hx)
      · exact hrow
      · exact hx.1
  · rw [Table.mem_replace]
    exact or_comm

/-- The clamp changes the lifecycle and nothing else. -/
theorem clamp_lifecycle_eq (existing : Option CapabilityRow) (cap : Capability) :
    ∃ lifecycle, clampLifecycle existing cap = { cap with lifecycle } := by
  unfold clampLifecycle
  split
  · split
    · exact ⟨_, rfl⟩
    · exact ⟨cap.lifecycle, rfl⟩
  · exact ⟨cap.lifecycle, rfl⟩

theorem incoming_lifecycle (p : Platform) (db : Database) (cap : Capability) :
    ∃ lifecycle, incoming p db cap = { applyDefaultUserNamespace p cap with lifecycle } :=
  clamp_lifecycle_eq _ _

theorem incoming_of_governed (h : cap.Governed) :
    incoming p db cap = clampLifecycle (db.capabilityAt cap.uri) cap := by
  simp only [incoming, apply_default_of_governed h]

theorem incoming_uri (p : Platform) (db : Database) (cap : Capability) :
    (incoming p db cap).uri = (applyDefaultUserNamespace p cap).uri := by
  obtain ⟨lifecycle, heq⟩ := incoming_lifecycle p db cap
  rw [heq]

/-- An upsert keeps the columns that identify the source. -/
theorem incoming_source (p : Platform) (db : Database) (cap : Capability) :
    (incoming p db cap).canonicalKey = cap.canonicalKey ∧
      (incoming p db cap).contentHash = cap.contentHash ∧
      (incoming p db cap).sourceKind = cap.sourceKind := by
  obtain ⟨lifecycle, heq⟩ := incoming_lifecycle p db cap
  rw [heq]
  exact apply_default_source cap

theorem written_uri (existing : Option CapabilityRow) (cap : Capability) :
    (written existing cap).uri = cap.uri := by
  cases existing <;> rfl

theorem key_free_of_write (h : writeRow db cap = .ok (id, table)) : KeyFree db cap := by
  obtain ⟨hmem, -, -⟩ := write_row_ok h
  intro row hrow hkey
  by_contra hne
  have hwritten : (written (db.capabilityAt cap.uri) cap).canonicalKey = cap.canonicalKey := by
    cases db.capabilityAt cap.uri <;> rfl
  have hsame := Table.eq_of_conflict ((hmem row).mpr (.inr ⟨hrow, hne⟩)) ((hmem _).mpr (.inl rfl))
    (.inr (.inr (hkey.trans hwritten.symm)))
  exact hne ((congrArg (·.cap.uri) hsame).trans (written_uri _ cap))

theorem upsert_capability_ok (h : upsertCapability p db cap = .ok (id, result)) :
    ∃ table expected, writeRow db (incoming p db cap) = .ok (id, table) ∧
      capabilitySourceRows p (incoming p db cap) = .ok expected ∧
      (incoming p db cap).riskTier ≠ .unset ∧
      result = { db with
        capabilities := table
        sources := syncSources db.sources (incoming p db cap).uri expected
        fts := syncFts db.fts ((incoming p db cap).ftsRow id) } := by
  unfold upsertCapability at h
  dsimp only at h
  split at h
  · cases h
  · rename_i hrisk
    obtain ⟨⟨id', table⟩, hwrite, h⟩ := bind_eq_ok h
    obtain ⟨expected, hexpected, h⟩ := bind_eq_ok h
    cases h
    exact ⟨table, expected, hwrite, hexpected, hrisk, rfl⟩

/-- An upsert that finds the capability's key finds it at the URI it writes to: `canonical_key` is
unique. -/
theorem upsert_at_key (hrow : row ∈ db.capabilities)
    (hkey : row.cap.canonicalKey = cap.canonicalKey)
    (h : upsertCapability p db cap = .ok (id, result)) :
    row.cap.uri = (applyDefaultUserNamespace p cap).uri := by
  obtain ⟨table, expected, hwrite, -, -, -⟩ := upsert_capability_ok h
  obtain ⟨hmem, -, -⟩ := write_row_ok hwrite
  rw [← incoming_uri p db cap]
  have hincoming := (incoming_source p db cap).1
  generalize incoming p db cap = target at hmem hincoming ⊢
  by_contra hne
  have hwritten : (written (db.capabilityAt target.uri) target).canonicalKey =
      target.canonicalKey := by
    cases db.capabilityAt target.uri <;> rfl
  have hsame := Table.eq_of_conflict ((hmem row).mpr (.inr ⟨hrow, hne⟩)) ((hmem _).mpr (.inl rfl))
    (.inr (.inr (hkey.trans (hincoming.symm.trans hwritten.symm))))
  exact hne ((congrArg (·.cap.uri) hsame).trans (written_uri _ target))

theorem sorted_sources_eq {sources : Table SourceRow} (hkeyed : SourceRow.Keyed uri expected)
    (hsorted : expected.Pairwise fun a b => a.sourcePath ≤ b.sourcePath)
    (h : ∀ x, x ∈ expected ↔ x ∈ sources ∧ x.uri = uri) :
    (sources.rows.filter (·.uri = uri)).insertionSort (fun a b => a.sourcePath ≤ b.sourcePath) =
      expected := by
  have hnodup : expected.Nodup := hkeyed.2.imp fun hab h => hab (congrArg SourceRow.sourcePath h)
  have hactual : (sources.rows.filter (·.uri = uri)).Nodup :=
    (sources.unique.imp fun {a b} hab (h : a = b) =>
      hab (congrArg SourceRow.sourcePath h)).filter _
  have hperm : ((sources.rows.filter (·.uri = uri)).insertionSort
      fun a b => a.sourcePath ≤ b.sourcePath).Perm expected :=
    (List.perm_insertionSort _ _).trans <| (List.perm_ext_iff_of_nodup hactual hnodup).mpr
      fun x => by rw [h x]; simp
  refine hperm.eq_of_pairwise (fun a b ha hb hab hba => ?_) (List.pairwise_insertionSort _ _)
    hsorted
  have ha' := hperm.mem_iff.mp ha
  exact Table.eq_of_conflict ((h a).mp ha').1 ((h b).mp hb).1 (String.le_antisymm hab hba)

theorem sync_sources_unchanged {sources : Table SourceRow} (hkeyed : SourceRow.Keyed uri expected)
    (hsorted : expected.Pairwise fun a b => a.sourcePath ≤ b.sourcePath)
    (h : ∀ x, x ∈ expected ↔ x ∈ sources ∧ x.uri = uri) :
    syncSources sources uri expected = sources :=
  if_pos (sorted_sources_eq hkeyed hsorted h)

theorem upsert_capability_unchanged (hrow : row ∈ db.capabilities)
    (hincoming : incoming p db cap = new) (huri : row.cap.uri = new.uri)
    (hrisk : new.riskTier ≠ .unset) (hchanges : changes row.cap new.stored = false)
    (hexpected : capabilitySourceRows p new = .ok expected)
    (hsources : ∀ x, x ∈ expected ↔ x ∈ db.sources ∧ x.uri = new.uri)
    (hfts : new.ftsRow row.id ∈ db.fts) : upsertCapability p db cap = .ok (row.id, db) := by
  obtain ⟨hkeyed, hsorted, -⟩ := capability_source_rows_ok hexpected
  have hat : db.capabilityAt new.uri = some row := huri ▸ Database.capability_at_eq hrow
  have hwrite : writeRow db new = .ok (row.id, db.capabilities) := by
    simp only [writeRow, hat, hchanges, Bool.and_false, Bool.false_eq_true, if_false]
    rw [Table.update?_eq_self fun _ _ => rfl]
    rfl
  have hfind : db.fts.find? (·.rowid = (new.ftsRow row.id).rowid) = some (new.ftsRow row.id) :=
    Table.find?_eq_some hfts (by simp) fun y _ hy => by
      show y.rowid = _
      simpa using hy
  simp only [upsertCapability, hincoming, if_neg hrisk, bind, Except.bind, hwrite, hexpected,
    sync_sources_unchanged hkeyed hsorted hsources, syncFts, hfind, if_true]

end

end Capmesh
