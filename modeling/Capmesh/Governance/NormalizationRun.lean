import Capmesh.Governance.Normalization

/-!
# A normalization pass

`normalize_existing_capability_namespaces` as a whole: it ends without an error, keeps what
identifies its rows, and leaves nothing for a second pass. Only the relationship tuples can stand in
its way, when one already names a URI that the pass gives a row; `newUris` are these URIs.
-/

namespace Capmesh

open Python Relational

/-- The URI that the pass gives a row. -/
def migratedUri (p : Platform) (db : Database) (row : CapabilityRow) : String :=
  uniqueMigrationUri p db (applyDefaultUserNamespace p row.cap).uri row.id
    (applyDefaultUserNamespace p row.cap).canonicalKey

/-- The row the pass writes. -/
def migratedRow (p : Platform) (db : Database) (row : CapabilityRow) : CapabilityRow :=
  ⟨row.id, { (applyDefaultUserNamespace p row.cap).stored with uri := migratedUri p db row }⟩

/-- The URIs that the pass gives rows and that no row had. The relationship tuples have no part in
which they are. -/
def newUris (p : Platform) (db : Database) : List String :=
  match normalizeExistingCapabilityNamespaces p { db with tuples := .empty } with
  | .ok (_, result) => (result.capabilities.rows.map (·.cap.uri)).filter fun uri =>
      !db.capabilities.any (·.cap.uri = uri)
  | .error _ => []

/-- A row that the pass can move: its source rows can be read. -/
def CapabilityRow.Movable (p : Platform) (row : CapabilityRow) : Prop :=
  applyDefaultUserNamespace p row.cap ≠ row.cap →
    ∃ expected, capabilitySourceRows p row.cap = .ok expected

/-- What the pass keeps of a row. -/
def CapabilityRow.identity (row : CapabilityRow) : Nat × String × String × String :=
  (row.id, row.cap.canonicalKey, row.cap.contentHash, row.cap.name)

section

variable {p : Platform} {db : Database} {row : CapabilityRow} {rows : List CapabilityRow}

theorem apply_default_rows (cap : Capability) :
    (applyDefaultUserNamespace p cap).name = cap.name ∧
      (applyDefaultUserNamespace p cap).sourcePath = cap.sourcePath ∧
      (applyDefaultUserNamespace p cap).sourceSystem = cap.sourceSystem := by
  unfold applyDefaultUserNamespace
  split
  · exact ⟨rfl, rfl, rfl⟩
  · dsimp only
    split <;> exact ⟨rfl, rfl, rfl⟩

/-- A source row of another URI. -/
def SourceRow.at (source : SourceRow) (uri : String) : SourceRow := { source with uri }

theorem SourceRow.at_inj {a b : SourceRow} {uri : String} (huri : a.uri = b.uri)
    (h : a.at uri = b.at uri) : a = b := by
  cases a
  cases b
  simp_all [SourceRow.at]

theorem collect_provenance_at {cap other : Capability} {items : List Json}
    (hrow : ∀ item, provenanceRow p other item = (provenanceRow p cap item).map (·.at other.uri))
    {sources expected : List SourceRow} (huris : ∀ source ∈ sources, source.uri = cap.uri)
    (h : collectProvenance p cap sources items = .ok expected) :
    collectProvenance p other (sources.map (·.at other.uri)) items =
      .ok (expected.map (·.at other.uri)) := by
  induction items generalizing sources with
  | nil =>
      cases h
      rfl
  | cons item items ih =>
      unfold collectProvenance at h ⊢
      rw [hrow]
      cases hitem : provenanceRow p cap item with
      | none =>
          rw [hitem] at h
          exact ih huris h
      | some row =>
          have hrowUri := provenance_row_uri hitem
          rw [hitem] at h
          have hconflict : ((sources.map (·.at other.uri)).any fun source =>
              source.sourcePath = (row.at other.uri).sourcePath && source ≠ row.at other.uri) =
              sources.any fun source => source.sourcePath = row.sourcePath && source ≠ row := by
            rw [List.any_map, Bool.eq_iff_iff, List.any_eq_true, List.any_eq_true]
            refine exists_congr fun source => and_congr_right fun hsource => ?_
            have hsame : source.at other.uri = row.at other.uri ↔ source = row :=
              ⟨SourceRow.at_inj ((huris source hsource).trans hrowUri.symm), fun h => h ▸ rfl⟩
            simp only [Function.comp_apply, Bool.and_eq_true, decide_eq_true_eq, ne_eq, hsame]
            exact Iff.rfl
          have hadd : addSource (sources.map (·.at other.uri)) (row.at other.uri) =
              (addSource sources row).map (·.at other.uri) := by
            unfold addSource
            rw [List.any_map]
            show (if sources.any (·.sourcePath = row.sourcePath) then _ else _) = _
            split
            · rfl
            · rw [List.map_append, List.map_singleton]
          simp only [Option.map_some, hconflict, hadd]
          dsimp only at h
          split at h
          · cases h
          · rename_i hagree
            rw [if_neg hagree]
            refine ih (fun source hsource => ?_) h
            rcases mem_add_source hsource with hsource | rfl
            · exact huris source hsource
            · exact hrowUri

theorem default_source_rows {cap : Capability}
    (h : ∃ expected, capabilitySourceRows p cap = .ok expected) :
    ∃ expected, capabilitySourceRows p (applyDefaultUserNamespace p cap) = .ok expected := by
  obtain ⟨expected, h⟩ := h
  obtain ⟨-, hhash, hkind⟩ := apply_default_source (p := p) cap
  obtain ⟨-, hpath, hsystem⟩ := apply_default_rows (p := p) cap
  have hprovenance := (apply_default_metadata (p := p)
    (by decide : "sourceProvenance" ∉ addressKeys) cap).2
  have hpaths := (apply_default_metadata (p := p) (by decide : "sourcePaths" ∉ addressKeys) cap).2
  generalize applyDefaultUserNamespace p cap = moved at hhash hkind hpath hsystem hprovenance hpaths
  have hraw : rawSourcePaths moved = rawSourcePaths cap := by
    simp only [rawSourcePaths, hpaths, hpath]
  have hrow : ∀ item, provenanceRow p moved item =
      (provenanceRow p cap item).map (·.at moved.uri) := by
    intro item
    unfold provenanceRow
    cases item with
    | obj fields =>
        dsimp only
        split
        · simp only [hkind, hsystem, hhash, Option.map_some, SourceRow.at]
        · rfl
    | _ => rfl
  unfold capabilitySourceRows at h ⊢
  obtain ⟨collected, hcollected, h⟩ := bind_eq_ok h
  obtain ⟨paths, hread, -⟩ := bind_eq_ok h
  have hmoved := collect_provenance_at hrow (by simp) hcollected
  rw [hprovenance, hraw]
  simp only [List.map_nil] at hmoved
  simp only [hmoved, hread, bind, Except.bind]
  exact ⟨_, rfl⟩

/-- Tuples can be renamed to a URI that none of them names. -/
theorem rename_tuples {tuples : Table RelationshipTuple} {old new : String}
    (h : new = old ∨ ∀ tuple ∈ tuples, tuple.object ≠ new) :
    ∃ result, tuples.update? (fun tuple =>
      { tuple with object := renamed old new tuple.object }) = some result := by
  refine Table.update?_of_keeps fun a ha b hb hconflict => ?_
  rcases hconflict with hid | ⟨htenant, hobject, hrelation, huser⟩
  · exact .inl hid
  refine .inr ⟨htenant, ?_, hrelation, huser⟩
  dsimp only [renamed] at hobject
  rcases h with rfl | hfree
  · split at hobject <;> split at hobject <;> simp_all
  · split at hobject
    · split at hobject
      · rw [‹a.object = old›, ‹b.object = old›]
      · exact absurd hobject.symm (hfree b hb)
    · split at hobject
      · exact absurd hobject (hfree a ha)
      · exact hobject

/-- The table after the pass moved a row. -/
theorem move_row (hrow : row ∈ db.capabilities) :
    ∃ result, db.capabilities.update? (fun other =>
      if other.id = row.id then
        { other with cap := { (applyDefaultUserNamespace p row.cap).stored with
            uri := migratedUri p db row } }
      else other) = some result := by
  have hkey : (applyDefaultUserNamespace p row.cap).canonicalKey = row.cap.canonicalKey :=
    (apply_default_source row.cap).1
  -- the URI is free, and the key is the one the row had
  have hother : ∀ x ∈ db.capabilities, x.id ≠ row.id →
      ¬ Constrained.Conflict x (migratedRow p db row) := by
    intro x hx hid hconflict
    rcases hconflict with hsame | huri | hsameKey
    · exact hid hsame
    · replace huri : x.cap.uri = migratedUri p db row := huri
      have hfree := unique_migration_uri_free p db (applyDefaultUserNamespace p row.cap).uri row.id
        (applyDefaultUserNamespace p row.cap).canonicalKey
      have htaken : db.takenUri row.id (migratedUri p db row) = true :=
        Table.any_iff.mpr ⟨x, hx, by simp [hid, huri]⟩
      rw [migratedUri, hfree] at htaken
      cases htaken
    · exact hid (congrArg (·.id) (Table.eq_of_conflict hx hrow (.inr (.inr (hsameKey.trans hkey)))))
  refine Table.update?_of_keeps fun a ha b hb hconflict => ?_
  by_cases haId : a.id = row.id
  · by_cases hbId : b.id = row.id
    · exact .inl (haId.trans hbId.symm)
    · rw [if_pos haId, if_neg hbId] at hconflict
      refine absurd (Constrained.symm hconflict) ?_
      rw [haId]
      exact hother b hb hbId
  · by_cases hbId : b.id = row.id
    · rw [if_neg haId, if_pos hbId] at hconflict
      refine absurd hconflict ?_
      rw [hbId]
      exact hother a ha haId
    · rwa [if_neg haId, if_neg hbId] at hconflict

theorem normalize_row_moves (hrow : row ∈ db.capabilities)
    (hmoves : applyDefaultUserNamespace p row.cap ≠ row.cap) (hmovable : row.Movable p) :
    ∃ next : Database, next.capabilities.rows =
        db.capabilities.rows.map (fun other =>
          if other.id = row.id then migratedRow p db row else other) ∧
      ∀ tuples renamedTuples : Table RelationshipTuple,
        tuples.update? (fun tuple => { tuple with
          object := renamed row.cap.uri (migratedUri p db row) tuple.object }) =
            some renamedTuples →
        normalizeRow p { db with tuples } row = .ok (1, { next with tuples := renamedTuples }) := by
  obtain ⟨capabilities, hcapabilities⟩ := move_row (p := p) hrow
  obtain ⟨sources, hsources⟩ := default_source_rows (hmovable hmoves)
  let next : Database := { db with
    capabilities
    sources := sources.foldl
      (fun table source => table.replace { source with uri := migratedUri p db row })
      (db.sources.filter (·.uri ≠ row.cap.uri))
    shares := db.shares.map
      (fun share => { share with
        capabilityUri := renamed row.cap.uri (migratedUri p db row) share.capabilityUri })
      fun _ _ h => h
    requests := db.requests.map
      (fun request => { request with
        capabilityUri := renamed row.cap.uri (migratedUri p db row) request.capabilityUri })
      fun _ _ h => h
    fts := db.fts.replace { (applyDefaultUserNamespace p row.cap).ftsRow row.id with
      uri := migratedUri p db row } }
  refine ⟨next, ?_, fun tuples renamedTuples hrenamed => ?_⟩
  · show capabilities.rows = _
    rw [Table.rows_update? hcapabilities]
    refine List.map_congr_left fun other _ => ?_
    split
    · rename_i hid
      rw [hid]
      rfl
    · rfl
  · have huri : uniqueMigrationUri p { db with tuples } (applyDefaultUserNamespace p row.cap).uri
        row.id (applyDefaultUserNamespace p row.cap).canonicalKey = migratedUri p db row := rfl
    simp only [normalizeRow, if_neg hmoves, huri, hcapabilities, hsources, hrenamed, constrained,
      bind, Except.bind]
    rfl

/-- No tuple names a URI that only the later catalog has. -/
def NamesNoNew (db final : Database) (tuples : Table RelationshipTuple) : Prop :=
  ∀ tuple ∈ tuples, ∀ x ∈ final.capabilities, x.cap.uri = tuple.object →
    ∃ y ∈ db.capabilities, y.cap.uri = tuple.object

theorem migrated_identity (hrow : row ∈ db.capabilities) {other : CapabilityRow}
    (hother : other ∈ db.capabilities) :
    (if other.id = row.id then migratedRow p db row else other).identity = other.identity := by
  split
  · rename_i hid
    obtain rfl := Database.eq_of_id hother hrow hid
    obtain ⟨hkey, hhash, -⟩ := apply_default_source (p := p) other.cap
    have hname := (apply_default_rows (p := p) other.cap).1
    show (other.id, (applyDefaultUserNamespace p other.cap).canonicalKey,
      (applyDefaultUserNamespace p other.cap).contentHash,
      (applyDefaultUserNamespace p other.cap).name) = other.identity
    rw [hkey, hhash, hname]
    rfl
  · rfl

theorem migrated_governed (hmoves : applyDefaultUserNamespace p row.cap ≠ row.cap) :
    (migratedRow p db row).cap.Governed := by
  have hsystem : ¬ row.cap.isSystem = true := fun hsystem =>
    hmoves (apply_default_of_governed (.inl hsystem))
  obtain ⟨huri, htenant⟩ := apply_default_filed (p := p) hsystem
  exact .inr ⟨unique_migration_uri_governed huri _ _, htenant⟩

theorem names_no_new_moved {next final : Database} {tuples : Table RelationshipTuple}
    (hrow : row ∈ db.capabilities)
    (hmem : ∀ x, x ∈ next.capabilities ↔
      x = migratedRow p db row ∨ (x ∈ db.capabilities ∧ x.id ≠ row.id))
    (hfinal : migratedRow p db row ∈ final.capabilities) (htuples : NamesNoNew db final tuples) :
    ∃ renamedTuples, tuples.update? (fun tuple => { tuple with
        object := renamed row.cap.uri (migratedUri p db row) tuple.object }) = some renamedTuples ∧
      NamesNoNew next final renamedTuples := by
  have hfree : migratedUri p db row = row.cap.uri ∨
      ∀ tuple ∈ tuples, tuple.object ≠ migratedUri p db row := by
    by_contra hnot
    obtain ⟨hnew, hnamed⟩ := not_or.mp hnot
    obtain ⟨tuple, htuple, hobject⟩ : ∃ tuple ∈ tuples, tuple.object = migratedUri p db row := by
      simpa using hnamed
    obtain ⟨y, hy, huri⟩ := htuples tuple htuple _ hfinal hobject.symm
    have hfree := unique_migration_uri_free p db (applyDefaultUserNamespace p row.cap).uri row.id
      (applyDefaultUserNamespace p row.cap).canonicalKey
    -- no other row is at the new URI, so the row was there before
    have hid : y.id = row.id := by
      by_contra hid
      have htaken : db.takenUri row.id (migratedUri p db row) = true :=
        Table.any_iff.mpr ⟨y, hy, by simp [hid, huri, hobject]⟩
      rw [migratedUri, hfree] at htaken
      cases htaken
    rw [Database.eq_of_id hy hrow hid, hobject] at huri
    exact hnew huri.symm
  obtain ⟨renamedTuples, hrenamed⟩ := rename_tuples hfree
  refine ⟨renamedTuples, hrenamed, fun tuple htuple x hx hobject => ?_⟩
  obtain ⟨before, hbefore, rfl⟩ := (Table.mem_update? hrenamed _).mp htuple
  by_cases hold : before.object = row.cap.uri
  · refine ⟨migratedRow p db row, (hmem _).mpr (.inl rfl), ?_⟩
    show migratedUri p db row = renamed row.cap.uri (migratedUri p db row) before.object
    rw [hold, renamed, if_pos rfl]
  · have hkept : renamed row.cap.uri (migratedUri p db row) before.object = before.object :=
      if_neg hold
    dsimp only at hobject ⊢
    rw [hkept] at hobject ⊢
    obtain ⟨y, hy, huri⟩ := htuples before hbefore x hx hobject
    refine ⟨y, (hmem y).mpr (.inr ⟨hy, fun hid => hold ?_⟩), huri⟩
    rw [← huri, Database.eq_of_id hy hrow hid]

/-- Passing over rows of the table, with any tuples that name no URI which the pass gives out. -/
theorem normalize_all_with (hrows : ∀ row ∈ rows, row ∈ db.capabilities ∧
      row.cap.sourceKind ≠ "system_capability" ∧ row.Movable p)
    (hids : rows.Pairwise fun a b => a.id ≠ b.id) :
    ∃ changed, ∃ final : Database,
      final.capabilities.rows.map (·.identity) = db.capabilities.rows.map (·.identity) ∧
      ∀ tuples, NamesNoNew db final tuples → ∃ renamedTuples,
        normalizeAll p { db with tuples } rows =
          .ok (changed, { final with tuples := renamedTuples }) := by
  induction rows generalizing db with
  | nil => exact ⟨0, db, rfl, fun tuples _ => ⟨tuples, rfl⟩⟩
  | cons row rows ih =>
      obtain ⟨hrow, hkind, hmovable⟩ := hrows row List.mem_cons_self
      have hrest := fun other hmem => hrows other (List.mem_cons_of_mem row hmem)
      obtain ⟨hother, hids⟩ := List.pairwise_cons.mp hids
      by_cases hstays : applyDefaultUserNamespace p row.cap = row.cap
      · obtain ⟨changed, final, hkept, hrun⟩ := ih hrest hids
        refine ⟨0 + changed, final, hkept, fun tuples htuples => ?_⟩
        obtain ⟨renamedTuples, hfinal⟩ := hrun tuples htuples
        refine ⟨renamedTuples, ?_⟩
        simp only [normalizeAll, normalizeRow, if_pos hstays, hfinal, bind, Except.bind]
      · obtain ⟨next, hnext, hmoves⟩ := normalize_row_moves hrow hstays hmovable
        have hmem : ∀ x, x ∈ next.capabilities ↔
            x = migratedRow p db row ∨ (x ∈ db.capabilities ∧ x.id ≠ row.id) := by
          intro x
          rw [← Table.mem_rows, hnext, List.mem_map]
          constructor
          · rintro ⟨y, hy, rfl⟩
            by_cases hid : y.id = row.id
            · exact .inl (if_pos hid)
            · rw [if_neg hid]
              exact .inr ⟨hy, hid⟩
          · rintro (rfl | ⟨hx, hid⟩)
            · exact ⟨row, hrow, if_pos rfl⟩
            · exact ⟨x, hx, if_neg hid⟩
        have hstand : ∀ other ∈ rows, other ∈ next.capabilities ∧
            other.cap.sourceKind ≠ "system_capability" ∧ other.Movable p := fun other hmem' =>
          ⟨(hmem other).mpr (.inr ⟨(hrest other hmem').1, (hother other hmem').symm⟩),
            (hrest other hmem').2⟩
        obtain ⟨changed, final, hkept, hrun⟩ := ih hstand hids
        have hfinal : migratedRow p db row ∈ final.capabilities := by
          obtain ⟨unnamed, hunnamed⟩ := hrun .empty fun tuple htuple =>
            absurd htuple (Table.not_mem_empty tuple)
          have hcover : ∀ other ∈ rows,
              other ∈ ({ next with tuples := .empty } : Database).capabilities ∧
                other.cap.sourceKind ≠ "system_capability" := fun other hmem' =>
            ⟨(hstand other hmem').1, (hstand other hmem').2.1⟩
          have hall := normalize_all_ok hcover hids hunnamed
          exact hall.2.1 _ ((hmem _).mpr (.inl rfl)) (migrated_governed hstays)
        refine ⟨1 + changed, final, ?_, fun tuples htuples => ?_⟩
        · rw [hkept, hnext, List.map_map]
          exact List.map_congr_left fun other hmem' => migrated_identity hrow hmem'
        · obtain ⟨renamedTuples, hrenamed, hlater⟩ :=
            names_no_new_moved hrow hmem hfinal htuples
          obtain ⟨result, hresult⟩ := hrun renamedTuples hlater
          refine ⟨result, ?_⟩
          simp only [normalizeAll, hmoves tuples renamedTuples hrenamed, hresult, bind, Except.bind]

/-- A pass over rows in their namespaces changes nothing. -/
theorem normalize_all_stays
    (hrows : ∀ row ∈ rows, applyDefaultUserNamespace p row.cap = row.cap) :
    normalizeAll p db rows = .ok (0, db) := by
  induction rows with
  | nil => rfl
  | cons row rows ih =>
      obtain ⟨hrow, hrest⟩ := List.forall_mem_cons.mp hrows
      simp only [normalizeAll, normalizeRow, if_pos hrow, ih hrest, bind, Except.bind]

/-- **A normalization pass.** On a catalog whose movable rows are valid, and where no tuple already
names a URI that it gives out, the pass ends, keeps the rows with their ids, keys, hashes and names,
leaves every URI to one row and every row that is no system capability in its namespace, and a
second pass changes nothing. -/
theorem normalization_keeps
    (hvalid : ∀ row ∈ db.capabilities, row.cap.sourceKind ≠ "system_capability" → row.Movable p)
    (htuples : ∀ tuple ∈ db.tuples, tuple.object ∉ newUris p db) :
    ∃ changed result, normalizeExistingCapabilityNamespaces p db = .ok (changed, result) ∧
      result.capabilities.rows.length = db.capabilities.rows.length ∧
      result.capabilities.rows.map (·.identity) = db.capabilities.rows.map (·.identity) ∧
      (result.capabilities.rows.map (·.cap.uri)).Nodup ∧
      (∀ row ∈ result.capabilities, row.cap.sourceKind ≠ "system_capability" →
        ("cap://system/" :: governedPrefixes).any (startsWith row.cap.uri ·) = true) ∧
      normalizeExistingCapabilityNamespaces p result = .ok (0, result) := by
  have hrows : ∀ row ∈ db.capabilities.rows.filter (·.cap.sourceKind ≠ "system_capability"),
      row ∈ db.capabilities ∧ row.cap.sourceKind ≠ "system_capability" ∧ row.Movable p := by
    intro row hrow
    obtain ⟨hmem, hkind⟩ := List.mem_filter.mp hrow
    have hkind : row.cap.sourceKind ≠ "system_capability" := by simpa using hkind
    exact ⟨hmem, hkind, hvalid row hmem hkind⟩
  have hids : (db.capabilities.rows.filter (·.cap.sourceKind ≠ "system_capability")).Pairwise
      fun a b => a.id ≠ b.id :=
    (db.capabilities.unique.imp fun hconflict hid => hconflict (.inl hid)).filter _
  obtain ⟨changed, final, hkept, hrun⟩ := normalize_all_with hrows hids
  have hnew : NamesNoNew db final db.tuples := by
    intro tuple htuple x hx hobject
    obtain ⟨unnamed, hunnamed⟩ := hrun .empty fun other hother =>
      absurd hother (Table.not_mem_empty other)
    by_contra hnone
    refine htuples tuple htuple ?_
    have hpass : normalizeExistingCapabilityNamespaces p { db with tuples := .empty } =
        .ok (changed, { final with tuples := unnamed }) := hunnamed
    unfold newUris
    rw [hpass]
    refine List.mem_filter.mpr ⟨List.mem_map.mpr ⟨x, hx, hobject⟩, ?_⟩
    rw [Bool.not_eq_true', Bool.eq_false_iff]
    intro hany
    obtain ⟨y, hy, huri⟩ := Table.any_iff.mp hany
    exact hnone ⟨y, hy, by simpa using huri⟩
  obtain ⟨tuples, hresult⟩ := hrun db.tuples hnew
  have hpass : normalizeExistingCapabilityNamespaces p db =
      .ok (changed, { final with tuples }) := hresult
  obtain ⟨-, -, hgoverned, -⟩ := normalize_existing_ok hpass
  refine ⟨changed, _, hpass, ?_, hkept, ?_, fun row hrow hkind => ?_, ?_⟩
  · simpa using congrArg List.length hkept
  · exact List.pairwise_map.mpr (final.capabilities.unique.imp fun hconflict huri =>
      hconflict (.inr (.inl huri)))
  · have haddressed := governed_addressed (hgoverned row hrow hkind) hkind
    simp only [isAddressed, isGovernedUri, Bool.or_eq_true] at haddressed
    simp only [List.any_cons, Bool.or_eq_true]
    exact haddressed.symm
  · refine normalize_all_stays fun row hrow => ?_
    obtain ⟨hmem, hkind⟩ := List.mem_filter.mp hrow
    exact apply_default_of_governed (hgoverned row hmem (by simpa using hkind))

end

/-- The skill as another package has it: the same words, under another legacy URI. -/
def copiedNotes : Capability :=
  { notesSkill "sha256:v1" with
    uri := "cap://asg.local/skill/copy.notes@0.1.0"
    sourcePath := "/asg-os/plugins/copy/skills/notes/SKILL.md"
    canonicalKey := "skill:copy:notes:0.1.0" }

/-- A catalog from before the namespaces: two skills that are given one URI, and a tuple that names
the second. -/
def legacyCatalog : Database :=
  { Database.empty with
    capabilities := ⟨[⟨1, notesSkill "sha256:v1"⟩, ⟨2, copiedNotes⟩], by decide +kernel⟩
    tuples := ⟨[⟨"rel_1", "asg", copiedNotes.uri, "viewer", "user:alice", "manual"⟩],
      List.pairwise_singleton _ _⟩ }

/-- Each of the two gets a URI of its own. -/
theorem normalization_keeps_legacy :
    userNamespaceCapabilityUri .sample (notesSkill "sha256:v1") =
        userNamespaceCapabilityUri .sample copiedNotes ∧
      ∃ changed result,
        normalizeExistingCapabilityNamespaces .sample legacyCatalog = .ok (changed, result) ∧
        result.capabilities.rows.length = legacyCatalog.capabilities.rows.length ∧
        (result.capabilities.rows.map (·.cap.uri)).Nodup ∧
        normalizeExistingCapabilityNamespaces .sample result = .ok (0, result) := by
  have hvalid : ∀ row ∈ legacyCatalog.capabilities,
      row.cap.sourceKind ≠ "system_capability" → row.Movable .sample := by
    intro row hrow _ _
    rcases List.mem_cons.mp hrow with rfl | hrow
    · exact ⟨_, rfl⟩
    · obtain rfl := List.mem_singleton.mp hrow
      exact ⟨_, rfl⟩
  have htuples : ∀ tuple ∈ legacyCatalog.tuples,
      tuple.object ∉ newUris .sample legacyCatalog := by
    intro tuple htuple
    obtain rfl := List.mem_singleton.mp htuple
    decide +kernel
  obtain ⟨changed, result, hpass, hlength, -, hapart, -, hagain⟩ :=
    normalization_keeps hvalid htuples
  exact ⟨by decide +kernel, changed, result, hpass, hlength, hapart, hagain⟩

end Capmesh
