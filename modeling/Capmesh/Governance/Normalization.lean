import Mathlib
import Capmesh.Index.Landing

/-!
# Normalizing a catalog

`normalize_existing_capability_namespaces` of `index.py`, which `init_db` runs on every
start: a row outside the governed namespaces moves into the default user namespace, to a
URI that `unique_migration_uri` makes free. `unique_migration_uri_free` bounds the search
for that URI by the number of rows, and `normalize_existing_ok` says that the pass leaves a
normalized catalog, keeps every governed row as it is, and does not touch the holds.
-/

namespace Capmesh

open Python Relational

/-- `uri.rsplit("@", 1)`, when there is an `@`. -/
def rsplitVersion (uri : String) : Option (String × String) :=
  match uri.toList.reverse.dropWhile (· ≠ '@') with
  | [] => none
  | _ :: base =>
      some (String.ofList base.reverse,
        String.ofList (uri.toList.reverse.takeWhile (· ≠ '@')).reverse)

/-- The URI that the search of `unique_migration_uri` tries after `tried` others. -/
def migrationCandidate (uri suffix : String) (tried : Nat) : String :=
  let mark := "-" ++ suffix ++ if tried = 0 then "" else "-" ++ toString (tried + 1)
  match rsplitVersion uri with
  | some (base, version) => base ++ mark ++ "@" ++ version
  | none => uri ++ mark

/-- Whether another row than the one with an id is at a URI. -/
def Database.takenUri (db : Database) (id : Nat) (uri : String) : Bool :=
  db.capabilities.any fun row => row.cap.uri = uri && row.id ≠ id

/-- `unique_migration_uri`. One of the first candidates is free, one more than there are rows. -/
def uniqueMigrationUri (p : Platform) (db : Database) (uri : String) (id : Nat) (key : String) :
    String :=
  if !db.takenUri id uri then uri
  else
    let suffix := String.ofList ((p.sha256Text key).toList.take 10)
    match (List.range (db.capabilities.rows.length + 1)).find? fun tried =>
        !db.takenUri id (migrationCandidate uri suffix tried) with
    | some tried => migrationCandidate uri suffix tried
    | none => uri

/-- Normalize one row of the table. -/
def normalizeRow (p : Platform) (db : Database) (row : CapabilityRow) :
    Except Failure (Nat × Database) :=
  let normalized := applyDefaultUserNamespace p row.cap
  if normalized = row.cap then .ok (0, db)
  else do
    let uri := uniqueMigrationUri p db normalized.uri row.id normalized.canonicalKey
    let capabilities ← constrained "capabilities.uri" (db.capabilities.update? fun other =>
      if other.id = row.id then { other with cap := { normalized.stored with uri } } else other)
    let sources ← capabilitySourceRows p normalized
    let tuples ← constrained "relationship_tuples.object" (db.tuples.update? fun tuple =>
      { tuple with object := renamed row.cap.uri uri tuple.object })
    .ok (1, { db with
      capabilities
      tuples
      sources := sources.foldl (fun table source => table.replace { source with uri })
        (db.sources.filter (·.uri ≠ row.cap.uri))
      shares := db.shares.map
        (fun share => { share with capabilityUri := renamed row.cap.uri uri share.capabilityUri })
        fun _ _ h => h
      requests := db.requests.map
        (fun request =>
          { request with capabilityUri := renamed row.cap.uri uri request.capabilityUri })
        fun _ _ h => h
      fts := db.fts.replace { normalized.ftsRow row.id with uri } })

/-- The loop over the rows. -/
def normalizeAll (p : Platform) : Database → List CapabilityRow → Except Failure (Nat × Database)
  | db, [] => .ok (0, db)
  | db, row :: rows => do
      let (changed, next) ← normalizeRow p db row
      let (more, result) ← normalizeAll p next rows
      .ok (changed + more, result)

/-- `normalize_existing_capability_namespaces`. -/
def normalizeExistingCapabilityNamespaces (p : Platform) (db : Database) :
    Except Failure (Nat × Database) :=
  normalizeAll p db (db.capabilities.rows.filter (·.cap.sourceKind ≠ "system_capability"))

/-- Upsert the built-in system capabilities. -/
def upsertBuiltins (p : Platform) : Database → List Capability → Except Failure Database
  | db, [] => .ok db
  | db, cap :: caps => do
      let (_, next) ← upsertCapability p db cap
      upsertBuiltins p next caps

/-- What `init_db` does to the rows of a database. -/
def initDb (p : Platform) (builtins : List Capability) (db : Database) :
    Except Failure Database := do
  let (_, normalized) ← normalizeExistingCapabilityNamespaces p db
  upsertBuiltins p normalized builtins

section

variable {p : Platform} {db result : Database} {row : CapabilityRow}

/-- The candidates are distinct. -/
theorem migration_candidate_injective (uri suffix : String) :
    Function.Injective (migrationCandidate uri suffix) := by
  have hmark : ∀ m n : Nat, (if m = 0 then "" else "-" ++ toString (m + 1)) =
      (if n = 0 then "" else "-" ++ toString (n + 1)) → m = n := by
    intro m n h
    have hlength := congrArg String.length h
    split at h <;> split at h
    · omega
    · rw [if_pos ‹_›, if_neg ‹_›, String.length_append] at hlength
      have hdash : "-".length = 1 := rfl
      simp at hlength
      omega
    · rw [if_neg ‹_›, if_pos ‹_›, String.length_append] at hlength
      have hdash : "-".length = 1 := rfl
      simp at hlength
    · have hnumber : Nat.repr (m + 1) = Nat.repr (n + 1) := by
        simpa using h
      have := Nat.repr_injective hnumber
      omega
  intro m n h
  unfold migrationCandidate at h
  dsimp only at h
  split at h
  · exact hmark m n (by simpa [String.append_assoc] using h)
  · exact hmark m n (by simpa [String.append_assoc] using h)

/-- The URI that `unique_migration_uri` returns is free. -/
theorem unique_migration_uri_free (p : Platform) (db : Database) (uri : String) (id : Nat)
    (key : String) : db.takenUri id (uniqueMigrationUri p db uri id key) = false := by
  unfold uniqueMigrationUri
  split
  · rename_i hfree
    simpa using hfree
  · dsimp only
    generalize String.ofList ((p.sha256Text key).toList.take 10) = suffix
    split
    · rename_i tried hfound
      simpa using List.find?_some hfound
    · rename_i hnone
      -- Every candidate is the URI of some row, but there are more candidates than rows.
      have htaken : ∀ tried ∈ List.range (db.capabilities.rows.length + 1),
          migrationCandidate uri suffix tried ∈ db.capabilities.rows.map (·.cap.uri) := by
        intro tried htried
        have htaken := List.find?_eq_none.mp hnone tried htried
        simp only [Bool.not_eq_true', Bool.not_eq_false] at htaken
        obtain ⟨row, hrow, huri⟩ := Table.any_iff.mp htaken
        simp only [Bool.and_eq_true, decide_eq_true_eq] at huri
        exact List.mem_map.mpr ⟨row, hrow, huri.1⟩
      have hnodup : ((List.range (db.capabilities.rows.length + 1)).map
          (migrationCandidate uri suffix)).Nodup :=
        List.nodup_range.map (migration_candidate_injective uri suffix)
      have hlength := hnodup.length_le_of_subset fun candidate hcandidate => by
        obtain ⟨tried, htried, rfl⟩ := List.mem_map.mp hcandidate
        exact htaken tried htried
      simp at hlength

/-- Splitting at the last `@` keeps a start that has none. -/
theorem rsplit_version_starts {uri start base version : String} (hstart : '@' ∉ start.toList)
    (h : startsWith uri start = true) (hsplit : rsplitVersion uri = some (base, version)) :
    startsWith base start = true := by
  unfold rsplitVersion at hsplit
  split at hsplit
  · cases hsplit
  · rename_i at_ rest hdrop
    cases hsplit
    obtain ⟨tail, htail⟩ := List.isPrefixOf_iff_prefix.mp h
    have hat : at_ = '@' := by
      have hne := List.head?_dropWhile_not (· ≠ '@') uri.toList.reverse
      rw [hdrop] at hne
      simpa using hne
    -- The text is the base, the `@`, and the version.
    have huri : uri.toList = rest.reverse ++ '@' ::
        (uri.toList.reverse.takeWhile (· ≠ '@')).reverse := by
      have hparts := List.takeWhile_append_dropWhile (p := (· ≠ '@')) (l := uri.toList.reverse)
      rw [hdrop, hat] at hparts
      have hreverse := congrArg List.reverse hparts
      simpa using hreverse.symm
    rw [huri] at htail
    refine List.isPrefixOf_iff_prefix.mpr ?_
    simp only [String.toList_ofList]
    rcases List.append_eq_append_iff.mp htail with ⟨more, hmore, -⟩ | ⟨more, hmore, hrest⟩
    · exact ⟨more, hmore.symm⟩
    · cases more with
      | nil => exact ⟨[], by simpa using hmore⟩
      | cons c more =>
          obtain ⟨rfl, -⟩ := List.cons.inj hrest
          exact absurd (by rw [hmore]; simp) hstart

theorem migration_candidate_starts {uri start : String} (hstart : '@' ∉ start.toList)
    (h : startsWith uri start = true) (suffix : String) (tried : Nat) :
    startsWith (migrationCandidate uri suffix tried) start = true := by
  unfold migrationCandidate
  dsimp only
  split
  · rename_i base version hsplit
    exact starts_with_append _ (starts_with_append _ (starts_with_append _
      (rsplit_version_starts hstart h hsplit)))
  · exact starts_with_append _ h

/-- A migrated URI stays in its governed namespace. -/
theorem unique_migration_uri_governed {uri : String} (h : isGovernedUri uri = true) (id : Nat)
    (key : String) : isGovernedUri (uniqueMigrationUri p db uri id key) = true := by
  obtain ⟨start, hstart, hprefix⟩ := List.any_eq_true.mp h
  have hplain : ∀ start ∈ governedPrefixes, '@' ∉ start.toList := by decide
  refine is_governed_uri_of_prefix start hstart ?_
  unfold uniqueMigrationUri
  split
  · exact hprefix
  · dsimp only
    split
    · exact migration_candidate_starts (hplain start hstart) hprefix _ _
    · exact hprefix

/-- What normalizing a row did: nothing to a row in its namespace; any other row is moved. -/
theorem normalize_row_ok {changed : Nat} (hrow : row ∈ db.capabilities)
    (h : normalizeRow p db row = .ok (changed, result)) :
    (applyDefaultUserNamespace p row.cap = row.cap ∧ result = db) ∨
    (applyDefaultUserNamespace p row.cap ≠ row.cap ∧ result.quarantine = db.quarantine ∧
      ∀ x, x ∈ result.capabilities ↔
        x = ⟨row.id, { (applyDefaultUserNamespace p row.cap).stored with
          uri := uniqueMigrationUri p db (applyDefaultUserNamespace p row.cap).uri row.id
            (applyDefaultUserNamespace p row.cap).canonicalKey }⟩ ∨
        (x ∈ db.capabilities ∧ x.id ≠ row.id)) := by
  unfold normalizeRow at h
  dsimp only at h
  split at h
  · cases h
    exact .inl ⟨‹_›, rfl⟩
  · rename_i hmoves
    obtain ⟨capabilities, hcapabilities, h⟩ := bind_eq_ok h
    obtain ⟨sources, -, h⟩ := bind_eq_ok h
    obtain ⟨tuples, -, h⟩ := bind_eq_ok h
    cases h
    refine .inr ⟨hmoves, rfl, fun x => ?_⟩
    rw [Table.mem_update? (constrained_ok hcapabilities)]
    constructor
    · rintro ⟨y, hy, rfl⟩
      by_cases hid : y.id = row.id
      · simp [hid]
      · simp [hid, hy]
    · rintro (rfl | ⟨hx, hid⟩)
      · exact ⟨row, hrow, by simp⟩
      · exact ⟨x, hx, by simp [hid]⟩

theorem governed_addressed {cap : Capability} (h : cap.Governed)
    (hkind : cap.sourceKind ≠ "system_capability") : isAddressed cap.uri = true := by
  rcases h with hsystem | ⟨huri, -⟩
  · simp only [Capability.isSystem, hkind, decide_false, Bool.false_or] at hsystem
    simp [isAddressed, hsystem]
  · simp [isAddressed, huri]

/-- Normalizing rows of the table leaves the holds and the governed rows, and files the rest. -/
theorem normalize_all_ok {rows : List CapabilityRow} {changed : Nat}
    (hrows : ∀ row ∈ rows, row ∈ db.capabilities ∧ row.cap.sourceKind ≠ "system_capability")
    (hids : rows.Pairwise fun a b => a.id ≠ b.id)
    (h : normalizeAll p db rows = .ok (changed, result)) :
    result.quarantine = db.quarantine ∧
    (∀ x ∈ db.capabilities, x.cap.Governed → x ∈ result.capabilities) ∧
    ∀ x ∈ result.capabilities, (x.cap.Governed ∧ x.cap.sourceKind ≠ "system_capability") ∨
      (x ∈ db.capabilities ∧ x ∉ rows) := by
  induction rows generalizing db changed with
  | nil =>
      cases h
      exact ⟨rfl, fun x hx _ => hx, fun x hx => .inr ⟨hx, by simp⟩⟩
  | cons row rows ih =>
      unfold normalizeAll at h
      obtain ⟨⟨first, next⟩, hnext, h⟩ := bind_eq_ok h
      obtain ⟨⟨more, final⟩, hfinal, h⟩ := bind_eq_ok h
      cases h
      obtain ⟨hrow, hkind⟩ := hrows row List.mem_cons_self
      obtain ⟨hother, hids⟩ := List.pairwise_cons.mp hids
      have hrest := fun other hmem => hrows other (List.mem_cons_of_mem row hmem)
      rcases normalize_row_ok hrow hnext with ⟨hsame, rfl⟩ | ⟨hmoves, hquarantine, hmem⟩
      · obtain ⟨hkept, hgoverned, hfiled⟩ := ih hrest hids hfinal
        refine ⟨hkept, hgoverned, fun x hx => ?_⟩
        rcases hfiled x hx with hxGoverned | ⟨hx, hxRows⟩
        · exact .inl hxGoverned
        · by_cases hxRow : x = row
          · left
            have hrowGoverned : row.cap.Governed := hsame ▸ apply_default_governed row.cap
            rw [hxRow]
            exact ⟨hrowGoverned, hkind⟩
          · exact .inr ⟨hx, by simp [hxRow, hxRows]⟩
      · -- The row moves; the rows still to do are other rows, so they stand.
        have hstand : ∀ x ∈ db.capabilities, x.id ≠ row.id → x ∈ next.capabilities :=
          fun x hx hid => (hmem x).mpr (.inr ⟨hx, hid⟩)
        obtain ⟨hkept, hgoverned, hfiled⟩ := ih
          (fun other hmem => ⟨hstand other (hrest other hmem).1 (hother other hmem).symm,
            (hrest other hmem).2⟩) hids hfinal
        refine ⟨hkept.trans hquarantine, fun x hx hxGoverned => ?_, fun x hx => ?_⟩
        · refine hgoverned x (hstand x hx fun hid => hmoves ?_) hxGoverned
          rw [← Database.eq_of_id hx hrow hid, apply_default_of_governed hxGoverned]
        · rcases hfiled x hx with hxGoverned | ⟨hx, hxRows⟩
          · exact .inl hxGoverned
          · rcases (hmem x).mp hx with rfl | ⟨hx, hid⟩
            · left
              have hsystem : ¬ row.cap.isSystem = true := fun hsystem =>
                hmoves (apply_default_of_governed (.inl hsystem))
              obtain ⟨huri, htenant⟩ := apply_default_filed (p := p) hsystem
              refine ⟨.inr ⟨unique_migration_uri_governed huri _ _, htenant⟩, ?_⟩
              show (applyDefaultUserNamespace p row.cap).sourceKind ≠ "system_capability"
              rw [(apply_default_source row.cap).2.2]
              exact hkind
            · refine .inr ⟨hx, ?_⟩
              simp only [List.mem_cons, not_or]
              exact ⟨fun hxRow => hid (hxRow ▸ rfl), hxRows⟩

/-- The pass leaves the holds and the governed rows as they are, and governs every row that is not
a system capability. With every system capability at a governed or system URI, it leaves a
normalized catalog. -/
theorem normalize_existing_ok {changed : Nat}
    (h : normalizeExistingCapabilityNamespaces p db = .ok (changed, result)) :
    result.quarantine = db.quarantine ∧
    (∀ x ∈ db.capabilities, x.cap.Governed → x ∈ result.capabilities) ∧
    (∀ x ∈ result.capabilities, x.cap.sourceKind ≠ "system_capability" → x.cap.Governed) ∧
    ((∀ x ∈ db.capabilities, x.cap.sourceKind = "system_capability" →
      isAddressed x.cap.uri = true) → result.Normalized) := by
  unfold normalizeExistingCapabilityNamespaces at h
  have hids : (db.capabilities.rows.filter (·.cap.sourceKind ≠ "system_capability")).Pairwise
      fun a b => a.id ≠ b.id :=
    (db.capabilities.unique.imp fun hconflict hid => hconflict (.inl hid)).filter _
  obtain ⟨hquarantine, hgoverned, hfiled⟩ := normalize_all_ok (fun row hrow => by
    obtain ⟨hrow, hkind⟩ := List.mem_filter.mp hrow
    exact ⟨hrow, by simpa using hkind⟩) hids h
  have hsystemKind : ∀ x ∈ db.capabilities, x ∉ db.capabilities.rows.filter
      (·.cap.sourceKind ≠ "system_capability") → x.cap.sourceKind = "system_capability" := by
    intro x hx hxRows
    by_contra hkind
    exact hxRows (List.mem_filter.mpr ⟨hx, by simpa using hkind⟩)
  refine ⟨hquarantine, hgoverned, fun x hx hkind => ?_, fun hsystem x hx => ?_⟩
  · rcases hfiled x hx with hxGoverned | ⟨hx, hxRows⟩
    · exact hxGoverned.1
    · exact absurd (hsystemKind x hx hxRows) hkind
  · rcases hfiled x hx with ⟨hxGoverned, hkind⟩ | ⟨hx, hxRows⟩
    · exact governed_addressed hxGoverned hkind
    · exact hsystem x hx (hsystemKind x hx hxRows)

end

end Capmesh
