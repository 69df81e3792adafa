import Capmesh.Index.Restart

/-!
# What an upsert leaves

`upsert_capability` against its own statements: the row that the `SET` clause prescribes, whether or
not the `WHERE` clause lets it be written, the full-text row, and the source rows of the URI.
`upsert_specified` says that an upsert within the constraints of the table leaves them, and that the
same upsert then writes nothing.
-/

namespace Capmesh

open Python Relational

/-- The source rows of a URI, by path. -/
def Database.sourcesAt (db : Database) (uri : String) : List SourceRow :=
  (db.sources.rows.filter (·.uri = uri)).insertionSort fun a b => a.sourcePath ≤ b.sourcePath

/-- What an upsert leaves of the capability it writes: the row as prescribed, one full-text row, the
expected source rows, and nothing for a second upsert to write. -/
structure Upserted (p : Platform) (db : Database) (cap : Capability) (expected : List SourceRow)
    (id : Nat) (result : Database) : Prop where
  row : result.capabilityAt (incoming p db cap).uri = some
    ⟨id, written (db.capabilityAt (incoming p db cap).uri) (incoming p db cap)⟩
  others : ∀ row : CapabilityRow, row.cap.uri ≠ (incoming p db cap).uri →
    (row ∈ result.capabilities ↔ row ∈ db.capabilities)
  suppressed : ∀ row, db.capabilityAt (incoming p db cap).uri = some row → id = row.id ∧
    (changes row.cap (incoming p db cap).stored = false ↔
      merged row.cap (incoming p db cap).stored = row.cap)
  fts : result.fts.find? (·.rowid = id) = some ((incoming p db cap).ftsRow id)
  sources : result.sourcesAt (incoming p db cap).uri = expected
  again : upsertCounted p cap result = .ok (result, false)

section

variable {p : Platform} {db result : Database} {cap : Capability} {expected : List SourceRow}
variable {id : Nat}

theorem apply_default_risk_tier (cap : Capability) :
    (applyDefaultUserNamespace p cap).riskTier = cap.riskTier := by
  unfold applyDefaultUserNamespace
  split
  · rfl
  · dsimp only
    split <;> rfl

/-- An upsert over what the same upsert left writes nothing. -/
theorem upsert_counted_again {row : CapabilityRow} (hrow : row ∈ result.capabilities)
    (hwritten : row.cap = written (db.capabilityAt (incoming p db cap).uri) (incoming p db cap))
    (hrisk : cap.riskTier ≠ .unset)
    (hexpected : capabilitySourceRows p (incoming p db cap) = .ok expected)
    (hsources : ∀ x, x ∈ expected ↔ x ∈ result.sources ∧ x.uri = (incoming p db cap).uri)
    (hfts : (incoming p db cap).ftsRow row.id ∈ result.fts) :
    upsertCounted p cap result = .ok (result, false) := by
  obtain ⟨first, hfirst⟩ := incoming_lifecycle p db cap
  obtain ⟨second, hsecond⟩ := incoming_lifecycle p result cap
  have huri : (incoming p result cap).uri = (incoming p db cap).uri := by rw [hfirst, hsecond]
  have hrowUri : row.cap.uri = (incoming p result cap).uri := by
    rw [hwritten, written_uri, huri]
  have hat : result.capabilityAt (incoming p result cap).uri = some row :=
    hrowUri ▸ Database.capability_at_eq hrow
  have htier : (incoming p result cap).riskTier ≠ .unset := by
    rw [hsecond]
    show (applyDefaultUserNamespace p cap).riskTier ≠ .unset
    rwa [apply_default_risk_tier]
  -- the two may differ in their lifecycle, of which neither the source rows nor the text make use
  have hagain : capabilitySourceRows p (incoming p result cap) = .ok expected := by
    rw [← hexpected, hfirst, hsecond]
    exact capability_source_rows_congr rfl rfl rfl rfl
  have htext : (incoming p result cap).ftsRow row.id = (incoming p db cap).ftsRow row.id := by
    rw [hfirst, hsecond]
    rfl
  have hchanges : changes row.cap (incoming p result cap).stored = false := by
    have hbase : (applyDefaultUserNamespace p cap).uri = (incoming p db cap).uri :=
      (incoming_uri p db cap).symm
    have hclamped : incoming p result cap =
        clampLifecycle (some row) (applyDefaultUserNamespace p cap) := by
      rw [← hat, huri, ← hbase]
      rfl
    obtain ⟨id, cap'⟩ := row
    dsimp only at hwritten
    rw [← hbase] at hwritten
    subst hwritten
    have hmerged := written_again (db.capabilityAt (applyDefaultUserNamespace p cap).uri)
      (applyDefaultUserNamespace p cap) id
    rw [hclamped] at hrowUri ⊢
    exact (merged_eq_iff _ (Capability.stored _) hrowUri).mp hmerged
  have hsame := upsert_capability_unchanged hrow rfl hrowUri htier hchanges hagain
    (fun x => by rw [huri]; exact hsources x) (by rw [htext]; exact hfts)
  obtain ⟨hkeyed, hsorted, -⟩ := capability_source_rows_ok hexpected
  have hwrites : upsertWrites result (incoming p result cap) row.id expected = false := by
    have hfind : result.fts.find? (·.rowid = row.id) =
        some ((incoming p result cap).ftsRow row.id) := by
      rw [htext]
      exact Table.find?_eq_some hfts (by simp [Capability.ftsRow]) fun other _ hrowid => by
        show other.rowid = row.id
        simpa using hrowid
    have hpaths := sorted_sources_eq hkeyed hsorted hsources
    rw [← huri] at hpaths
    unfold upsertWrites
    rw [hat, hpaths, hfind]
    simp [hchanges]
  simp only [upsertCounted, hsame, hagain, hwrites, bind, Except.bind]

/-- **An upsert does what its statements say.** Within the constraints of the table, and where the
provenance records of the capability agree, an upsert leaves the row of the `SET` clause, which it
skips exactly when the row would stay as it is, the full-text row and the source rows, and a second
one writes nothing. -/
theorem upsert_specified (hkey : KeyFree db (incoming p db cap)) (hrisk : cap.riskTier ≠ .unset)
    (hexpected : capabilitySourceRows p (incoming p db cap) = .ok expected) :
    ∃ id result, upsertCapability p db cap = .ok (id, result) ∧
      Upserted p db cap expected id result := by
  obtain ⟨id, table, hwrite⟩ := write_row_of_key_free hkey
  obtain ⟨hmem, hid, -⟩ := write_row_ok hwrite
  obtain ⟨hkeyed, hsorted, -⟩ := capability_source_rows_ok hexpected
  obtain ⟨lifecycle, hincoming⟩ := incoming_lifecycle p db cap
  have htier : (incoming p db cap).riskTier ≠ .unset := by
    rw [hincoming]
    show (applyDefaultUserNamespace p cap).riskTier ≠ .unset
    rwa [apply_default_risk_tier]
  let result : Database := { db with
    capabilities := table
    sources := syncSources db.sources (incoming p db cap).uri expected
    fts := syncFts db.fts ((incoming p db cap).ftsRow id) }
  let row : CapabilityRow :=
    ⟨id, written (db.capabilityAt (incoming p db cap).uri) (incoming p db cap)⟩
  have hrow : row ∈ result.capabilities := (hmem row).mpr (.inl rfl)
  have hsources : ∀ x, x ∈ expected ↔ x ∈ result.sources ∧ x.uri = (incoming p db cap).uri := by
    intro x
    show x ∈ expected ↔ x ∈ syncSources db.sources (incoming p db cap).uri expected ∧ _
    rw [mem_sync_sources hkeyed]
    constructor
    · exact fun hx => ⟨.inl hx, hkeyed.1 x hx⟩
    · rintro ⟨hx | ⟨-, hother, -⟩, huri⟩
      · exact hx
      · exact absurd huri hother
  have hfts : (incoming p db cap).ftsRow id ∈ result.fts := (mem_sync_fts _).mpr (.inl rfl)
  refine ⟨id, result, ?_, ?_, fun other hother => ?_, fun found hfound => ?_, ?_, ?_, ?_⟩
  · simp only [upsertCapability, if_neg htier, bind, Except.bind, hwrite, hexpected]
    rfl
  · have hat : result.capabilityAt row.cap.uri = some row := Database.capability_at_eq hrow
    rwa [show row.cap.uri = (incoming p db cap).uri from written_uri _ _] at hat
  · rw [hmem]
    constructor
    · rintro (rfl | hkept)
      · exact absurd (written_uri _ _) hother
      · exact hkept.1
    · exact fun hkept => .inr ⟨hkept, hother⟩
  · have huri : found.cap.uri = (incoming p db cap).stored.uri :=
      (Database.capability_at_some hfound).2
    exact ⟨hid found hfound, (merged_eq_iff _ _ huri).symm⟩
  · exact Table.find?_eq_some hfts (by simp [Capability.ftsRow]) fun other _ hsame => by
      show other.rowid = id
      simpa using hsame
  · exact sorted_sources_eq hkeyed hsorted hsources
  · exact upsert_counted_again hrow rfl hrisk hexpected hsources hfts

end

/-- A skill without a risk tier. -/
def untieredNotes : Capability := { notesSkill "sha256:v1" with riskTier := .unset }

/-- The check constraint on the risk tier refuses a capability that breaks no uniqueness constraint
and whose source rows can be read. -/
theorem upsert_specified_counterexample :
    ¬ ∀ (p : Platform) (db : Database) (cap : Capability) (expected : List SourceRow),
      KeyFree db (incoming p db cap) →
      capabilitySourceRows p (incoming p db cap) = .ok expected →
      ∃ id result, upsertCapability p db cap = .ok (id, result) ∧
        Upserted p db cap expected id result := by
  intro hclaim
  have hkey : KeyFree .empty (incoming .sample .empty untieredNotes) :=
    fun row hrow => absurd hrow (Table.not_mem_empty row)
  obtain ⟨expected, hexpected⟩ : ∃ expected,
      capabilitySourceRows .sample (incoming .sample .empty untieredNotes) = .ok expected :=
    ⟨_, rfl⟩
  obtain ⟨id, result, hupsert, -⟩ := hclaim .sample .empty untieredNotes expected hkey hexpected
  have hrefused : upsertCapability .sample .empty untieredNotes =
      .error (.integrity "CHECK constraint failed: risk_tier") := rfl
  rw [hrefused] at hupsert
  cases hupsert

/-- A catalog with an earlier, approved version of a skill. -/
def filedCatalog : Database :=
  { Database.empty with
    capabilities := ⟨[⟨1, { applyDefaultUserNamespace .sample (notesSkill "sha256:v1") with
      approvalState := .approved }⟩], List.pairwise_singleton _ _⟩ }

/-- The later version is written over it. -/
theorem upsert_specified_notes : ∃ expected id result,
    upsertCapability .sample filedCatalog (notesSkill "sha256:v2") = .ok (id, result) ∧
      Upserted .sample filedCatalog (notesSkill "sha256:v2") expected id result := by
  have hkey : KeyFree filedCatalog (incoming .sample filedCatalog (notesSkill "sha256:v2")) := by
    intro row hrow _
    rw [List.mem_singleton.mp hrow]
    decide +kernel
  obtain ⟨expected, hexpected⟩ : ∃ expected,
      capabilitySourceRows .sample (incoming .sample filedCatalog (notesSkill "sha256:v2")) =
        .ok expected := ⟨_, rfl⟩
  exact ⟨expected, upsert_specified hkey (by decide) hexpected⟩

end Capmesh
