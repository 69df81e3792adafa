import Capmesh.Governance.Normalization
import Capmesh.Index.Rebuild

/-!
# Initializing a database twice

`stage_rebuild_index` runs `init_db` on the live database and again on the copy it rebuilds.
`init_db_ok` says what the first run leaves: every builtin is written as an upsert would
write it again, and every row that is not a system capability is governed. `init_db_again`
says that the second run then succeeds and writes nothing but source and full-text rows; the
builtins share one source file, whose source row each of them takes from the one before.
-/

namespace Capmesh

open Python Relational

/-- The built-in system capabilities: one for each URI. -/
structure Builtins where
  capabilities : List Capability
  system : ∀ cap ∈ capabilities, cap.sourceKind = "system_capability"
  uris : capabilities.Pairwise fun a b => a.uri ≠ b.uri

/-- A database that differs only in its source and full-text rows. -/
def Database.SameRows (before after : Database) : Prop :=
  after = { before with sources := after.sources, fts := after.fts }

section

variable {p : Platform} {db next result : Database} {cap : Capability} {caps : List Capability}
variable {row : CapabilityRow} {id : Nat}

theorem system_governed (hsystem : cap.sourceKind = "system_capability") : cap.Governed :=
  .inl (by simp [Capability.isSystem, hsystem])

/-- Merging a capability a second time changes nothing, when it brings the lifecycle of the first
merge or the row is approved. -/
theorem merged_again {old new : Capability} {lifecycle : Lifecycle}
    (h : (merged old new).approvalState = .approved ∨ lifecycle = (merged old new).lifecycle) :
    merged (merged old new) { new with lifecycle } = merged old new := by
  have hor : ∀ a b : Option String, (a.or b).or b = a.or b := by
    intro a b
    rw [Option.or_assoc, Option.or_self]
  generalize hfirst : merged old new = first at h ⊢
  have hhash : first.contentHash = new.contentHash := by rw [← hfirst]; rfl
  have hlifecycle : (if first.approvalState = .approved then first.lifecycle else lifecycle) =
      first.lifecycle := by
    split
    · rfl
    · exact h.resolve_left ‹_›
  unfold merged
  simp only [hhash, decide_true, Bool.true_and, decide_eq_true_eq, hlifecycle, mergeState, if_true]
  subst hfirst
  simp only [merged, hor]

/-- The lifecycle the clamp chooses: the incoming one, or one that may not become it. -/
theorem clamp_lifecycle_cases (row : CapabilityRow) (cap : Capability) :
    (clampLifecycle (some row) cap).lifecycle = cap.lifecycle ∨
      isValidTransition (clampLifecycle (some row) cap).lifecycle cap.lifecycle = false := by
  unfold clampLifecycle
  dsimp only
  split
  · rename_i hclamps
    simp only [Bool.and_eq_true, Bool.not_eq_true'] at hclamps
    exact .inr hclamps.2
  · exact .inl rfl

/-- A second write of a capability over the row of the first changes nothing. -/
theorem written_again (existing : Option CapabilityRow) (cap : Capability) (id : Nat) :
    let row : CapabilityRow := ⟨id, written existing (clampLifecycle existing cap)⟩
    written (some row) (clampLifecycle (some row) cap) = row.cap := by
  cases existing with
  | none => simp [written, clampLifecycle, merged, mergeState, Capability.stored]
  | some r =>
      intro row
      obtain ⟨first, hfirst⟩ := clamp_lifecycle_eq (some r) cap
      obtain ⟨second, hsecond⟩ := clamp_lifecycle_eq (some row) cap
      have hrow : row.cap = merged r.cap { cap.stored with lifecycle := first } := by
        show merged r.cap (clampLifecycle (some r) cap).stored = _
        rw [hfirst]
        rfl
      rw [hsecond]
      show merged row.cap { cap.stored with lifecycle := second } = row.cap
      rw [hrow]
      refine merged_again ?_
      rw [← hrow]
      by_cases happroved : row.cap.approvalState = .approved
      · exact .inl happroved
      right
      -- The row is not approved, so it has the lifecycle of the first clamp.
      have hlifecycle : row.cap.lifecycle = first := by
        rw [hrow] at happroved ⊢
        show (if decide (r.cap.contentHash = cap.contentHash) && r.cap.approvalState = .approved then
          r.cap.lifecycle else first) = first
        split
        · rename_i hkept
          simp only [Bool.and_eq_true, decide_eq_true_eq] at hkept
          exact absurd (by simp [merged, mergeState, Capability.stored, hkept]) happroved
        · rfl
      have hfirstCases := clamp_lifecycle_cases r cap
      have hchosen : (clampLifecycle (some row) cap).lifecycle = second := by rw [hsecond]
      rw [hfirst] at hfirstCases
      rw [hlifecycle, ← hchosen]
      unfold clampLifecycle
      dsimp only
      split
      · exact hlifecycle
      · rename_i hkept
        rcases hfirstCases with hsame | hinvalid
        · exact hsame.symm
        · have hhash : row.cap.contentHash = cap.contentHash := by rw [hrow]; rfl
          rw [hlifecycle, hhash] at hkept
          dsimp only at hinvalid
          by_contra hne
          exact hkept (by simp [hinvalid, Ne.symm hne])
/-- What a built-in capability needs to be upserted. -/
def Upsertable (p : Platform) (cap : Capability) : Prop :=
  cap.riskTier ≠ .unset ∧ ∃ expected, capabilitySourceRows p cap = .ok expected

/-- The clamp reaches neither the source rows nor the risk tier. -/
theorem upsertable_clamp (existing : Option CapabilityRow) (cap : Capability) :
    Upsertable p (clampLifecycle existing cap) ↔ Upsertable p cap := by
  obtain ⟨lifecycle, heq⟩ := clamp_lifecycle_eq existing cap
  unfold Upsertable
  rw [heq, show capabilitySourceRows p { cap with lifecycle } = capabilitySourceRows p cap from
    capability_source_rows_congr rfl rfl rfl rfl]

theorem upsert_builtin_ok (hsystem : cap.sourceKind = "system_capability")
    (h : upsertCapability p db cap = .ok (id, next)) :
    Upsertable p cap ∧
    (∀ x, x ∈ next.capabilities ↔ x = ⟨id, written (db.capabilityAt cap.uri)
        (clampLifecycle (db.capabilityAt cap.uri) cap)⟩ ∨
      (x ∈ db.capabilities ∧ x.cap.uri ≠ cap.uri)) ∧
    next = { db with
      capabilities := next.capabilities, sources := next.sources, fts := next.fts } := by
  obtain ⟨table, expected, hwrite, hexpected, hrisk, rfl⟩ := upsert_capability_ok h
  have hincoming : incoming p db cap = clampLifecycle (db.capabilityAt cap.uri) cap :=
    incoming_of_governed (system_governed hsystem)
  obtain ⟨hmem, -, -⟩ := write_row_ok hwrite
  obtain ⟨lifecycle, heq⟩ := clamp_lifecycle_eq (db.capabilityAt cap.uri) cap
  have huri : (incoming p db cap).uri = cap.uri := by rw [hincoming, heq]
  rw [hincoming] at hrisk hexpected
  refine ⟨(upsertable_clamp _ cap).mp ⟨hrisk, expected, hexpected⟩, fun x => ?_, rfl⟩
  rw [hmem, huri, hincoming]

theorem upsert_builtins_ok (hsystem : ∀ cap ∈ caps, cap.sourceKind = "system_capability")
    (huris : caps.Pairwise fun a b => a.uri ≠ b.uri) (h : upsertBuiltins p db caps = .ok result) :
    (∀ cap ∈ caps, Upsertable p cap) ∧ result.Initialized caps ∧
    (∀ x ∈ result.capabilities,
      x ∈ db.capabilities ∨ x.cap.sourceKind = "system_capability") ∧
    (∀ x ∈ db.capabilities, (∀ cap ∈ caps, cap.uri ≠ x.cap.uri) → x ∈ result.capabilities) ∧
    result = { db with
      capabilities := result.capabilities, sources := result.sources, fts := result.fts } := by
  induction caps generalizing db with
  | nil =>
      cases h
      exact ⟨by simp, by simp [Database.Initialized], fun x hx => .inl hx, fun x hx _ => hx, rfl⟩
  | cons cap caps ih =>
      unfold upsertBuiltins at h
      obtain ⟨⟨id, next⟩, hnext, h⟩ := bind_eq_ok h
      obtain ⟨hother, huris⟩ := List.pairwise_cons.mp huris
      have hkind := hsystem cap List.mem_cons_self
      obtain ⟨hcap, hmem, hrest⟩ := upsert_builtin_ok hkind hnext
      obtain ⟨hcaps, hinit, hfrom, hkept, hresult⟩ :=
        ih (fun other hmem => hsystem other (List.mem_cons_of_mem cap hmem)) huris h
      have hagain := written_again (db.capabilityAt cap.uri) cap id
      generalize hrow : (⟨id, written (db.capabilityAt cap.uri)
        (clampLifecycle (db.capabilityAt cap.uri) cap)⟩ : CapabilityRow) = row at hmem hagain
      obtain ⟨lifecycle, heq⟩ := clamp_lifecycle_eq (db.capabilityAt cap.uri) cap
      have hrowUri : row.cap.uri = cap.uri ∧ row.cap.sourceKind = "system_capability" := by
        rw [← hrow, heq]
        cases db.capabilityAt cap.uri <;> exact ⟨rfl, hkind⟩
      refine ⟨fun other hin => ?_, fun other hin => ?_, fun x hx => ?_, fun x hx hxUris => ?_, ?_⟩
      · rcases List.mem_cons.mp hin with rfl | hin
        · exact hcap
        · exact hcaps other hin
      · rcases List.mem_cons.mp hin with rfl | hin
        · have hstands : row ∈ result.capabilities := by
            refine hkept row ((hmem row).mpr (.inl rfl)) fun later hlater => ?_
            rw [hrowUri.1]
            exact (hother later hlater).symm
          exact ⟨row, hstands, hrowUri.1, hrowUri.2, hagain⟩
        · exact hinit other hin
      · rcases hfrom x hx with hx | hx
        · rcases (hmem x).mp hx with rfl | ⟨hx, -⟩
          · exact .inr hrowUri.2
          · exact .inl hx
        · exact .inr hx
      · refine hkept x ((hmem x).mpr (.inr ⟨hx, ?_⟩)) fun other hin =>
          hxUris other (List.mem_cons_of_mem cap hin)
        exact (hxUris cap List.mem_cons_self).symm
      · rw [hresult, hrest]

/-- A catalog on which `init_db` ran: every builtin is written as an upsert would write it again,
and every row that is not a system capability is governed. -/
structure Database.InitializedBy (p : Platform) (db : Database) (builtins : Builtins) : Prop where
  upsertable : ∀ cap ∈ builtins.capabilities, Upsertable p cap
  written : db.Initialized builtins.capabilities
  governed : ∀ row ∈ db.capabilities, row.cap.sourceKind ≠ "system_capability" → row.cap.Governed

/-- What `init_db` leaves. -/
theorem init_db_ok {builtins : Builtins} (h : initDb p builtins.capabilities db = .ok result) :
    result.InitializedBy p builtins := by
  unfold initDb at h
  obtain ⟨⟨changed, normalized⟩, hnormalize, h⟩ := bind_eq_ok h
  obtain ⟨-, -, hgoverned, -⟩ := normalize_existing_ok hnormalize
  obtain ⟨hupsertable, hwritten, hfrom, -, -⟩ :=
    upsert_builtins_ok builtins.system builtins.uris h
  refine ⟨hupsertable, hwritten, fun row hrow hkind => ?_⟩
  rcases hfrom row hrow with hrow | hsystem
  · exact hgoverned row hrow hkind
  · exact absurd hsystem hkind

theorem normalize_all_governed {rows : List CapabilityRow}
    (h : ∀ row ∈ rows, row.cap.Governed) : normalizeAll p db rows = .ok (0, db) := by
  induction rows with
  | nil => rfl
  | cons row rows ih =>
      have hrow : normalizeRow p db row = .ok (0, db) := by
        unfold normalizeRow
        dsimp only
        rw [if_pos (apply_default_of_governed (h row List.mem_cons_self))]
      unfold normalizeAll
      rw [hrow]
      show (normalizeAll p db rows >>= fun result => .ok (0 + result.1, result.2)) = _
      rw [ih fun other hin => h other (List.mem_cons_of_mem row hin)]
      rfl

theorem upsert_builtin_again (hsystem : cap.sourceKind = "system_capability")
    (hcap : Upsertable p cap) (hrow : row ∈ db.capabilities) (huri : row.cap.uri = cap.uri)
    (hwritten : written (some row) (clampLifecycle (some row) cap) = row.cap) :
    ∃ id next, upsertCapability p db cap = .ok (id, next) ∧ db.SameRows next := by
  have hat : db.capabilityAt cap.uri = some row := by
    rw [← huri]
    exact Database.capability_at_eq hrow
  have hincoming : incoming p db cap = clampLifecycle (some row) cap := by
    rw [← hat]
    exact incoming_of_governed (system_governed hsystem)
  obtain ⟨hrisk, expected, hexpected⟩ := (upsertable_clamp (some row) cap).mpr hcap
  obtain ⟨lifecycle, heq⟩ := clamp_lifecycle_eq (some row) cap
  -- The statement addresses the one row, and writes what it has.
  have hsame : db.capabilities.update? (fun other =>
      if other.id = row.id && changes row.cap (clampLifecycle (some row) cap).stored then
        { other with cap := merged row.cap (clampLifecycle (some row) cap).stored }
      else other) = some db.capabilities := by
    refine Table.update?_eq_self fun x hx => ?_
    split
    · rename_i hchanges
      simp only [Bool.and_eq_true, decide_eq_true_eq] at hchanges
      rw [Database.eq_of_id hx hrow hchanges.1]
      exact congrArg (CapabilityRow.mk row.id) hwritten
    · rfl
  have hwrite : writeRow db (clampLifecycle (some row) cap) = .ok (row.id, db.capabilities) := by
    unfold writeRow
    rw [show (clampLifecycle (some row) cap).uri = cap.uri by rw [heq], hat]
    simp only [hsame, constrained]
    rfl
  refine ⟨row.id, { db with
    sources := syncSources db.sources (clampLifecycle (some row) cap).uri expected
    fts := syncFts db.fts ((clampLifecycle (some row) cap).ftsRow row.id) }, ?_, rfl⟩
  unfold upsertCapability
  dsimp only
  rw [hincoming, if_neg hrisk, hwrite]
  simp only [hexpected, bind, Except.bind]

/-- The builtins that are written already change no row. -/
theorem upsert_builtins_again (hsystem : ∀ cap ∈ caps, cap.sourceKind = "system_capability")
    (hcaps : ∀ cap ∈ caps, Upsertable p cap) (hinit : db.Initialized caps) :
    ∃ result, upsertBuiltins p db caps = .ok result ∧ db.SameRows result := by
  induction caps generalizing db with
  | nil => exact ⟨db, rfl, rfl⟩
  | cons cap caps ih =>
      obtain ⟨row, hrow, huri, -, hwritten⟩ := hinit cap List.mem_cons_self
      obtain ⟨id, next, hnext, hsame⟩ := upsert_builtin_again (hsystem cap List.mem_cons_self)
        (hcaps cap List.mem_cons_self) hrow huri hwritten
      have hcapabilities : next.capabilities = db.capabilities := by rw [hsame]
      have hnextInit : next.Initialized caps := by
        intro other hin
        rw [hcapabilities]
        exact hinit other (List.mem_cons_of_mem cap hin)
      obtain ⟨result, hresult, hrest⟩ := ih
        (fun other hin => hsystem other (List.mem_cons_of_mem cap hin))
        (fun other hin => hcaps other (List.mem_cons_of_mem cap hin)) hnextInit
      refine ⟨result, ?_, ?_⟩
      · unfold upsertBuiltins
        rw [hnext]
        exact hresult
      · unfold Database.SameRows at hsame hrest ⊢
        rw [hrest, hsame]

/-- A second run of `init_db` succeeds and writes nothing but source and full-text rows. -/
theorem init_db_again {builtins : Builtins} (h : db.InitializedBy p builtins) :
    ∃ result, initDb p builtins.capabilities db = .ok result ∧ db.SameRows result := by
  have hnormalize : normalizeExistingCapabilityNamespaces p db = .ok (0, db) := by
    refine normalize_all_governed fun row hrow => ?_
    obtain ⟨hrow, hkind⟩ := List.mem_filter.mp hrow
    exact h.governed row hrow (by simpa using hkind)
  obtain ⟨result, hresult, hsame⟩ :=
    upsert_builtins_again builtins.system h.upsertable h.written
  refine ⟨result, ?_, hsame⟩
  unfold initDb
  rw [hnormalize]
  exact hresult

end

end Capmesh
