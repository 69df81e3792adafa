import Capmesh.Index.Generation
import Capmesh.Python.Delimited
import Capmesh.Router.Admitted

/-!
# Catalogs with one generation

Whether the generation of a catalog tells which rows it has. `_catalog_generation` puts the columns
of a row in a line as they are, and the URI of a row may come out of a `cap.json` with tabs and
newlines in it. `line_or_begins` is the step through two texts that are equal: their first lines are
the same, unless a URI of the one begins with the line of the other. `catalog_generation_iff` is
about the catalogs that ingests make of files that bring no such URI.
-/

namespace Capmesh

open Python Relational

/-- A text that shows in a line where it ends. -/
def IsColumn (text : String) : Prop := '\t' ∉ text.toList ∧ '\n' ∉ text.toList

/-- What stands behind the URI in the line of a row. -/
def Fingerprint.rest (columns : Fingerprint) : List Char :=
  '\t' :: columns.contentHash.toList ++ '\t' :: columns.approvalState.text.toList ++
    '\t' :: columns.shareState.text.toList

/-- An approval state of the vocabulary. -/
def ApprovalState.Named (state : ApprovalState) : Prop := ∀ text, state ≠ .other text

/-- A share state of the vocabulary. -/
def ShareState.Named (state : ShareState) : Prop := ∀ text, state ≠ .other text

/-- Columns as an ingest writes them, at some URI: a digest and two states of the vocabulary. -/
structure Fingerprint.Stamped (p : Platform) (columns : Fingerprint) : Prop where
  digest : ∃ bytes, columns.contentHash = fileDigest p bytes
  approvalState : columns.approvalState.Named
  shareState : columns.shareState.Named

/-- A URI that begins with no line of a row. -/
def LineFree (p : Platform) (uri : String) : Prop :=
  ∀ columns : Fingerprint, columns.Stamped p → ∀ back, uri ≠ columns.line ++ back

/-- The columns of a row whose line is read back. -/
structure Fingerprint.Plain (p : Platform) (columns : Fingerprint) : Prop where
  stamped : columns.Stamped p
  uri : LineFree p columns.uri

/-- A batch that is filed at URIs that begin with no line of a row. -/
def PlainBatch (p : Platform) (db : Database) (input : IngestInput p) : Prop :=
  ∀ cap ∈ input.batch.capabilities, LineFree p (effective p input.placement db.capabilities cap).uri

/-- The catalogs that ingests make: `init_db` opens the database, and each ingest takes what the
guards admit of the files under its roots. -/
inductive Ingested (p : Platform) (builtins : List Capability)
    (Allowed : Database → IngestInput p → Prop) : Database → Prop
  | create {db : Database} (h : initDb p builtins .empty = .ok db) :
      Ingested p builtins Allowed db
  | reopen {db result : Database} (hdb : Ingested p builtins Allowed db)
      (h : initDb p builtins db = .ok result) : Ingested p builtins Allowed result
  | ingest {db result : Database} {host : DiscoveryHost} {fs : FileSystem}
      {files : List SourceText} {roots : List String} {input : IngestInput p} {changes : Changes}
      (hdb : Ingested p builtins Allowed db)
      (hadmitted : AdmittedFrom p host fs files roots db input.batch.capabilities)
      (hallowed : Allowed db input) (h : ingest p db input = (result, .ok changes)) :
      Ingested p builtins Allowed result

/-- A built-in capability as `builtin_system_capabilities` makes it, under a tenant whose name
begins with no line of a row. -/
structure PlainBuiltin (p : Platform) (cap : Capability) : Prop where
  addressed : isAddressed cap.uri = true
  system : cap.sourceKind = "system_capability"
  plain : cap.fingerprint.Plain p

/-- A catalog at governed addresses whose lines are read back. -/
structure Database.PlainRows (p : Platform) (db : Database) : Prop where
  normalized : db.Normalized
  plain : ∀ row ∈ db.capabilities, row.cap.fingerprint.Plain p

section

variable {p : Platform} {db left right result : Database} {columns other : Fingerprint}
variable {cap : Capability} {builtins : List Capability}

theorem line_to_list (columns : Fingerprint) :
    columns.line.toList = columns.uri.toList ++ columns.rest ++ ['\n'] := by
  simp [Fingerprint.line, Fingerprint.rest, join]

theorem ApprovalState.Named.column {state : ApprovalState} (h : state.Named) :
    IsColumn state.text := by
  cases state with
  | other text => exact absurd rfl (h text)
  | _ => exact ⟨by decide, by decide⟩

theorem ShareState.Named.column {state : ShareState} (h : state.Named) :
    IsColumn state.text := by
  cases state with
  | other text => exact absurd rfl (h text)
  | _ => exact ⟨by decide, by decide⟩

theorem ApprovalState.Named.eq_of_text {a b : ApprovalState} (ha : a.Named) (hb : b.Named)
    (h : a.text = b.text) : a = b := by
  cases a with
  | other text => exact absurd rfl (ha text)
  | _ =>
      cases b with
      | other text => exact absurd rfl (hb text)
      | _ => first | rfl | exact absurd h (by decide)

theorem ShareState.Named.eq_of_text {a b : ShareState} (ha : a.Named) (hb : b.Named)
    (h : a.text = b.text) : a = b := by
  cases a with
  | other text => exact absurd rfl (ha text)
  | _ =>
      cases b with
      | other text => exact absurd rfl (hb text)
      | _ => first | rfl | exact absurd h (by decide)

/-- The columns of a line that are not its URI show where they end. -/
theorem Fingerprint.Stamped.are_columns (h : columns.Stamped p)
    (hdigest : ∀ bytes, IsColumn (p.sha256 bytes)) :
    IsColumn columns.contentHash ∧ IsColumn columns.approvalState.text ∧
      IsColumn columns.shareState.text := by
  refine ⟨?_, h.approvalState.column, h.shareState.column⟩
  obtain ⟨bytes, hbytes⟩ := h.digest
  obtain ⟨htab, hnewline⟩ := hdigest bytes
  have hname : IsColumn "sha256:" := ⟨by decide, by decide⟩
  rw [hbytes]
  unfold fileDigest IsColumn
  simp only [String.toList_append, List.mem_append, not_or]
  exact ⟨⟨hname.1, htab⟩, hname.2, hnewline⟩

theorem Fingerprint.Stamped.rest_no_newline (h : columns.Stamped p)
    (hdigest : ∀ bytes, IsColumn (p.sha256 bytes)) : '\n' ∉ columns.rest := by
  obtain ⟨hhash, happroval, hshare⟩ := h.are_columns hdigest
  unfold Fingerprint.rest
  simp [hhash.2, happroval.2, hshare.2]

/-- A line is read back from its end: behind the URI there are three columns. -/
theorem columns_of_line (h : columns.Stamped p) (hother : other.Stamped p)
    (hdigest : ∀ bytes, IsColumn (p.sha256 bytes))
    (heq : columns.uri.toList ++ columns.rest = other.uri.toList ++ other.rest) :
    columns = other := by
  obtain ⟨hhash, happroval, hshare⟩ := h.are_columns hdigest
  obtain ⟨hhash', happroval', hshare'⟩ := hother.are_columns hdigest
  unfold Fingerprint.rest at heq
  simp only [← List.append_assoc] at heq
  obtain ⟨heq, hshareEq⟩ := append_cons_inj_last hshare.1 hshare'.1 heq
  obtain ⟨heq, happrovalEq⟩ := append_cons_inj_last happroval.1 happroval'.1 heq
  obtain ⟨huriEq, hhashEq⟩ := append_cons_inj_last hhash.1 hhash'.1 heq
  cases columns
  cases other
  congr 1
  · exact String.toList_injective huriEq
  · exact String.toList_injective hhashEq
  · exact h.approvalState.eq_of_text hother.approvalState (String.toList_injective happrovalEq)
  · exact h.shareState.eq_of_text hother.shareState (String.toList_injective hshareEq)

/-- The fingerprints of a catalog in the order of its generation. -/
def Database.sortedFingerprints (db : Database) : List Fingerprint :=
  (db.capabilities.rows.map (·.cap.fingerprint)).insertionSort fun a b => a.uri ≤ b.uri

theorem mem_sorted_fingerprints : columns ∈ db.sortedFingerprints ↔
    ∃ row ∈ db.capabilities, row.cap.fingerprint = columns := by
  unfold Database.sortedFingerprints
  rw [List.mem_insertionSort, List.mem_map]
  rfl

theorem nil_intercalate {α : Type} (parts : List (List α)) :
    [].intercalate parts = parts.flatten := by
  induction parts with
  | nil => rfl
  | cons part parts ih =>
      cases parts with
      | nil => rfl
      | cons next parts => rw [List.intercalate_cons_cons, ih]; simp

theorem generation_text_to_list (db : Database) :
    db.generationText.toList = db.sortedFingerprints.flatMap fun columns =>
      columns.uri.toList ++ columns.rest ++ ['\n'] := by
  show (join "" (db.sortedFingerprints.map Fingerprint.line)).toList = _
  rw [join_to_list, List.map_map]
  have hlines : String.toList ∘ Fingerprint.line = fun columns =>
      columns.uri.toList ++ columns.rest ++ ['\n'] := funext line_to_list
  rw [hlines, List.flatMap_def]
  exact nil_intercalate _

/-- A URI that begins with no line begins with no line of a row that an ingest writes. -/
theorem LineFree.ne {uri : String} (h : LineFree p uri) (hcolumns : columns.Stamped p)
    (back : List Char) : uri.toList ≠ columns.uri.toList ++ columns.rest ++ '\n' :: back := by
  intro heq
  refine h columns hcolumns (String.ofList back) (String.toList_injective ?_)
  rw [heq, String.toList_append, line_to_list, String.toList_ofList]
  simp

/-- Two catalogs with one generation text have the same rows, where no URI of the one begins with
a line of the other. -/
theorem same_rows_of_text (hdigest : ∀ bytes, IsColumn (p.sha256 bytes))
    (hleft : left.PlainRows p) (hright : right.PlainRows p)
    (heq : left.generationText = right.generationText) : SameFingerprints left right := by
  have hplain : ∀ {db : Database}, db.PlainRows p → ∀ columns ∈ db.sortedFingerprints,
      columns.Plain p := by
    intro db hdb columns hcolumns
    obtain ⟨row, hrow, rfl⟩ := mem_sorted_fingerprints.mp hcolumns
    exact hdb.plain row hrow
  have hchars := congrArg String.toList heq
  rw [generation_text_to_list, generation_text_to_list] at hchars
  have hlines := headed_lines_inj '\n'
    (left.sortedFingerprints.map fun columns => (columns.uri.toList, columns.rest))
    (right.sortedFingerprints.map fun columns => (columns.uri.toList, columns.rest))
    (List.forall_mem_map.mpr fun columns hcolumns =>
      (hplain hleft columns hcolumns).stamped.rest_no_newline hdigest)
    (List.forall_mem_map.mpr fun columns hcolumns =>
      (hplain hright columns hcolumns).stamped.rest_no_newline hdigest)
    (List.forall_mem_map.mpr fun columns hcolumns =>
      List.forall_mem_map.mpr fun other hother back =>
        ⟨(hplain hright other hother).uri.ne (hplain hleft columns hcolumns).stamped back,
          (hplain hleft columns hcolumns).uri.ne (hplain hright other hother).stamped back⟩)
    (by simpa only [List.flatMap_map] using hchars)
  simp only [List.map_map] at hlines
  -- A line of the one catalog is a line of the other, and a line has its columns.
  have hmem : ∀ {db db' : Database}, db.PlainRows p → db'.PlainRows p →
      db.sortedFingerprints.map (fun columns => columns.uri.toList ++ columns.rest) =
        db'.sortedFingerprints.map (fun columns => columns.uri.toList ++ columns.rest) →
      ∀ columns ∈ db.sortedFingerprints, columns ∈ db'.sortedFingerprints := by
    intro db db' hdb hdb' hsame columns hcolumns
    have hline := List.mem_map_of_mem (f := fun columns : Fingerprint =>
      columns.uri.toList ++ columns.rest) hcolumns
    rw [hsame] at hline
    obtain ⟨other, hother, hotherLine⟩ := List.mem_map.mp hline
    rw [columns_of_line (hplain hdb columns hcolumns).stamped (hplain hdb' other hother).stamped
      hdigest hotherLine.symm]
    exact hother
  intro columns
  rw [← mem_sorted_fingerprints, ← mem_sorted_fingerprints]
  exact ⟨hmem hright hleft hlines.symm columns, hmem hleft hright hlines columns⟩

/-- What an upsert writes has the digest of what it is given, and states of the vocabulary. -/
theorem written_stamped {existing : Option CapabilityRow}
    (hexisting : ∀ row, existing = some row → row.cap.fingerprint.Stamped p)
    (hcap : cap.fingerprint.Stamped p) : (written existing cap).fingerprint.Stamped p := by
  cases existing with
  | none => exact ⟨hcap.digest, hcap.approvalState, hcap.shareState⟩
  | some row =>
      have hrow := hexisting row rfl
      refine ⟨hcap.digest, ?_, ?_⟩
      · show (mergeState .approved .pending _ row.cap.approvalState cap.approvalState).Named
        unfold mergeState
        split
        · exact hrow.approvalState
        · split
          · exact fun text h => by cases h
          · exact hcap.approvalState
      · show (mergeState .shared .notShared _ row.cap.shareState cap.shareState).Named
        unfold mergeState
        split
        · exact hrow.shareState
        · split
          · exact fun text h => by cases h
          · exact hcap.shareState

theorem indexed_stamped {previous : Option CapabilityRow} {e : Capability} (held : Bool)
    (hprevious : ∀ row, previous = some row → row.cap.fingerprint.Stamped p)
    (he : e.fingerprint.Stamped p) : (indexed held previous e).fingerprint.Stamped p := by
  have hcarry : (carryOver previous e).fingerprint.Stamped p := by
    unfold carryOver
    split
    · split <;> exact ⟨he.digest, he.approvalState, he.shareState⟩
    · exact he
  have hheld : (holdDowngrade held (carryOver previous e)).fingerprint.Stamped p := by
    unfold holdDowngrade
    split
    · exact ⟨hcarry.digest, fun text h => (nomatch h), hcarry.shareState⟩
    · exact hcarry
  unfold indexed
  dsimp only
  refine written_stamped (fun row hrow => ?_) ?_
  · obtain ⟨old, hold, rfl⟩ := Option.map_eq_some_iff.mp hrow
    obtain ⟨hdigest, happroval, hshare⟩ := hprevious old hold
    exact ⟨hdigest, happroval, hshare⟩
  · obtain ⟨lifecycle, heq⟩ := clamp_lifecycle_eq
      (previous.map (·.moved (carryOver previous e).uri)) (holdDowngrade held (carryOver previous e))
    rw [heq]
    exact ⟨hheld.digest, hheld.approvalState, hheld.shareState⟩

theorem place_in_vault_stamped (vault : Vault) (h : cap.fingerprint.Stamped p) :
    (placeInVault p cap vault).fingerprint.Stamped p := by
  unfold placeInVault
  dsimp only
  split
  · exact ⟨h.digest, h.approvalState, h.shareState⟩
  · exact ⟨h.digest, fun text h => (nomatch h), fun text h => (nomatch h)⟩

theorem apply_default_stamped (h : cap.fingerprint.Stamped p) :
    (applyDefaultUserNamespace p cap).fingerprint.Stamped p := by
  unfold applyDefaultUserNamespace
  split
  · exact h
  · dsimp only
    split
    · exact ⟨h.digest, h.approvalState, h.shareState⟩
    · unfold Capability.fingerprint
      dsimp only
      refine ⟨h.digest, ?_, h.shareState⟩
      dsimp only
      split
      · exact fun text h => (nomatch h)
      · exact h.approvalState

/-- A placement keeps the digest and sets no state outside the vocabulary. -/
theorem effective_stamped (index : PlacementIndex) (catalog : Table CapabilityRow)
    (h : cap.fingerprint.Stamped p) :
    (effective p index catalog cap).fingerprint.Stamped p := by
  unfold effective
  rw [apply_vault_placement_eq]
  cases placedVault p index catalog cap with
  | some vault => exact place_in_vault_stamped vault h
  | none => exact apply_default_stamped h

/-- What the guards admit has the digest of its file and the states that discovery gives it. -/
theorem admitted_stamped {host : DiscoveryHost} {fs : FileSystem} {files : List SourceText}
    {roots : List String} {batch : List Capability}
    (hadmitted : AdmittedFrom p host fs files roots db batch) (hcap : cap ∈ batch) :
    cap.fingerprint.Stamped p := by
  obtain ⟨merged, hmerged, hguard⟩ := hadmitted.admitted
  rcases guard_batch_subset hguard cap hcap with hnone | hmem
  · exact absurd hnone List.not_mem_nil
  obtain ⟨preferred, hpreferred, -, ambiguous, rfl⟩ := merge_duplicates_ok hmerged hmem
  obtain ⟨file, -, hfound⟩ := List.mem_filterMap.mp hpreferred
  obtain ⟨-, -, hhash, -, hshare⟩ := discovered_labels hfound
  refine ⟨⟨file.bytes, hhash⟩, fun text h => ?_, fun text h => ?_⟩
  · have hsame : preferred.approvalState = .other text := h
    rw [(discovered_as_discovered hfound).approvalState] at hsame
    cases hsame
  · have hsame : preferred.shareState = .other text := h
    rw [hshare] at hsame
    cases hsame

/-- A catalog keeps its lines when each row is a row as it was, up to columns that are not in its
line, or has a plain line. -/
theorem Database.PlainRows.of_rows (hnormalized : result.Normalized)
    (hrows : ∀ x ∈ result.capabilities, (∃ y ∈ db.capabilities,
      x.cap.fingerprint = y.cap.fingerprint) ∨ x.cap.fingerprint.Plain p)
    (h : db.PlainRows p) : result.PlainRows p := by
  refine ⟨hnormalized, fun x hx => ?_⟩
  rcases hrows x hx with ⟨y, hy, hsame⟩ | hplain
  · rw [hsame]
    exact h.plain y hy
  · exact hplain

theorem Landing.plain_rows {e : Capability} {row : CapabilityRow}
    (hlanding : Landing p db result e row) (haddressed : isAddressed e.uri = true)
    (he : e.fingerprint.Plain p) (h : db.PlainRows p) : result.PlainRows p := by
  refine .of_rows (hlanding.normalized h.normalized haddressed) (fun x hx => ?_) h
  rcases (hlanding.mem x).mp hx with rfl | ⟨hx, -⟩
  · right
    have hprevious : ∀ old, previousRow db e = some old → old.cap.fingerprint.Plain p :=
      fun old hold => h.plain old (previous_row_mem hold)
    refine ⟨?_, ?_⟩
    · rw [hlanding.columns]
      have hstamped := indexed_stamped (capguardIsHeld db.quarantine
        (carryOver (previousRow db e) e)) (fun old hold => (hprevious old hold).stamped) he.stamped
      exact ⟨hstamped.digest, hstamped.approvalState, hstamped.shareState⟩
    · -- The row is at the URI of the capability, or at that of the promotion it refreshes.
      show LineFree p x.cap.uri
      rw [hlanding.indexedColumns.uri]
      unfold carryOver
      split
      · rename_i old hold
        split
        · exact (hprevious old hold).uri
        · exact he.uri
      · exact he.uri
  · exact .inl ⟨x, hx, rfl⟩

theorem ingest_plain_rows {host : DiscoveryHost} {fs : FileSystem} {files : List SourceText}
    {roots : List String} {input : IngestInput p} {changes : Changes}
    (hadmitted : AdmittedFrom p host fs files roots db input.batch.capabilities)
    (hbatch : PlainBatch p db input) (h : ingest p db input = (result, .ok changes))
    (hdb : db.PlainRows p) : result.PlainRows p := by
  obtain ⟨held, counts, planned, final, removed, -, hadded, hplan, hindex, hdelete, -⟩ :=
    ingest_ok h
  have hplanned := plan_ok hplan
  have hplain : ∀ e ∈ planned, e.fingerprint.Plain p := by
    intro e he
    obtain ⟨cap, hcap, metadata, rfl⟩ := plan_origin hplan he
    have hstamped := effective_stamped input.placement db.capabilities
      (admitted_stamped hadmitted hcap)
    exact ⟨⟨hstamped.digest, hstamped.approvalState, hstamped.shareState⟩, hbatch cap hcap⟩
  have hheld : held.PlainRows p :=
    .of_rows (normalized_holds_added hdb.normalized hadded)
      (fun x hx => .inl ⟨x, hadded.capabilities ▸ hx, rfl⟩) hdb
  have hfinal : final.db.PlainRows p := by
    refine index_all_induction (motive := fun _ current => current.db.PlainRows p) hplanned
      hheld ?_ hindex
    intro done e rest current next row hsplit hcurrent hnext hlanding
    have he : e ∈ planned := by
      rw [hsplit]
      simp
    exact hlanding.plain_rows (hplanned.addressed he) (hplain e he) hcurrent
  have hretired := delete_source_orphaned_ok hdelete
  exact .of_rows (fun x hx => hfinal.normalized x ((hretired.mem_iff x).mp hx).1)
    (fun x hx => .inl ⟨x, ((hretired.mem_iff x).mp hx).1, rfl⟩) hfinal

theorem upsert_builtin_plain_rows {id : Nat} (hcap : PlainBuiltin p cap)
    (h : upsertCapability p db cap = .ok (id, result)) (hdb : db.PlainRows p) :
    result.PlainRows p := by
  obtain ⟨table, expected, hwrite, -, -, rfl⟩ := upsert_capability_ok h
  obtain ⟨hmem, -, -⟩ := write_row_ok hwrite
  have hincoming : incoming p db cap = _ :=
    incoming_of_governed (system_governed hcap.system)
  obtain ⟨lifecycle, hclamp⟩ := clamp_lifecycle_eq (db.capabilityAt cap.uri) cap
  rw [hclamp] at hincoming
  rw [hincoming] at hmem
  have huri : (written (db.capabilityAt cap.uri) { cap with lifecycle }).uri = cap.uri := by
    cases db.capabilityAt cap.uri <;> rfl
  have hplain : (written (db.capabilityAt cap.uri)
      { cap with lifecycle }).fingerprint.Plain p := by
    refine ⟨written_stamped (fun row hrow => ?_) ?_, ?_⟩
    · exact (hdb.plain row (Database.capability_at_some hrow).1).stamped
    · have hstamped := hcap.plain.stamped
      exact ⟨hstamped.digest, hstamped.approvalState, hstamped.shareState⟩
    · show LineFree p (written (db.capabilityAt cap.uri) { cap with lifecycle }).uri
      rw [huri]
      exact hcap.plain.uri
  refine .of_rows (fun x hx => ?_) (fun x hx => ?_) hdb
  · rcases (hmem x).mp hx with rfl | ⟨hx, -⟩
    · show isAddressed (written (db.capabilityAt cap.uri) { cap with lifecycle }).uri = true
      rw [huri]
      exact hcap.addressed
    · exact hdb.normalized x hx
  · rcases (hmem x).mp hx with rfl | ⟨hx, -⟩
    · exact .inr hplain
    · exact .inl ⟨x, hx, rfl⟩

theorem upsert_builtins_plain_rows (hbuiltins : ∀ cap ∈ builtins, PlainBuiltin p cap)
    (h : upsertBuiltins p db builtins = .ok result) (hdb : db.PlainRows p) :
    result.PlainRows p := by
  induction builtins generalizing db with
  | nil =>
      cases h
      exact hdb
  | cons cap builtins ih =>
      unfold upsertBuiltins at h
      obtain ⟨⟨id, next⟩, hnext, h⟩ := bind_eq_ok h
      exact ih (fun other hother => hbuiltins other (List.mem_cons_of_mem cap hother)) h
        (upsert_builtin_plain_rows (hbuiltins cap List.mem_cons_self) hnext hdb)

/-- `init_db` on a catalog at governed addresses. -/
theorem init_db_plain_rows (hbuiltins : ∀ cap ∈ builtins, PlainBuiltin p cap)
    (h : initDb p builtins db = .ok result)
    (hdb : db.PlainRows p) : result.PlainRows p := by
  unfold initDb at h
  obtain ⟨⟨changed, normalized⟩, hnormalize, h⟩ := bind_eq_ok h
  refine upsert_builtins_plain_rows hbuiltins h ?_
  have hids : (db.capabilities.rows.filter (·.cap.sourceKind ≠ "system_capability")).Pairwise
      fun a b => a.id ≠ b.id :=
    (db.capabilities.unique.imp fun hconflict hid => hconflict (.inl hid)).filter _
  have hsame : SameFingerprints db normalized :=
    normalize_all_in_place (fun row hrow => ⟨(List.mem_filter.mp hrow).1,
      hdb.normalized row (List.mem_filter.mp hrow).1⟩) hids hnormalize
  have hrows : ∀ x ∈ normalized.capabilities, ∃ y ∈ db.capabilities,
      x.cap.fingerprint = y.cap.fingerprint := by
    intro x hx
    obtain ⟨y, hy, hxy⟩ := (hsame _).mp ⟨x, hx, rfl⟩
    exact ⟨y, hy, hxy.symm⟩
  refine .of_rows (fun x hx => ?_) (fun x hx => .inl (hrows x hx)) hdb
  obtain ⟨y, hy, hxy⟩ := hrows x hx
  rw [show x.cap.uri = y.cap.uri from congrArg Fingerprint.uri hxy]
  exact hdb.normalized y hy

theorem Ingested.plain_rows (hbuiltins : ∀ cap ∈ builtins, PlainBuiltin p cap)
    (h : Ingested p builtins (PlainBatch p) db) : db.PlainRows p := by
  induction h with
  | create hinit =>
      refine init_db_plain_rows hbuiltins hinit ⟨fun row hrow => ?_, fun row hrow => ?_⟩
      · exact absurd hrow (Table.not_mem_empty row)
      · exact absurd hrow (Table.not_mem_empty row)
  | reopen _ hinit ih => exact init_db_plain_rows hbuiltins hinit ih
  | ingest _ hadmitted hallowed hingest ih => exact ingest_plain_rows hadmitted hallowed hingest ih

/-- **The generation of a catalog identifies its rows, where no ingested URI begins with the line
of a row.** -/
theorem catalog_generation_iff {builtins : List Capability}
    (hdigest : ∀ bytes, IsColumn (p.sha256 bytes))
    (hbuiltins : ∀ cap ∈ builtins, PlainBuiltin p cap)
    (hleft : Ingested p builtins (PlainBatch p) left)
    (hright : Ingested p builtins (PlainBatch p) right)
    (hcollision : p.sha256Text left.generationText = p.sha256Text right.generationText →
      left.generationText = right.generationText) :
    catalogGeneration p left = catalogGeneration p right ↔ SameFingerprints left right := by
  constructor
  · intro h
    have htext : p.sha256Text left.generationText = p.sha256Text right.generationText :=
      String.toList_injective (by simpa [catalogGeneration] using congrArg String.toList h)
    exact same_rows_of_text hdigest (hleft.plain_rows hbuiltins) (hright.plain_rows hbuiltins)
      (hcollision htext)
  · intro h
    unfold catalogGeneration
    rw [generation_text_congr h]

end

/-- The URI of the servers of a plugin. -/
def serverUri : String :=
  "cap://user/asg/idn_8a771be063fbef53149d218b/private/personal/mcp_server/b.b-mcp@0.1.0"

def plainDigest : String := "b55845252b359953bf0da950ee5a1ee7db0d88c5aec8337fe51e6088a00e7202"

def linedDigest : String := "bfcd215dec01bf16888c89d9277be140de7520f3b14e750f6a8d27b47c3c019e"

def plainUri : String := "cap://user/asg/a"

/-- A URI with the line of a row in front of it. -/
def linedUri : String :=
  plainUri ++ "\tsha256:" ++ plainDigest ++ "\tpending\tnot_shared\n" ++ serverUri

/-- The text of a `cap.json` that names its URI, in which `json` escapes tabs and newlines. -/
def plainText : String := "\x7b\"uri\":\"" ++ plainUri ++ "\"\x7d"

def linedText : String :=
  "\x7b\"uri\":\"" ++ plainUri ++ "\\tsha256:" ++ plainDigest ++ "\\tpending\\tnot_shared\\n" ++
    serverUri ++ "\"\x7d"

/-- The line of a row in the text of a generation. -/
def generationLine (uri digest : String) : String :=
  uri ++ "\tsha256:" ++ digest ++ "\tpending\tnot_shared\n"

def linedDigests : List (String × String) :=
  [(plainText, plainDigest), (linedText, linedDigest),
    (generationLine plainUri plainDigest,
      "c778e7a507e47d1463bdb0057d3c2b9283b59b51519ae4f17f9ee4db33846e7a"),
    (generationLine linedUri linedDigest,
      "78debff7a5231760d73502c3a9a60027f9dadc82d301dc758299a893e7abc09b")] ++ sampleDigests

/-- A deployment that knows the digests of the two texts, and of two generations. -/
def linedPlatform : Platform := .ascii fun content =>
  ((linedDigests.find? fun entry => entry.1.toUTF8.data.toList = content).map (·.2)).getD ""

/-- A host that reads the two texts. -/
def linedHost : DiscoveryHost where
  loads text :=
    if text = plainText then .value (.obj [("uri", .str plainUri)])
    else if text = linedText then .value (.obj [("uri", .str linedUri)])
    else .decodeError
  titled _ := "B Mcp"
  isFile _ := false

def plainFile : SourceText :=
  ⟨["srv", "plugins", "a", "cap.json"], ["srv", "plugins"], plainText.toUTF8.data.toList⟩

/-- A manifest of servers with the same content as `linedFile`. -/
def serverFile : SourceText :=
  ⟨["srv", "plugins", "b", ".mcp.json"], ["srv", "plugins"], linedText.toUTF8.data.toList⟩

def linedFile : SourceText :=
  ⟨["srv", "plugins", "c", "cap.json"], ["srv", "plugins"], linedText.toUTF8.data.toList⟩

def linedFiles : FileSystem := fun path =>
  if path = "/srv/plugins/a/cap.json" then .regular plainFile.bytes
  else if path = "/srv/plugins/b/.mcp.json" then .regular serverFile.bytes
  else if path = "/srv/plugins/c/cap.json" then .regular linedFile.bytes
  else .missing

/-- What discovery makes of a manifest of a plugin that names a URI. -/
def foundManifest (plugin entrypoint kind system : String) (type : CapabilityType)
    (uri given digest : String) : Capability :=
  { uri, capabilityType := type, name := plugin, version := "0.1.0", title := plugin
    description := "", packagePath := "/srv/plugins/" ++ plugin, entrypoint
    sourcePath := "/srv/plugins/" ++ plugin ++ "/" ++ entrypoint, sourceKind := kind
    sourceSystem := "local", canonicalKey := system ++ ":" ++ plugin ++ ":" ++ plugin ++ ":0.1.0"
    contentHash := "sha256:" ++ digest, plugin := some plugin
    metadata := [("uri", .str given),
      ("sourcePaths", .arr [.str ("/srv/plugins/" ++ plugin ++ "/" ++ entrypoint)]),
      ("sourceProvenance", .arr [.obj
        [("sourcePath", .str ("/srv/plugins/" ++ plugin ++ "/" ++ entrypoint)),
          ("sourceKind", .str kind), ("sourceSystem", .str "local"),
          ("contentHash", .str ("sha256:" ++ digest))]])] }

def plainCapability : Capability :=
  foundManifest "a" "cap.json" "cap_manifest" "workflow" .workflow plainUri plainUri plainDigest

def linedCapability : Capability :=
  foundManifest "c" "cap.json" "cap_manifest" "workflow" .workflow linedUri linedUri linedDigest

def serverCapability : Capability :=
  { foundManifest "b" ".mcp.json" "mcp_manifest" "mcp_server" .mcpServer
      "cap://asg.local/mcp_server/b.b-mcp@0.1.0" linedUri linedDigest with
    name := "b-mcp", title := "B Mcp", description := "MCP server manifest packaged with plugin."
    canonicalKey := "mcp_server:b:b-mcp:0.1.0", visibility := .protected
    discoveryMode := .locked, riskTier := .high }

/-- An ingest without a placement manifest and without vectors. -/
def linedInput (batch : Batch linedPlatform) : IngestInput linedPlatform := .bare batch

/-- The batch of two plain files. -/
def plainBatch : Batch linedPlatform where
  capabilities := [serverCapability, plainCapability]
  keys := by decide +kernel
  sources := by decide +kernel
  discovered := by decide +kernel
  listed cap hcap text := by
    rcases List.mem_cons.mp hcap with rfl | hcap
    · simp [serverCapability, foundManifest, Dict.get?]
    · rw [List.mem_singleton.mp hcap]
      simp [plainCapability, foundManifest, Dict.get?]

/-- The batch of one of them. -/
def shortBatch : Batch linedPlatform :=
  .single plainCapability (by decide +kernel)
    fun text => by simp [plainCapability, foundManifest, Dict.get?]

/-- The batch of the file with a line in its URI. -/
def linedBatch : Batch linedPlatform :=
  .single linedCapability (by decide +kernel)
    fun text => by simp [linedCapability, foundManifest, Dict.get?]

/-- What the guards admit of files of the plugins. -/
def admittedOf (files : List SourceText) : Except Failure (List Capability) :=
  mergeDuplicateCapabilities linedPlatform
      (files.filterMap (discoverFile linedPlatform linedHost)) >>=
    enforceInstallGuards linedPlatform (packageFiles linedPlatform linedFiles) [] ["/srv/plugins"]

/-- The catalog of a batch. -/
def catalogOf (batch : Batch linedPlatform) : Database :=
  (ingest linedPlatform .empty (linedInput batch)).1

theorem lined_runs : admittedOf [plainFile, serverFile] = .ok plainBatch.capabilities ∧
    admittedOf [linedFile] = .ok linedBatch.capabilities ∧
    (ingest linedPlatform .empty (linedInput plainBatch)).2.toOption.isSome ∧
    (ingest linedPlatform .empty (linedInput linedBatch)).2.toOption.isSome ∧
    (catalogOf plainBatch).generationText = (catalogOf linedBatch).generationText ∧
    (∃ row ∈ (catalogOf plainBatch).capabilities.rows, row.cap.uri = plainUri) ∧
    ∀ row ∈ (catalogOf linedBatch).capabilities.rows, row.cap.uri ≠ plainUri := by
  decide +kernel

theorem lined_files : ∀ file ∈ [plainFile, serverFile, linedFile],
    linedFiles (linedPlatform.normalizePath (pathText file.path)) = .regular file.bytes := by
  intro file hfile
  simp only [List.mem_cons, List.not_mem_nil, or_false] at hfile
  rcases hfile with rfl | rfl | rfl <;> rfl

theorem lined_ingested (files : List SourceText) {batch : Batch linedPlatform}
    (hfiles : ∀ file ∈ files, file ∈ [plainFile, serverFile, linedFile])
    (hadmitted : admittedOf files = .ok batch.capabilities)
    (h : (ingest linedPlatform .empty (linedInput batch)).2.toOption.isSome)
    {Allowed : Database → IngestInput linedPlatform → Prop}
    (hallowed : Allowed .empty (linedInput batch)) :
    Ingested linedPlatform [] Allowed (catalogOf batch) := by
  obtain ⟨changes, hchanges⟩ := Option.isSome_iff_exists.mp h
  have hfrom : AdmittedFrom linedPlatform linedHost linedFiles files ["/srv/plugins"] .empty
      batch.capabilities := ⟨fun file hfile => lined_files file (hfiles file hfile),
        bind_eq_ok hadmitted⟩
  exact .ingest (.create rfl) hfrom hallowed (ingest_of_changes hchanges)

theorem lined_digests (bytes : List UInt8) : IsColumn (linedPlatform.sha256 bytes) := by
  have hall : ∀ entry ∈ linedDigests, '\t' ∉ entry.2.toList ∧ '\n' ∉ entry.2.toList := by
    simp only [← fast_chars_eq]
    decide +kernel
  unfold linedPlatform Platform.ascii
  dsimp only
  cases hfind : linedDigests.find? fun entry => entry.1.toUTF8.data.toList = bytes with
  | none => exact ⟨by decide, by decide⟩
  | some entry => exact hall entry (List.mem_of_find?_eq_some hfind)

theorem short_run : admittedOf [plainFile] = .ok shortBatch.capabilities ∧
    (ingest linedPlatform .empty (linedInput shortBatch)).2.toOption.isSome ∧
    linedPlatform.sha256Text (catalogOf shortBatch).generationText ≠
      linedPlatform.sha256Text (catalogOf plainBatch).generationText := by
  decide +kernel

theorem plain_batch_plain {batch : Batch linedPlatform}
    (hbatch : ∀ cap ∈ batch.capabilities, cap ∈ plainBatch.capabilities) :
    PlainBatch linedPlatform .empty (linedInput batch) := by
  have hnewline : ∀ cap ∈ plainBatch.capabilities,
      '\n' ∉ (effective linedPlatform [] .empty cap).uri.toList := by
    simp only [← fast_chars_eq]
    decide +kernel
  intro cap hcap columns _ back huri
  refine hnewline cap (hbatch cap hcap) ?_
  show '\n' ∈ (effective linedPlatform [] Database.empty.capabilities cap).uri.toList
  rw [show (effective linedPlatform [] Database.empty.capabilities cap).uri =
    columns.line ++ back from huri, String.toList_append, line_to_list]
  simp

/-- A catalog of one of the plain files and one of both: their generations differ, and so do their
rows. -/
theorem catalog_generation_iff_plain :
    catalogGeneration linedPlatform (catalogOf shortBatch) =
        catalogGeneration linedPlatform (catalogOf plainBatch) ↔
      SameFingerprints (catalogOf shortBatch) (catalogOf plainBatch) := by
  obtain ⟨hshort, hshortRun, hapart⟩ := short_run
  obtain ⟨hadmitted, -, hingested, -⟩ := lined_runs
  exact catalog_generation_iff lined_digests (fun cap hcap => absurd hcap List.not_mem_nil)
    (lined_ingested [plainFile] (by simp) hshort hshortRun
      (plain_batch_plain fun cap hcap => List.mem_cons_of_mem _ hcap))
    (lined_ingested [plainFile, serverFile] (by simp) hadmitted hingested
      (plain_batch_plain fun _ hcap => hcap))
    fun hsame => absurd hsame hapart

theorem not_same_fingerprints {left right : Database} {uri : String}
    (hrow : ∃ row ∈ left.capabilities.rows, row.cap.uri = uri)
    (hnone : ∀ row ∈ right.capabilities.rows, row.cap.uri ≠ uri) :
    ¬ SameFingerprints left right := by
  intro hsame
  obtain ⟨row, hrow, huri⟩ := hrow
  obtain ⟨other, hother, hcolumns⟩ := (hsame row.cap.fingerprint).mpr ⟨row, hrow, rfl⟩
  exact hnone other hother ((congrArg Fingerprint.uri hcolumns).trans huri)

/-- A `cap.json` whose URI begins with the line of a row makes the same generation as the row and
another one. -/
theorem catalog_generation_counterexample :
    ¬ ∀ (p : Platform) (builtins : List Capability) (left right : Database),
      (∀ bytes, IsColumn (p.sha256 bytes)) →
      Ingested p builtins (fun _ _ => True) left → Ingested p builtins (fun _ _ => True) right →
      (p.sha256Text left.generationText = p.sha256Text right.generationText →
        left.generationText = right.generationText) →
      catalogGeneration p left = catalogGeneration p right → SameFingerprints left right := by
  intro hclaim
  obtain ⟨hplain, hlined, hplainRun, hlinedRun, htext, hrow, hnone⟩ := lined_runs
  refine not_same_fingerprints hrow hnone ?_
  exact hclaim linedPlatform [] _ _ lined_digests
    (lined_ingested [plainFile, serverFile] (by simp) hplain hplainRun trivial)
    (lined_ingested [linedFile] (by simp) hlined hlinedRun trivial)
    (fun _ => htext) (by rw [catalogGeneration, catalogGeneration, htext])

end Capmesh
