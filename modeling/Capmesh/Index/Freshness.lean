import Capmesh.Governance.CatalogIndex
import Capmesh.Registry.Scans
import Capmesh.Relational.Derived

/-!
# The freshness of the vectors

A row of `capability_vec` holds the embedding of the index text that the full-text row with its id
had when it was written. Every upsert writes the text; the vector is refreshed by the loop of
`_upsert_discovered` alone, while its attempts last, and `ingest_index` fills the gaps afterwards.
`Database.Embedded` is the invariant, and `RefreshCall.Keeps` what a run of ingests must meet: a
text that is written without an attempt to embed it is the one the row had, or the row has no
vector. `vectors_current` is the run.
-/

namespace Capmesh

open Python Relational Execution

/-- Vectors as what an embedding makes of the full-text rows. -/
def vectorDerivation (embedding : String → String) :
    Derivation FtsRow VectorRow Nat String String where
  key := (·.rowid)
  text := (·.content)
  owner := (·.rowid)
  value := (·.embedding)
  derive := embedding

/-- Each vector is the embedding of the index text beside it. -/
def Database.FreshVectors (embedding : String → String) (db : Database) : Prop :=
  (vectorDerivation embedding).Fresh {text | text ∈ db.fts} {vector | vector ∈ db.vectors}

/-- No stale vectors: the vector of a capability is the embedding of the index text that its
full-text row stores. -/
def Database.VectorsCurrent (embedding : String → String) (db : Database) : Prop :=
  ∀ vector ∈ db.vectors, ∀ row ∈ db.capabilities, row.id = vector.rowid →
    ∃ text ∈ db.fts, text.rowid = row.id ∧ vector.embedding = embedding text.content

instance (embedding : String → String) (db : Database) : Decidable (db.VectorsCurrent embedding) :=
  inferInstanceAs (Decidable (∀ vector ∈ db.vectors.rows, ∀ row ∈ db.capabilities.rows,
    row.id = vector.rowid → ∃ text ∈ db.fts.rows,
      text.rowid = row.id ∧ vector.embedding = embedding text.content))

/-- The full-text rows store the index texts of the capabilities. -/
def Database.StoresTexts (db : Database) : Prop :=
  ∀ row ∈ db.capabilities, ∀ text ∈ db.fts, text.rowid = row.id → text.content = row.cap.indexText

/-- What a run of ingests keeps: the index follows the catalog, stores the index text of each row,
and has no stale vector. -/
structure Database.Embedded (embedding : String → String) (db : Database) : Prop where
  index : db.Follows none
  texts : db.StoresTexts
  fresh : db.FreshVectors embedding

/-- Writing a text over a row needs no new vector: the row has none, or stores the text already. -/
def Database.KeepsVector (db : Database) (row : Option CapabilityRow) (text : String) : Prop :=
  match row with
  | some row => db.vectors.any (·.rowid = row.id) = true → previousIndexText db row = some text
  | none => db.vectors.any (·.rowid = db.freshId) = false

instance (db : Database) (row : Option CapabilityRow) (text : String) :
    Decidable (db.KeepsVector row text) :=
  match row with
  | some _ => inferInstanceAs (Decidable (_ → _))
  | none => inferInstanceAs (Decidable (_ = _))

/-- The built-in capabilities are upserted without a new vector. -/
def BuiltinsKeep (p : Platform) : Database → List Capability → Prop
  | _, [] => True
  | db, cap :: caps =>
      db.KeepsVector (db.capabilityAt (applyDefaultUserNamespace p cap).uri) cap.indexText ∧
        ∀ id next, upsertCapability p db cap = .ok (id, next) → BuiltinsKeep p next caps

/-- Whether the loop of an ingest still embeds. -/
def Indexing.attempts {p : Platform} (state : Indexing) (input : IngestInput p) : Bool :=
  input.vectorEnabled && !state.vectorAborted

/-- Each capability of a plan is embedded, or indexed without a new vector. -/
def PlanKeeps (p : Platform) (input : IngestInput p) : Indexing → List Capability → Prop
  | _, [] => True
  | state, effective :: rest =>
      (state.attempts input = true ∨
        state.db.KeepsVector (previousRow state.db effective) effective.indexText) ∧
      ∀ next, indexOne p input state effective = .ok next → PlanKeeps p input next rest

/-- One ingest: the built-in capabilities, the discovery with its admission guards, and the passes
after the main transaction. The backend answers with the embedding of the text, or fails. -/
structure RefreshCall (p : Platform) (embedding : String → String) where
  builtins : List Capability
  discover : Database → Except Failure (IngestInput p)
  post : (mesh : Mesh) → PostIngest mesh
  embeds : ∀ db input, discover db = .ok input →
    ∀ n text answer, input.embed n text = some answer → answer = embedding text
  heals : ∀ mesh n text answer, (post mesh).embed n text = some answer → answer = embedding text

section

variable {p : Platform} {embedding : String → String}

/-- `ingest_index` from `init_db` on. -/
def refreshStep (p : Platform) (embedding : String → String) (mesh : Mesh)
    (call : RefreshCall p embedding) : Mesh :=
  match initDb p call.builtins mesh.registry.db with
  | .error _ => mesh
  | .ok db =>
      let opened := mesh.onCatalog fun _ => db
      match call.discover db with
      | .error _ => opened
      | .ok input => (ingestIndex p opened input (call.post opened)).1

/-- Every index text that an ingest writes without embedding it needs no new vector. -/
def RefreshCall.Keeps (call : RefreshCall p embedding) (mesh : Mesh) : Prop :=
  ∀ changed normalized,
    normalizeExistingCapabilityNamespaces p mesh.registry.db = .ok (changed, normalized) →
    BuiltinsKeep p normalized call.builtins ∧
    ∀ db input planned, upsertBuiltins p normalized call.builtins = .ok db →
      call.discover db = .ok input → plan p input db.capabilities = .ok planned →
      PlanKeeps p input (.start (quarantineNewCapabilities p db input).1) planned

variable {db result : Database} {cap : Capability} {id : Nat}

/-- The property of the claim, from the invariant. -/
theorem Database.Embedded.current (h : db.Embedded embedding) : db.VectorsCurrent embedding := by
  intro vector hvector row hrow hid
  obtain ⟨text, htext, hrowid, -⟩ := h.index.text row hrow
  exact ⟨text, htext, hrowid, h.fresh vector hvector text htext (hrowid.trans hid)⟩

/-- A database without rows. -/
theorem empty_embedded : Database.empty.Embedded embedding where
  index := empty_follows
  texts row hrow := absurd hrow (Table.not_mem_empty row)
  fresh vector hvector := absurd hvector (Table.not_mem_empty vector)

theorem previous_index_text_some {previous : Option CapabilityRow} {text : String}
    (h : previousIndexText db previous = some text) :
    ∃ row, previous = some row ∧ ∃ fts ∈ db.fts, fts.rowid = row.id ∧ fts.content = text := by
  obtain ⟨row, hrow, h⟩ := Option.bind_eq_some_iff.mp h
  obtain ⟨fts, hfts, rfl⟩ := Option.map_eq_some_iff.mp h
  obtain ⟨hfts, hid⟩ := Table.find?_some hfts
  exact ⟨row, hrow, fts, hfts, of_decide_eq_true hid, rfl⟩

theorem write_row_id {table : Table CapabilityRow} (h : writeRow db cap = .ok (id, table)) :
    id = ((db.capabilityAt cap.uri).map (·.id)).getD db.freshId := by
  unfold writeRow at h
  split at h
  · rename_i row hat
    obtain ⟨updated, -, h⟩ := bind_eq_ok h
    cases h
    rw [hat]
    rfl
  · rename_i hat
    obtain ⟨inserted, -, h⟩ := bind_eq_ok h
    cases h
    rw [hat]
    rfl

/-- What `KeepsVector` says of the vectors at the id a text is written to. -/
theorem Database.KeepsVector.stored {row : Option CapabilityRow} {text : String}
    (h : db.KeepsVector row text) (hid : id = (row.map (·.id)).getD db.freshId) :
    ∀ vector ∈ db.vectors, vector.rowid = id →
      ∃ fts ∈ db.fts, fts.rowid = id ∧ fts.content = text := by
  intro vector hvector howner
  have hany : db.vectors.any (·.rowid = id) = true :=
    Table.any_iff.mpr ⟨vector, hvector, by simpa using howner⟩
  cases row with
  | none =>
      rw [hid] at hany
      exact absurd (hany.symm.trans h) Bool.noConfusion
  | some row =>
      subst hid
      obtain ⟨_, hrow, fts, hfts, hrowid, hcontent⟩ := previous_index_text_some (h hany)
      cases hrow
      exact ⟨fts, hfts, hrowid, hcontent⟩

/-- A full-text row was written over a row of the catalog, whose index text it is. -/
structure TextWritten (before after : Database) (text : FtsRow) : Prop where
  vectors : after.vectors = before.vectors
  fts : ∀ x, x ∈ after.fts ↔ x = text ∨ x ∈ before.fts ∧ x.rowid ≠ text.rowid
  rows : ∀ x ∈ after.capabilities, x.id = text.rowid ∧ x.cap.indexText = text.content ∨
    x ∈ before.capabilities ∧ x.id ≠ text.rowid

variable {before after : Database} {text : FtsRow} {input : IngestInput p}
variable {embed : Nat → String → Option String}

theorem TextWritten.put (h : TextWritten before after text) (embedding : String → String) :
    {x | x ∈ after.fts} = (vectorDerivation embedding).put {x | x ∈ before.fts} text :=
  Set.ext h.fts

theorem TextWritten.texts (h : TextWritten before after text) (htexts : before.StoresTexts) :
    after.StoresTexts := by
  intro row hrow fts hfts hid
  rcases h.rows row hrow with ⟨hrowid, hcontent⟩ | ⟨hrow, hne⟩
  · rcases (h.fts fts).mp hfts with rfl | ⟨-, hother⟩
    · exact hcontent.symm
    · exact absurd (hid.trans hrowid) hother
  · rcases (h.fts fts).mp hfts with rfl | ⟨hfts, -⟩
    · exact absurd hid.symm hne
    · exact htexts row hrow fts hfts hid

theorem TextWritten.fresh (h : TextWritten before after text)
    (hstored : ∀ vector ∈ before.vectors, vector.rowid = text.rowid →
      ∃ fts ∈ before.fts, fts.rowid = text.rowid ∧ fts.content = text.content)
    (hfresh : before.FreshVectors embedding) : after.FreshVectors embedding := by
  unfold Database.FreshVectors
  rw [h.put embedding, h.vectors]
  exact Derivation.Fresh.put hfresh hstored

theorem apply_default_index_text (p : Platform) (cap : Capability) :
    (applyDefaultUserNamespace p cap).indexText = cap.indexText := by
  unfold applyDefaultUserNamespace
  split
  · rfl
  · split <;> rfl

/-- Neither the namespace nor the clamp reaches the index text. -/
theorem incoming_index_text (p : Platform) (db : Database) (cap : Capability) :
    (incoming p db cap).indexText = cap.indexText := by
  obtain ⟨lifecycle, heq⟩ := incoming_lifecycle p db cap
  rw [heq]
  exact apply_default_index_text p cap

theorem written_index_text (existing : Option CapabilityRow) (cap : Capability) :
    (written existing cap).indexText = cap.indexText := by
  cases existing <;> rfl

theorem upsert_text_written (h : upsertCapability p db cap = .ok (id, result)) :
    ∃ text, TextWritten db result text ∧ text.rowid = id ∧ text.content = cap.indexText := by
  obtain ⟨table, expected, hwrite, -, -, rfl⟩ := upsert_capability_ok h
  have htext := incoming_index_text p db cap
  generalize incoming p db cap = target at *
  have hrows := upserted_row hwrite
  obtain ⟨hmem, -, -⟩ := write_row_ok hwrite
  refine ⟨target.ftsRow id, ⟨rfl, mem_sync_fts, fun x hx => ?_⟩, rfl, htext⟩
  rcases (hmem x).mp hx with rfl | ⟨hx, huri⟩
  · exact .inl ⟨rfl, written_index_text _ target⟩
  · exact .inr ⟨hx, fun hid => huri ((hrows.id_iff x hx).mp hid)⟩

theorem upsert_id (h : upsertCapability p db cap = .ok (id, result)) :
    id = ((db.capabilityAt (applyDefaultUserNamespace p cap).uri).map (·.id)).getD db.freshId := by
  obtain ⟨table, expected, hwrite, -, -, -⟩ := upsert_capability_ok h
  rw [← incoming_uri p db cap]
  exact write_row_id hwrite

theorem Database.Embedded.upsert (h : db.Embedded embedding)
    (hkeeps : db.KeepsVector (db.capabilityAt (applyDefaultUserNamespace p cap).uri) cap.indexText)
    (hupsert : upsertCapability p db cap = .ok (id, result)) : result.Embedded embedding := by
  obtain ⟨text, hwritten, hid, hcontent⟩ := upsert_text_written hupsert
  refine ⟨h.index.upsert (by simp) hupsert, hwritten.texts h.texts, hwritten.fresh ?_ h.fresh⟩
  rw [hid, hcontent]
  exact hkeeps.stored (upsert_id hupsert)

theorem upsert_builtins_embedded {builtins : List Capability} (h : db.Embedded embedding)
    (hkeeps : BuiltinsKeep p db builtins) (hupsert : upsertBuiltins p db builtins = .ok result) :
    result.Embedded embedding := by
  induction builtins generalizing db with
  | nil =>
      cases hupsert
      exact h
  | cons cap builtins ih =>
      unfold upsertBuiltins at hupsert
      obtain ⟨⟨id, next⟩, hnext, hupsert⟩ := bind_eq_ok hupsert
      exact ih (h.upsert hkeeps.1 hnext) (hkeeps.2 id next hnext) hupsert

/-- Normalizing a row writes the index text it has, if it writes anything. -/
theorem normalize_row_text {row : CapabilityRow} {changed : Nat} (hrow : row ∈ db.capabilities)
    (h : normalizeRow p db row = .ok (changed, result)) :
    result = db ∨ ∃ text, TextWritten db result text ∧ text.rowid = row.id ∧
      text.content = row.cap.indexText := by
  rcases normalize_row_ok hrow h with ⟨-, rfl⟩ | ⟨hmoves, -, hmem⟩
  · exact .inl rfl
  have htext := apply_default_index_text p row.cap
  unfold normalizeRow at h
  dsimp only at h
  rw [if_neg hmoves] at h
  obtain ⟨capabilities, -, h⟩ := bind_eq_ok h
  obtain ⟨sources, -, h⟩ := bind_eq_ok h
  obtain ⟨tuples, -, h⟩ := bind_eq_ok h
  cases h
  dsimp only at hmem
  refine .inr ⟨{ (applyDefaultUserNamespace p row.cap).ftsRow row.id with
    uri := uniqueMigrationUri p db (applyDefaultUserNamespace p row.cap).uri row.id
      (applyDefaultUserNamespace p row.cap).canonicalKey },
    ⟨rfl, fun x => ?_, fun x hx => ?_⟩, rfl, htext⟩
  · exact (Table.mem_replace x).trans or_comm
  · rcases (hmem x).mp hx with rfl | ⟨hx, hid⟩
    · exact .inl ⟨rfl, rfl⟩
    · exact .inr ⟨hx, hid⟩

/-- A row is normalized with the index text it had, so its vector stays fresh. -/
theorem normalize_row_embedded {row : CapabilityRow} {changed : Nat} (hrow : row ∈ db.capabilities)
    (h : db.Embedded embedding) (hnormalize : normalizeRow p db row = .ok (changed, result)) :
    result.Embedded embedding := by
  rcases normalize_row_text hrow hnormalize with rfl | ⟨text, hwritten, hid, hcontent⟩
  · exact h
  refine ⟨normalize_row_follows hrow h.index hnormalize, hwritten.texts h.texts,
    hwritten.fresh (fun vector _ _ => ?_) h.fresh⟩
  obtain ⟨fts, hfts, hrowid, -⟩ := h.index.text row hrow
  exact ⟨fts, hfts, hrowid.trans hid.symm, (h.texts row hrow fts hfts hrowid).trans hcontent.symm⟩

theorem mark_failed_index_text (row : CapabilityRow) :
    (row.markFailed id).id = row.id ∧ (row.markFailed id).cap.indexText = row.cap.indexText := by
  unfold CapabilityRow.markFailed
  split <;> exact ⟨rfl, rfl⟩

/-- The vectors that one attempt leaves: those of other rows, the one of an unchanged text, and what
the backend answered. -/
theorem mem_upsert_vector {vectors : Table VectorRow} {unchanged : Bool} {answer : Option String}
    {vector : VectorRow} (h : vector ∈ (upsertVector vectors id unchanged answer).2) :
    vector ∈ vectors ∧ (vector.rowid = id → unchanged = true) ∨
      vector.rowid = id ∧ answer = some vector.embedding := by
  unfold upsertVector at h
  split at h
  · rename_i hkept
    exact .inl ⟨h, fun _ => (Bool.and_eq_true_iff.mp hkept).1⟩
  · split at h
    · rcases (Table.mem_replace vector).mp h with ⟨hvector, hne⟩ | rfl
      · exact .inl ⟨hvector, fun hid => absurd hid hne⟩
      · exact .inr ⟨rfl, rfl⟩
    · obtain ⟨hvector, hne⟩ := (Table.mem_filter vector).mp h
      exact .inl ⟨hvector, fun hid => absurd hid (of_decide_eq_true hne)⟩

theorem embed_leaves (state : Indexing) (input : IngestInput p) (id : Nat) (text : String)
    (unchanged : Bool) :
    (state.embed input id text unchanged).db.fts = state.db.fts ∧
    (∀ x ∈ (state.embed input id text unchanged).db.capabilities,
      ∃ y ∈ state.db.capabilities, x.id = y.id ∧ x.cap.indexText = y.cap.indexText) ∧
    ∀ vector ∈ (state.embed input id text unchanged).db.vectors,
      vector ∈ state.db.vectors ∧
        (state.attempts input = true → vector.rowid = id → unchanged = true) ∨
      vector.rowid = id ∧ ∃ n, input.embed n text = some vector.embedding := by
  unfold Indexing.embed
  cases hattempts : state.attempts input with
  | false =>
      rw [if_neg (by simpa [Indexing.attempts] using hattempts)]
      exact ⟨rfl, fun x hx => ⟨x, hx, rfl, rfl⟩, fun vector hvector =>
        .inl ⟨hvector, fun h => absurd h Bool.noConfusion⟩⟩
  | true =>
      rw [if_pos (by simpa [Indexing.attempts] using hattempts)]
      have hvectors := fun vector => @mem_upsert_vector id state.db.vectors unchanged
        (input.embed (state.vectorsWritten + state.vectorFailures) text) vector
      dsimp only
      split
      · refine ⟨rfl, fun x hx => ⟨x, hx, rfl, rfl⟩, fun vector hvector => ?_⟩
        exact (hvectors vector hvector).imp (fun h => ⟨h.1, fun _ => h.2⟩)
          fun h => ⟨h.1, _, h.2⟩
      · refine ⟨rfl, fun x hx => ?_, fun vector hvector => ?_⟩
        · obtain ⟨y, hy, rfl⟩ := (Table.mem_map (mark_failed_conflict id) x).mp hx
          exact ⟨y, hy, mark_failed_index_text y⟩
        · exact (hvectors vector hvector).imp (fun h => ⟨h.1, fun _ => h.2⟩)
            fun h => ⟨h.1, _, h.2⟩

theorem carry_over_index_text (previous : Option CapabilityRow) (effective : Capability) :
    (carryOver previous effective).indexText = effective.indexText := by
  unfold carryOver
  split
  · split <;> rfl
  · rfl

theorem hold_downgrade_index_text (held : Bool) (effective : Capability) :
    (holdDowngrade held effective).indexText = effective.indexText := by
  unfold holdDowngrade
  split <;> rfl

theorem Relocated.texts {previous : Option CapabilityRow} {uri : String} {moved : Database}
    (hprevious : ∀ r, previous = some r → r ∈ db.capabilities)
    (hrelocated : Relocated previous uri db moved) (h : db.StoresTexts) : moved.StoresTexts := by
  intro row hrow fts hfts hid
  rw [hrelocated.fts] at hfts
  rcases (hrelocated.capabilities row).mp hrow with ⟨r, hr, rfl⟩ | ⟨hrow, -⟩
  · exact h r (hprevious r hr) fts hfts hid
  · exact h row hrow fts hfts hid

theorem Relocated.upsert_id {effective target : Capability} {held : Bool} {moved : Database}
    (hmove : relocate db (previousRow db effective) target.uri = .ok moved)
    (htarget : carryOver (previousRow db effective) effective = target) (hgoverned : target.Governed)
    (hupsert : upsertCapability p moved (holdDowngrade held target) = .ok (id, result)) :
    id = ((previousRow db effective).map (·.id)).getD db.freshId := by
  have hrelocated := relocate_ok (fun r hr => previous_row_mem hr) hmove
  have hat := hrelocated.capability_at fun hnone => by rw [← htarget, hnone]; rfl
  have hid := Capmesh.upsert_id hupsert
  rw [apply_default_of_governed (hold_downgrade_governed hgoverned), hold_downgrade_uri, hat] at hid
  cases hprevious : previousRow db effective with
  | some row =>
      rw [hprevious] at hid
      exact hid
  | none =>
      rw [hprevious] at hid hmove
      cases hmove
      exact hid

theorem count_attempts (state : Indexing) (input : IngestInput p)
    (previous : Option CapabilityRow) (hash : String) :
    (state.count previous hash).attempts input = state.attempts input := by
  unfold Indexing.count
  split
  · rfl
  · split <;> rfl

/-- The loop body keeps the vectors fresh: it embeds what it writes, or writes what needs no new
vector. -/
theorem index_one_embedded {state next : Indexing} {effective : Capability}
    (hgoverned : effective.Governed) (htenant : effective.tenantId ≠ "")
    (hembeds : ∀ n text answer, input.embed n text = some answer → answer = embedding text)
    (hkeeps : state.attempts input = true ∨
      state.db.KeepsVector (previousRow state.db effective) effective.indexText)
    (h : state.db.Embedded embedding) (hindex : indexOne p input state effective = .ok next) :
    next.db.Embedded embedding := by
  have hfollows := index_one_keeps_index hgoverned h.index hindex
  have hcarried := index_one_carried hgoverned htenant hindex
  obtain ⟨moved, id, result, hmove, hupsert, rfl⟩ := index_one_inv hindex
  have hrelocated := relocate_ok (fun r hr => previous_row_mem hr) hmove
  have hid := Relocated.upsert_id hmove rfl hcarried hupsert
  obtain ⟨text, hwritten, rfl, hcontent⟩ := upsert_text_written hupsert
  rw [hold_downgrade_index_text, carry_over_index_text] at hcontent
  rw [← hcontent] at hkeeps
  rw [carry_over_index_text, ← hcontent] at hfollows ⊢
  generalize hcounted : ({ state with db := result }).count (previousRow state.db effective)
    (carryOver (previousRow state.db effective) effective).contentHash = counted at *
  have hdb : counted.db = result := by rw [← hcounted, count_db]
  have hattempts : counted.attempts input = state.attempts input := by
    rw [← hcounted]
    exact count_attempts _ _ _ _
  obtain ⟨hfts, hrows, hvectors⟩ := embed_leaves counted input text.rowid text.content
    (previousIndexText state.db (previousRow state.db effective) = some text.content)
  rw [hdb] at hfts hrows hvectors
  refine ⟨hfollows, fun row hrow fts hmem hsame => ?_, ?_⟩
  · obtain ⟨y, hy, hyId, hyText⟩ := hrows row hrow
    rw [hfts] at hmem
    rw [hyText]
    exact hwritten.texts (hrelocated.texts (fun r hr => previous_row_mem hr) h.texts) y hy fts hmem
      (hsame.trans hyId)
  · unfold Database.FreshVectors
    rw [hfts, hwritten.put embedding, hrelocated.fts]
    refine Derivation.Fresh.refresh h.fresh fun vector hvector => ?_
    rcases hvectors vector hvector with ⟨hkept, hunchanged⟩ | ⟨howner, n, hanswer⟩
    · rw [hwritten.vectors, hrelocated.vectors] at hkept
      refine .inr ⟨hkept, fun howner => ?_⟩
      rw [hattempts] at hunchanged
      rcases hkeeps with hattempted | hkeeps
      · -- The attempt left the vector, so the row it refreshes stored the text already.
        obtain ⟨row, hrow, fts, hstored, hrowid, hsame⟩ :=
          previous_index_text_some (of_decide_eq_true (hunchanged hattempted howner))
        rw [hrow] at hid
        exact ⟨fts, hstored, hrowid.trans hid.symm, hsame⟩
      · exact hkeeps.stored hid vector hkept howner
    · exact .inl ⟨hembeds n _ _ hanswer, howner⟩

/-- The loop of an ingest keeps the vectors fresh. -/
theorem index_all_embedded {state final : Indexing} {planned : List Capability}
    (hplanned : ∀ e ∈ planned, e.Governed ∧ e.tenantId ≠ "" ∧ e.isSystemOrDraft = false)
    (hembeds : ∀ n text answer, input.embed n text = some answer → answer = embedding text)
    (hkeeps : PlanKeeps p input state planned) (h : state.db.Embedded embedding)
    (hindex : indexAll p input state planned = .ok final) : final.db.Embedded embedding := by
  induction planned generalizing state with
  | nil =>
      cases hindex
      exact h
  | cons e planned ih =>
      unfold indexAll at hindex
      obtain ⟨next, hnext, hindex⟩ := bind_eq_ok hindex
      obtain ⟨hgoverned, htenant, -⟩ := hplanned e List.mem_cons_self
      exact ih (fun other hother => hplanned other (List.mem_cons_of_mem e hother))
        (hkeeps.2 next hnext)
        (index_one_embedded hgoverned htenant hembeds hkeeps.1 h hnext) hindex

/-- Holds reach neither the index nor the vectors. -/
theorem HoldsAdded.embedded (hadded : HoldsAdded db result) (h : db.Embedded embedding) :
    result.Embedded embedding := by
  rw [hadded.rest]
  exact ⟨h.index.congr rfl rfl rfl, h.texts, h.fresh⟩

/-- A retired row takes its full-text row with it, whether or not its vector stays. -/
theorem Retired.embedded (hretired : Retired
    (fun id => ∃ row ∈ db.capabilities, db.isOrphan row = true ∧ id = row.id) db result)
    (h : db.Embedded embedding) : result.Embedded embedding where
  index := hretired.follows h.index
  texts row hrow fts hfts hid :=
    h.texts row ((hretired.capabilities row).mp hrow).1 fts ((hretired.fts fts).mp hfts).1 hid
  fresh := Derivation.Fresh.mono h.fresh (fun fts hfts => ((hretired.fts fts).mp hfts).1)
    hretired.vectors

/-- The main transaction of an ingest keeps the vectors fresh. -/
theorem ingest_embedded
    (hembeds : ∀ n text answer, input.embed n text = some answer → answer = embedding text)
    (hkeeps : ∀ planned, plan p input db.capabilities = .ok planned →
      PlanKeeps p input (.start (quarantineNewCapabilities p db input).1) planned)
    (h : db.Embedded embedding) : (ingest p db input).1.Embedded embedding := by
  cases hingest : ingest p db input with
  | mk result outcome =>
      cases outcome with
      | error failure => exact (ingest_error hingest).embedded h
      | ok changes =>
          obtain ⟨held, counts, planned, final, removed, hheld, hadded, hplan, hindex, hdelete, -⟩ :=
            ingest_ok hingest
          have hkept := hkeeps planned hplan
          rw [hheld] at hkept
          exact (delete_source_orphaned_ok hdelete).embedded (index_all_embedded
            (plan_ok hplan).filed hembeds hkept (hadded.embedded h) hindex)

/-- The vectors after the self-heal: those before it, and the answers for the missing ones. -/
theorem mem_heal_loop {n : Nat} {vectors : Table VectorRow} {missing : List (Nat × String)}
    {vector : VectorRow} (h : vector ∈ (healLoop embed n vectors missing).1) :
    vector ∈ vectors ∨ ∃ entry ∈ missing, entry.1 = vector.rowid ∧
      ∃ m, embed m entry.2 = some vector.embedding := by
  induction missing generalizing n vectors with
  | nil => exact .inl h
  | cons entry missing ih =>
      rcases ih h with hvector | ⟨other, hother, hanswer⟩
      · rcases mem_upsert_vector hvector with ⟨hvector, -⟩ | ⟨howner, hanswer⟩
        · exact .inl hvector
        · exact .inr ⟨entry, List.mem_cons_self, howner.symm, n, hanswer⟩
      · exact .inr ⟨other, List.mem_cons_of_mem entry hother, hanswer⟩

/-- The self-heal embeds texts that stand. -/
theorem heal_vectors_embedded
    (heals : ∀ n text answer, embed n text = some answer → answer = embedding text)
    (h : db.Embedded embedding) : (healVectors embed db).1.Embedded embedding := by
  unfold healVectors
  split
  · refine ⟨h.index.congr rfl rfl rfl, h.texts, Derivation.Fresh.fill h.fresh
      (fun a ha b hb hid => Table.eq_of_conflict ha hb hid) fun vector hvector => ?_⟩
    rcases mem_heal_loop hvector with hvector | ⟨entry, hentry, howner, n, hanswer⟩
    · exact .inl hvector
    obtain ⟨row, hrow, hentry⟩ := List.mem_flatMap.mp hentry
    split at hentry
    · cases hentry
    obtain ⟨fts, hfts, rfl⟩ := List.mem_map.mp hentry
    obtain ⟨hfts, hid⟩ := List.mem_filter.mp hfts
    exact .inr ⟨fts, hfts, (of_decide_eq_true hid).trans howner, heals n _ _ hanswer⟩
  · exact h

/-- Deleting the vectors without a capability leaves no other vector. -/
theorem drop_orphans_embedded (h : db.Embedded embedding) : (dropOrphans db).Embedded embedding :=
  ⟨h.index.congr rfl rfl rfl, h.texts, Derivation.Fresh.mono h.fresh (fun _ hfts => hfts)
    fun vector hvector => ((Table.mem_filter vector).mp hvector).1⟩

/-- A connection without a stale vector, committed and in its working copy. -/
structure EmbeddedOn (embedding : String → String) (con : Connection Mesh) : Prop where
  committed : con.committed.registry.db.Embedded embedding
  working : con.working.registry.db.Embedded embedding

theorem EmbeddedOn.repair {con : Connection Mesh}
    (heals : ∀ n text answer, embed n text = some answer → answer = embedding text)
    (h : EmbeddedOn embedding con) : EmbeddedOn embedding (repairVectors embed con) := by
  have hdropped : EmbeddedOn embedding (con.write (·.onCatalog dropOrphans)) :=
    ⟨h.committed, drop_orphans_embedded h.working⟩
  have hcommit : ∀ con : Connection Mesh, EmbeddedOn embedding con →
      EmbeddedOn embedding con.commit := fun con h => ⟨h.working, h.working⟩
  have hheal : ∀ con : Connection Mesh, EmbeddedOn embedding con → EmbeddedOn embedding
      (con.write (·.onCatalog fun db => (healVectors embed db).1)) :=
    fun con h => ⟨h.committed, heal_vectors_embedded heals h.working⟩
  unfold repairVectors
  dsimp only
  split <;> split
  · exact hheal _ hdropped
  · exact hcommit _ (hheal _ hdropped)
  · exact hheal _ (hcommit _ hdropped)
  · exact hcommit _ (hheal _ (hcommit _ hdropped))

/-- The passes after the main transaction keep the vectors fresh. -/
theorem post_ingest_embedded {start mesh : Mesh} {post : PostIngest start}
    (heals : ∀ n text answer, post.embed n text = some answer → answer = embedding text)
    (h : mesh.registry.db.Embedded embedding) :
    (postIngest input post mesh).1.registry.db.Embedded embedding := by
  unfold postIngest
  dsimp only
  have hscanned : (scanPass p post.fs post.scanIds.draw post.now input.batch.capabilities
      (.settled mesh)).1.working.registry = mesh.registry := scan_pass_registry ..
  have htracked : EmbeddedOn embedding (trackPass post.dependencyIds.draw
      (declaredEdges p input.batch.capabilities) (scanPass p post.fs post.scanIds.draw post.now
        input.batch.capabilities (.settled mesh)).1) := by
    obtain ⟨hcommitted, hworking⟩ := track_pass_stands post.dependencyIds.draw
      (declaredEdges p input.batch.capabilities) (scanPass p post.fs post.scanIds.draw post.now
        input.batch.capabilities (.settled mesh)).1
    rw [hscanned] at hcommitted hworking
    exact ⟨by rw [hcommitted.1]; exact h, by rw [hworking.1]; exact h⟩
  split
  · exact (htracked.repair heals).committed
  · exact htracked.committed

/-- An ingest that writes no text without embedding it, unless it needs no new vector, leaves no
stale vector. -/
theorem refresh_step_embedded {mesh : Mesh} {call : RefreshCall p embedding}
    (hkeeps : call.Keeps mesh) (h : mesh.registry.db.Embedded embedding) :
    (refreshStep p embedding mesh call).registry.db.Embedded embedding := by
  unfold refreshStep
  cases hinit : initDb p call.builtins mesh.registry.db with
  | error failure => exact h
  | ok db =>
      unfold initDb at hinit
      obtain ⟨⟨changed, normalized⟩, hnormalize, hupsert⟩ := bind_eq_ok hinit
      obtain ⟨hbuiltins, hplans⟩ := hkeeps changed normalized hnormalize
      have hopened : db.Embedded embedding := upsert_builtins_embedded
        (normalize_existing_keeps normalize_row_embedded h hnormalize) hbuiltins hupsert
      dsimp only
      cases hdiscover : call.discover db with
      | error failure => exact hopened
      | ok input =>
          have hingested : (ingest p db input).1.Embedded embedding :=
            ingest_embedded (call.embeds db input hdiscover)
              (fun planned => hplans db input planned hupsert hdiscover) hopened
          dsimp only
          unfold ingestIndex
          dsimp only [Mesh.onCatalog]
          split
          · exact hingested
          · exact post_ingest_embedded (call.heals _) hingested

/-- Over every run of ingests that write no text without embedding it, unless the text needs no new
vector, no state reached has a stale vector. -/
theorem vectors_current {start : Mesh} {calls : List (RefreshCall p embedding)}
    (hstart : start.registry.db.Embedded embedding)
    (hkeeps : Along (refreshStep p embedding) (fun mesh call => call.Keeps mesh) start calls) :
    ∀ first second, calls = first ++ second →
      (run (refreshStep p embedding) start first).registry.db.VectorsCurrent embedding := by
  rintro first second rfl
  have hfirst := ((along_append start first second).mp hkeeps).1
  exact Database.Embedded.current (run_invariant_along
    (I := fun mesh : Mesh => mesh.registry.db.Embedded embedding)
    (fun _ _ => refresh_step_embedded) hfirst hstart)

end

/-- Identifiers longer than the keys of some rows. -/
def longerIds {ρ : Type} (rows : List ρ) (key : ρ → String) :
    FreshIds fun id => ∃ row ∈ rows, key row = id where
  draw n := String.ofList (List.replicate (((rows.map fun row => (key row).length).sum) + 1 + n) 'f')
  injective a b hab := by
    have hlength := congrArg String.length hab
    simpa using hlength
  fresh n := by
    rintro ⟨row, hrow, hkey⟩
    have hlength := congrArg String.length hkey
    have hle : (key row).length ≤ (rows.map fun row => (key row).length).sum :=
      List.le_sum_of_mem (List.mem_map_of_mem hrow)
    simp only [String.length_ofList, List.length_replicate] at hlength
    omega

/-- An ingest of the notes skill under a title, by a backend that embeds every text as itself. -/
def titledIngest (title contentHash : String) (h : contentHash ≠ "") (vectorEnabled : Bool) :
    RefreshCall .sample id where
  builtins := [systemHelp]
  discover _ := .ok
    { batch := .single { notesSkill contentHash with title } ⟨rfl, h, by simp [notesSkill]⟩
        (Capability.unlisted rfl)
      placement := [], vectorEnabled, embed := fun _ text => some text
      ids := fun n => "qtn_" ++ contentHash ++ "_" ++ toString n }
  post mesh :=
    { fs := fun _ => .regular [], now := "2026-01-01T00:00:00Z"
      scanIds := longerIds mesh.scanTable.rows (·.id)
      dependencyIds := longerIds mesh.registry.dependencyTable.rows (·.id)
      embed := fun _ text => some text }
  embeds _ _ hdiscover _ _ _ hanswer := by
    cases hdiscover
    exact (Option.some.inj hanswer).symm
  heals _ _ _ _ hanswer := (Option.some.inj hanswer).symm

/-- The skill is ingested, retitled by an ingest without vectors, and ingested once more. -/
def retitledCalls : List (RefreshCall .sample id) :=
  [titledIngest "Notes" "sha256:v1" first_hash_ne true,
    titledIngest "Minutes" "sha256:v2" (by decide) false,
    titledIngest "Minutes" "sha256:v2" (by decide) true]

/-- The ingest without vectors writes the new text alone. The next one finds the text unchanged, and
keeps the vector of the old title. -/
theorem vectors_current_counterexample :
    ¬ ∀ (p : Platform) (embedding : String → String) (start : Mesh)
      (calls : List (RefreshCall p embedding)), start.registry.db.Embedded embedding →
        ∀ first second, calls = first ++ second →
          (run (refreshStep p embedding) start first).registry.db.VectorsCurrent embedding := by
  intro hclaim
  have hcurrent := hclaim .sample id bareMesh retitledCalls empty_embedded retitledCalls []
    (List.append_nil _).symm
  have hstale : ¬ (run (refreshStep .sample id) bareMesh retitledCalls
      ).registry.db.VectorsCurrent id := by decide +kernel
  exact hstale hcurrent

theorem titled_ingest_keeps {mesh : Mesh} {title contentHash : String} (h : contentHash ≠ "")
    (hbuiltin : (normalizeExistingCapabilityNamespaces .sample mesh.registry.db).toOption.all
      (fun normalized => normalized.2.KeepsVector (normalized.2.capabilityAt
        (applyDefaultUserNamespace .sample systemHelp).uri) systemHelp.indexText) = true) :
    (titledIngest title contentHash h true).Keeps mesh := by
  intro changed normalized hnormalize
  rw [hnormalize] at hbuiltin
  refine ⟨⟨of_decide_eq_true hbuiltin, fun _ _ _ => trivial⟩, ?_⟩
  intro db input planned hupsert hdiscover hplan
  cases hdiscover
  obtain ⟨e, rfl⟩ : ∃ e, planned = [e] :=
    ⟨_, Except.ok.inj (hplan.symm.trans (merge_by_effective_uri_singleton _))⟩
  exact ⟨.inl rfl, fun _ _ => trivial⟩

/-- The skill is retitled by an ingest with vectors. -/
theorem vectors_current_retitled :
    (run (refreshStep .sample id) bareMesh [titledIngest "Notes" "sha256:v1" (by decide) true,
      titledIngest "Minutes" "sha256:v2" (by decide) true]).registry.db.VectorsCurrent id ∧
    (run (refreshStep .sample id) bareMesh [titledIngest "Notes" "sha256:v1" (by decide) true,
      titledIngest "Minutes" "sha256:v2" (by decide) true]
      ).registry.db.vectors.rows.length = 2 := by
  have hkeeps : Along (refreshStep .sample id) (fun mesh call => call.Keeps mesh) bareMesh
      [titledIngest "Notes" "sha256:v1" (by decide) true,
        titledIngest "Minutes" "sha256:v2" (by decide) true] :=
    ⟨titled_ingest_keeps _ (by decide +kernel), titled_ingest_keeps _ (by decide +kernel), trivial⟩
  exact ⟨vectors_current empty_embedded hkeeps _ [] (List.append_nil _).symm, by decide +kernel⟩

end Capmesh
