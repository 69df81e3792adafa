import Capmesh.Index.Serving

/-!
# Looking a capability up by name

A text that is no URI is looked up among names and titles. The query takes one row, and only then is
that row's hold looked at, where lists and searches pass over each held row. `lookup_by_name_iff`
says for which databases a name still finds what is not held.
-/

namespace Capmesh

open Python Relational

/-- `name = ? OR title = ?`. -/
def CapabilityRow.Named (row : CapabilityRow) (text : String) : Prop :=
  row.cap.name = text ∨ row.cap.title = text

instance (row : CapabilityRow) (text : String) : Decidable (row.Named text) :=
  inferInstanceAs (Decidable (_ ∨ _))

/-- The rows of that name in the order of the query: those of `asg-os.plugins` come first. -/
def Database.namedRows (db : Database) (text : String) : List CapabilityRow :=
  let named := db.capabilities.rows.filter (·.Named text)
  named.filter (·.cap.sourceSystem = "asg-os.plugins") ++
    named.filter (·.cap.sourceSystem ≠ "asg-os.plugins")

variable {db : Database} {text : String} {row : CapabilityRow}

theorem mem_named_rows : row ∈ db.namedRows text ↔ row ∈ db.capabilities ∧ row.Named text := by
  have hmem : row ∈ db.capabilities.rows ↔ row ∈ db.capabilities := Iff.rfl
  simp only [Database.namedRows, List.mem_append, List.mem_filter, decide_eq_true_eq, hmem]
  by_cases hplugins : row.cap.sourceSystem = "asg-os.plugins" <;> simp [hplugins]

theorem lookup_by_name (huri : db.capabilityAt text = none) :
    db.lookup text = (db.namedRows text).head? := by
  have hnamed : (db.capabilities.rows.filter fun row =>
      row.cap.name = text || row.cap.title = text) = db.capabilities.rows.filter (·.Named text) :=
    List.filter_congr fun row _ => (Bool.decide_or _ _).symm
  simp only [Database.lookup, huri, hnamed, Database.namedRows, List.head?_append]
  generalize db.capabilities.rows.filter (·.Named text) = named
  have hfirst : (named.filter (·.cap.sourceSystem = "asg-os.plugins")).head? =
      named.find? (·.cap.sourceSystem = "asg-os.plugins") := List.head?_filter
  rw [hfirst]
  cases hfind : named.find? (·.cap.sourceSystem = "asg-os.plugins") with
  | some row => rfl
  | none =>
      have hothers : ∀ row ∈ named, decide (row.cap.sourceSystem ≠ "asg-os.plugins") = true := by
        intro row hrow
        simpa using List.find?_eq_none.mp hfind row hrow
      rw [List.filter_eq_self.mpr hothers]
      rfl

theorem get_by_name_iff (huri : db.capabilityAt text = none) :
    getCapability db text ≠ none ↔
      ∃ row ∈ (db.namedRows text).head?, capguardIsHeld db.quarantine row.cap = false := by
  simp only [getCapability, lookup_by_name huri]
  cases (db.namedRows text).head? with
  | none => simp
  | some row => cases hheld : capguardIsHeld db.quarantine row.cap <;> simp [hheld]

/-- **Lookup by name.** A name that some row has which is not held finds a capability exactly when
the row that comes first is not held, unless all rows of that name are. -/
theorem lookup_by_name_iff (huri : db.capabilityAt text = none) :
    ((∃ row ∈ db.capabilities, row.Named text ∧ capguardIsHeld db.quarantine row.cap = false) →
      getCapability db text ≠ none) ↔
    ∀ first ∈ (db.namedRows text).head?, capguardIsHeld db.quarantine first.cap = true →
      ∀ row ∈ db.namedRows text, capguardIsHeld db.quarantine row.cap = true := by
  rw [get_by_name_iff huri]
  constructor
  · intro hfound first hfirst hheld row hrow
    by_contra hfree
    obtain ⟨hmem, hnamed⟩ := mem_named_rows.mp hrow
    obtain ⟨served, hserved, hopen⟩ := hfound ⟨row, hmem, hnamed, by simpa using hfree⟩
    rw [Option.mem_unique hserved hfirst, hheld] at hopen
    cases hopen
  · intro hshadows ⟨row, hmem, hnamed, hfree⟩
    have hrow : row ∈ db.namedRows text := mem_named_rows.mpr ⟨hmem, hnamed⟩
    cases hrows : db.namedRows text with
    | nil => simp [hrows] at hrow
    | cons first rest =>
        refine ⟨first, by simp, Bool.eq_false_iff.mpr fun hheld => ?_⟩
        rw [hshadows first (by simp [hrows]) hheld row hrow] at hfree
        cases hfree

/-- A hold on some content of a capability. -/
def holdOf (cap : Capability) : QuarantineRow where
  id := "qg_1"
  tenantId := cap.tenantId
  capabilityUri := cap.uri
  capabilityType := cap.capabilityType
  name := cap.name
  version := cap.version
  sourcePath := cap.sourcePath
  contentHash := cap.contentHash
  reason := .scanFailed
  status := .quarantined
  submittedBy := none
  metadata := []

/-- Another skill of the same name, from a folder of a user. -/
def localNotes : Capability :=
  { notesSkill "sha256:v2" with
    uri := "cap://user.local/skill/alice.notes@0-1-0", canonicalKey := "skill:alice:notes:0-1-0"
    sourceSystem := "local" }

/-- The skill of the plugins is held, the other one is not. -/
def heldPluginNotes : Database :=
  { Database.empty with
    capabilities := ⟨[⟨1, notesSkill "sha256:v1"⟩, ⟨2, localNotes⟩], by decide⟩
    quarantine := ⟨[holdOf (notesSkill "sha256:v1")], by decide⟩ }

/-- The held row hides the other row of its name. -/
theorem lookup_by_name_counterexample :
    ¬ ∀ (db : Database) (text : String), db.capabilityAt text = none →
      (∃ row ∈ db.capabilities, row.Named text ∧ capguardIsHeld db.quarantine row.cap = false) →
      getCapability db text ≠ none := by
  intro hclaim
  refine hclaim heldPluginNotes "notes" (by decide) ⟨⟨2, localNotes⟩, ?_, ?_, ?_⟩ ?_
  · exact List.mem_cons_of_mem _ (List.mem_singleton.mpr rfl)
  · decide
  · decide
  · decide

theorem lookup_by_name_notes :
    ((∃ row ∈ heldPluginNotes.capabilities, row.Named "notes" ∧
        capguardIsHeld heldPluginNotes.quarantine row.cap = false) →
      getCapability heldPluginNotes "notes" ≠ none) ↔
    ∀ first ∈ (heldPluginNotes.namedRows "notes").head?,
      capguardIsHeld heldPluginNotes.quarantine first.cap = true →
      ∀ row ∈ heldPluginNotes.namedRows "notes",
        capguardIsHeld heldPluginNotes.quarantine row.cap = true :=
  lookup_by_name_iff (by decide)

end Capmesh
