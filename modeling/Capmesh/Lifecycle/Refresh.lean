import Capmesh.Governance.Trust
import Capmesh.Registry.Records

/-!
# Decisions and the next refresh

`lifecycle_transitions.py`, and what an upsert of the same discovered capability leaves of a
decision. With the same content a refresh keeps the approval state. It keeps the lifecycle of an
approved row, and of any other row only when the discovered lifecycle is the stored one or cannot
be reached from it by the table of operator moves.
-/

namespace Capmesh

open Python Relational

/-- The text of a lifecycle. -/
def Lifecycle.text : Lifecycle → String
  | .draft => "draft"
  | .active => "active"
  | .published => "published"
  | .deprecated => "deprecated"
  | .retired => "retired"
  | .disabled => "disabled"
  | .deleted => "deleted"
  | .recalled => "recalled"
  | .yanked => "yanked"
  | .other text => text

/-- `CAPABILITY_LIFECYCLE_STATES`. -/
def capabilityLifecycleStates : List Lifecycle :=
  [.draft, .active, .deprecated, .retired, .published, .disabled, .deleted, .recalled, .yanked]

/-- The arguments of `transition_capability`. -/
structure TransitionCall where
  uri : String
  targetLifecycle : Lifecycle
  actor : String
  tenantId : String := "asg"
  reason : String := ""

/-- `transition_capability`, with the audit event it inserts. -/
def transitionCapability (db : Database) (call : TransitionCall) :
    Except Failure (Database × AuditEvent) :=
  if !capabilityLifecycleStates.contains call.targetLifecycle then
    .error (.value ("Invalid lifecycle state: " ++ call.targetLifecycle.text))
  else match db.capabilities.find? fun row =>
      row.cap.uri = call.uri && row.cap.tenantId = call.tenantId with
    | none => .error (.value ("Capability not found: " ++ call.uri))
    | some row =>
        if !isValidTransition row.cap.lifecycle call.targetLifecycle then
          .error (.value ("Invalid transition: " ++ row.cap.lifecycle.text ++ " -> " ++
            call.targetLifecycle.text))
        else
          .ok (db.amendCapabilities (·.uri = call.uri)
              (fun cap => { cap with lifecycle := call.targetLifecycle })
              fun _ => ⟨rfl, rfl, rfl, rfl⟩,
            ⟨call.tenantId, "capability.lifecycle.transition", call.actor, call.uri, "transition"⟩)

/-- A decision on a capability. -/
inductive DecisionCall where
  | release (id : String) (request : ReleaseRequest) (draw : Draw)
  | reject (id tenant actor reason : String) (persist : Bool) (draw : Draw)
  | review (call : ReviewCall)
  | approve (call : ApproveCall)
  | transition (call : TransitionCall)

/-- What a decision leaves; a refused one leaves the host as it is. -/
def decisionStep (p : Platform) (crypto : Crypto) (host : Host) : DecisionCall → Host
  | .release id request draw => guardStep p crypto host (.release id request draw)
  | .reject id tenant actor reason persist draw =>
      guardStep p crypto host (.reject id tenant actor reason persist draw)
  | .review call => trustStep p crypto host (.review call)
  | .approve call => trustStep p crypto host (.approve call)
  | .transition call =>
      match transitionCapability host.db call with
      | .ok (db, _) => { host with db }
      | .error _ => host

/-- An upsert of a discovered capability; a refused one leaves the catalog as it is. -/
def refresh (p : Platform) (cap : Capability) (db : Database) : Database :=
  match upsertCapability p db cap with
  | .ok (_, result) => result
  | .error _ => db

/-- A capability is discovered again as the row has it: at its URI, with its content. -/
structure Rediscovers (p : Platform) (cap row : Capability) : Prop where
  uri : (applyDefaultUserNamespace p cap).uri = row.uri
  contentHash : cap.contentHash = row.contentHash

/-- The row with an id keeps its lifecycle and its approval state. -/
def KeepsDecision (db : Database) (row : CapabilityRow) : Prop :=
  ∃ kept ∈ db.capabilities, kept.id = row.id ∧ kept.cap.lifecycle = row.cap.lifecycle ∧
    kept.cap.approvalState = row.cap.approvalState

/-- The row with an id keeps, with its decision, the URI and the content it was decided on. -/
def KeepsRow (db : Database) (row : CapabilityRow) : Prop :=
  ∃ kept ∈ db.capabilities, kept.id = row.id ∧ kept.cap.uri = row.cap.uri ∧
    kept.cap.contentHash = row.cap.contentHash ∧ kept.cap.lifecycle = row.cap.lifecycle ∧
    kept.cap.approvalState = row.cap.approvalState

/-- Any number of refreshes leave the row as it was decided. -/
def SurvivesRefresh (p : Platform) (cap : Capability) (db : Database) (row : CapabilityRow) :
    Prop :=
  ∀ n, KeepsDecision (Nat.iterate (refresh p cap) n db) row

/-- A row whose lifecycle a refresh keeps: it is approved, or the lifecycle of the discovered
capability is its own or out of its reach. -/
def KeptByRefresh (p : Platform) (cap row : Capability) : Prop :=
  row.approvalState = .approved ∨
    row.lifecycle = (applyDefaultUserNamespace p cap).lifecycle ∨
    isValidTransition row.lifecycle (applyDefaultUserNamespace p cap).lifecycle = false

instance (p : Platform) (cap row : Capability) : Decidable (KeptByRefresh p cap row) :=
  inferInstanceAs (Decidable (_ ∨ _ ∨ _))

/-- The rows a decision leaves, system capabilities aside, survive every number of refreshes. -/
def DecisionSurvives (p : Platform) (crypto : Crypto) (host : Host) (call : DecisionCall) : Prop :=
  ∀ row ∈ (decisionStep p crypto host call).db.capabilities, row.cap.isSystem = false →
    ∀ cap, Rediscovers p cap row.cap →
      SurvivesRefresh p cap (decisionStep p crypto host call).db row

section

variable {p : Platform} {crypto : Crypto} {db result : Database} {cap : Capability}
variable {row : CapabilityRow} {id : Nat}

theorem refreshed_row (hrow : row ∈ db.capabilities) (hcap : Rediscovers p cap row.cap)
    (h : upsertCapability p db cap = .ok (id, result)) :
    ⟨row.id, merged row.cap (incoming p db cap).stored⟩ ∈ result.capabilities := by
  obtain ⟨table, expected, hwrite, _, _, hresult⟩ := upsert_capability_ok h
  obtain ⟨hmem, hid, _⟩ := write_row_ok hwrite
  have hat : db.capabilityAt (incoming p db cap).uri = some row := by
    rw [incoming_uri, hcap.uri]
    exact Database.capability_at_eq hrow
  rw [hresult]
  refine (hmem _).mpr (.inl ?_)
  rw [hat, hid row hat]
  rfl

theorem refreshed_approval (h : cap.contentHash = row.cap.contentHash) :
    (merged row.cap (incoming p db cap).stored).approvalState = row.cap.approvalState := by
  have hsame : row.cap.contentHash = (incoming p db cap).stored.contentHash :=
    h.symm.trans (incoming_source p db _).2.1.symm
  simp [merged, mergeState, hsame]

/-- With the same content a refresh keeps the lifecycle exactly where the rule says so. -/
theorem refreshed_lifecycle_iff (hrow : row ∈ db.capabilities)
    (hcap : Rediscovers p cap row.cap) :
    (merged row.cap (incoming p db cap).stored).lifecycle = row.cap.lifecycle ↔
      KeptByRefresh p cap row.cap := by
  have hsame : row.cap.contentHash = (incoming p db cap).stored.contentHash :=
    hcap.contentHash.symm.trans (incoming_source p db _).2.1.symm
  have hat : db.capabilityAt (applyDefaultUserNamespace p cap).uri = some row := by
    rw [hcap.uri]
    exact Database.capability_at_eq hrow
  have hhash : row.cap.contentHash = (applyDefaultUserNamespace p cap).contentHash :=
    hcap.contentHash.symm.trans (apply_default_source cap).2.1.symm
  have hlifecycle : (incoming p db cap).stored.lifecycle =
      if row.cap.lifecycle ≠ (applyDefaultUserNamespace p cap).lifecycle ∧
          isValidTransition row.cap.lifecycle (applyDefaultUserNamespace p cap).lifecycle = false
      then row.cap.lifecycle else (applyDefaultUserNamespace p cap).lifecycle := by
    show (incoming p db cap).lifecycle = _
    unfold incoming clampLifecycle
    dsimp only
    rw [hat]
    simp only [hhash, decide_true, Bool.and_true, Bool.and_eq_true, decide_eq_true_eq,
      Bool.not_eq_true']
    split <;> rfl
  have hmerged : (merged row.cap (incoming p db cap).stored).lifecycle =
      if row.cap.approvalState = .approved then row.cap.lifecycle
      else (incoming p db cap).stored.lifecycle := by
    simp [merged, hsame]
  rw [hmerged, hlifecycle]
  unfold KeptByRefresh
  by_cases happroved : row.cap.approvalState = .approved
  · simp [happroved]
  · by_cases hequal : row.cap.lifecycle = (applyDefaultUserNamespace p cap).lifecycle
    · simp [hequal]
    · cases hvalid : isValidTransition row.cap.lifecycle
          (applyDefaultUserNamespace p cap).lifecycle with
      | true => simp [happroved, hequal, Ne.symm hequal]
      | false => simp [happroved, hequal]

theorem refresh_keeps_row (hcap : Rediscovers p cap row.cap) (hkept : KeptByRefresh p cap row.cap)
    (h : KeepsRow db row) : KeepsRow (refresh p cap db) row := by
  unfold refresh
  split
  · next id result hupsert =>
    obtain ⟨kept, hmem, hid, huri, hhash, hlifecycle, happroval⟩ := h
    have hagain : Rediscovers p cap kept.cap :=
      ⟨hcap.uri.trans huri.symm, hcap.contentHash.trans hhash.symm⟩
    have hrule : KeptByRefresh p cap kept.cap := by
      unfold KeptByRefresh
      rw [hlifecycle, happroval]
      exact hkept
    have hnew := refreshed_row hmem hagain hupsert
    refine ⟨_, hnew, hid, ?_, ?_, ?_, ?_⟩
    · exact (incoming_uri p db cap).trans hcap.uri
    · exact (incoming_source p db _).2.1.trans hcap.contentHash
    · exact ((refreshed_lifecycle_iff hmem hagain).mpr hrule).trans hlifecycle
    · exact (refreshed_approval hagain.contentHash).trans happroval
  · exact h

/-- The decision survives every number of refreshes exactly when it survives the first. -/
theorem survives_refresh_iff (hrow : row ∈ db.capabilities) (hcap : Rediscovers p cap row.cap)
    (hfirst : ∃ outcome, upsertCapability p db cap = .ok outcome) :
    SurvivesRefresh p cap db row ↔ KeptByRefresh p cap row.cap := by
  refine ⟨?_, ?_⟩
  · intro hsurvives
    obtain ⟨⟨id, result⟩, hupsert⟩ := hfirst
    obtain ⟨kept, hmem, hid, hlifecycle, _⟩ := hsurvives 1
    have hrefresh : Nat.iterate (refresh p cap) 1 db = result := by
      show refresh p cap db = result
      unfold refresh
      rw [hupsert]
    rw [hrefresh] at hmem
    have hnew := refreshed_row hrow hcap hupsert
    have hsame := Database.eq_of_id hmem hnew hid
    rw [hsame] at hlifecycle
    exact (refreshed_lifecycle_iff hrow hcap).mp hlifecycle
  · intro hkept n
    have hrows : KeepsRow (Nat.iterate (refresh p cap) n db) row := by
      induction n with
      | zero => exact ⟨row, hrow, rfl, rfl, rfl, rfl, rfl⟩
      | succ n ih =>
        rw [Function.iterate_succ_apply']
        exact refresh_keeps_row hcap hkept ih
    obtain ⟨kept, hmem, hid, _, _, hlifecycle, happroval⟩ := hrows
    exact ⟨kept, hmem, hid, hlifecycle, happroval⟩

theorem survives_refused (hrow : row ∈ db.capabilities)
    (h : ¬ ∃ outcome, upsertCapability p db cap = .ok outcome) : SurvivesRefresh p cap db row := by
  have hsame : refresh p cap db = db := by
    unfold refresh
    split
    · next id result hupsert => exact absurd ⟨_, hupsert⟩ h
    · rfl
  intro n
  rw [Function.iterate_fixed hsame n]
  exact ⟨row, hrow, rfl, rfl, rfl⟩

/-- **Decisions and refreshes.** After a decision a row keeps its lifecycle and its approval state
through any number of upserts of the same discovered capability exactly when the upsert is refused,
the row is approved, or the lifecycle that discovery brings is the stored one or cannot be reached
from it. -/
theorem decision_survives_iff (p : Platform) (crypto : Crypto) (host : Host)
    (call : DecisionCall) :
    ∀ row ∈ (decisionStep p crypto host call).db.capabilities, row.cap.isSystem = false →
      ∀ cap, Rediscovers p cap row.cap →
        (SurvivesRefresh p cap (decisionStep p crypto host call).db row ↔
          ((∃ outcome, upsertCapability p (decisionStep p crypto host call).db cap =
              .ok outcome) → KeptByRefresh p cap row.cap)) := by
  intro row hrow _ cap hcap
  constructor
  · exact fun hsurvives hgoes => (survives_refresh_iff hrow hcap hgoes).mp hsurvives
  · intro hkept
    by_cases hgoes : ∃ outcome,
        upsertCapability p (decisionStep p crypto host call).db cap = .ok outcome
    · exact (survives_refresh_iff hrow hcap hgoes).mpr (hkept hgoes)
    · exact survives_refused hrow hgoes

end

/-- A catalog that ingested one capability, holds it, and has a clean scan of it. -/
def scannedHost (cap : Capability) : Host :=
  let uri := (applyDefaultUserNamespace .sample cap).uri
  Execution.run (trustStep .sample .transparent) emptyHost
    [.upsert { cap with lifecycle := .draft, approvalState := .pending },
      .guard (.quarantine
        { tenantId := "asg", capabilityUri := uri, capabilityType := .skill, name := cap.name
          version := cap.version, sourcePath := cap.sourcePath, contentHash := cap.contentHash }
        "qtn_1"),
      .guard (.scan "qtn_1" "asg" ⟨some true, none, [], some 0, some 0, none, none⟩
        "capmesh-malware_scan" none true ⟨"now", "att_1", ""⟩)]

/-- The skill as its manifest files it under the organisation. -/
def orgNotes : Capability :=
  { notesSkill "sha256:v1" with uri := "cap://org/asg/asg/shared/skill/notes.notes@0.1.0" }

/-- The release of the held skill. -/
def releasedNotes : DecisionCall :=
  .release "qtn_1" { tenantId := "asg", actor := "op@asg" } ⟨"now", "att_2", ""⟩

/-- The rejection of the held skill. -/
def rejectedNotes : DecisionCall := .reject "qtn_1" "asg" "op@asg" "unsafe" true ⟨"now", "att_2", ""⟩

/-- The released skill of an organisation keeps its lifecycle. -/
theorem decision_survives_iff_org : ∃ row ∈ (decisionStep .sample .transparent (scannedHost orgNotes)
      releasedNotes).db.capabilities, row.cap.approvalState = .published ∧
    SurvivesRefresh .sample orgNotes
      (decisionStep .sample .transparent (scannedHost orgNotes) releasedNotes).db row := by
  have hreleased : ((decisionStep .sample .transparent (scannedHost orgNotes)
      releasedNotes).db.capabilities.rows.any fun row =>
        row.cap.approvalState = .published && !row.cap.isSystem &&
          (applyDefaultUserNamespace .sample orgNotes).uri = row.cap.uri &&
          orgNotes.contentHash = row.cap.contentHash &&
          decide (KeptByRefresh .sample orgNotes row.cap)) = true := by decide +kernel
  obtain ⟨row, hrow, hholds⟩ := List.any_eq_true.mp hreleased
  simp only [Bool.and_eq_true, decide_eq_true_eq, Bool.not_eq_true'] at hholds
  obtain ⟨⟨⟨⟨hstate, hordinary⟩, huri⟩, hhash⟩, hkept⟩ := hholds
  exact ⟨row, hrow, hstate, (decision_survives_iff .sample .transparent (scannedHost orgNotes)
    releasedNotes row hrow hordinary orgNotes ⟨huri, hhash⟩).mpr fun _ => hkept⟩

/-- Whether an upsert goes through and undoes the decision on some row. -/
def undoes (cap : Capability) (db : Database) : Bool :=
  (upsertCapability .sample db cap).toOption.isSome && db.capabilities.rows.any fun row =>
    row.cap.isSystem = false && (applyDefaultUserNamespace .sample cap).uri = row.cap.uri &&
      cap.contentHash = row.cap.contentHash && !decide (KeptByRefresh .sample cap row.cap)

theorem not_survives_of_undoes {cap : Capability} {host : Host} {call : DecisionCall}
    (h : undoes cap (decisionStep .sample .transparent host call).db = true) :
    ¬ DecisionSurvives .sample .transparent host call := by
  intro hclaim
  obtain ⟨hgoes, hany⟩ := (Bool.and_eq_true _ _).mp h
  obtain ⟨row, hrow, hholds⟩ := List.any_eq_true.mp hany
  simp only [Bool.and_eq_true, decide_eq_true_eq, Bool.not_eq_true', decide_eq_false_iff_not]
    at hholds
  obtain ⟨⟨⟨hordinary, huri⟩, hhash⟩, hundone⟩ := hholds
  have hfirst : ∃ outcome, upsertCapability .sample
      (decisionStep .sample .transparent host call).db cap = .ok outcome := by
    cases hupsert : upsertCapability .sample
        (decisionStep .sample .transparent host call).db cap with
    | error failure =>
      rw [hupsert] at hgoes
      cases hgoes
    | ok outcome => exact ⟨outcome, rfl⟩
  have hsurvives := hclaim row hrow hordinary cap ⟨huri, hhash⟩
  exact hundone ((survives_refresh_iff hrow ⟨huri, hhash⟩ hfirst).mp hsurvives)

/-- The release of a skill and the rejection of an organisation's skill: the next refresh makes a
draft of the first and activates the second. -/
theorem decision_survives_counterexample :
    ¬ DecisionSurvives .sample .transparent (scannedHost (notesSkill "sha256:v1")) releasedNotes ∧
      ¬ DecisionSurvives .sample .transparent (scannedHost orgNotes) rejectedNotes := by
  have hreleased : undoes (notesSkill "sha256:v1") (decisionStep .sample .transparent
      (scannedHost (notesSkill "sha256:v1")) releasedNotes).db = true := by decide +kernel
  have hrejected : undoes orgNotes (decisionStep .sample .transparent
      (scannedHost orgNotes) rejectedNotes).db = true := by decide +kernel
  exact ⟨not_survives_of_undoes hreleased, not_survives_of_undoes hrejected⟩

end Capmesh
