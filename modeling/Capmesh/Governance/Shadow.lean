import Capmesh.Execution.Shadow
import Capmesh.Index.Staging

/-!
# Promotion of a shadow database

`promote_shadow_database` of `index.py` puts a staged candidate in the place of the live
database, and `assign_role` of `roles_orgs.py` is the one governance operation the other
modules do not have. The candidate is a copy from the time of its staging, and the promotion
looks at nothing but the candidate, so what is written to the live database in between is
lost. `promotion_keeps_effects` says which runs lose nothing: every promotion is of a
candidate that no governance operation came after, and every staging writes the decisions
again that were taken so far.
-/

namespace Capmesh

open Python Relational Execution

/-- The arguments of `assign_role`, the decision it asks for, and the ids it draws. -/
structure RoleCall where
  principal : Principal
  role : String
  subjectType : String := ""
  subjectId : String := ""
  scopeType : String := ""
  scopeId : String := ""
  source : String := ""
  relationshipObject : String := ""
  expiresAt : Option String := none
  access : Access
  assignmentId : String
  tupleId : String

/-- The row of a role assignment. -/
def RoleCall.row (p : Platform) (call : RoleCall) : RoleAssignment :=
  let tenant := p.tenantOr call.principal.tenantId
  { id := call.assignmentId
    tenantId := tenant
    subjectType := orElse call.subjectType "user"
    subjectId := call.subjectId
    role := call.role
    scopeType := orElse call.scopeType "tenant"
    scopeId := orElse call.scopeId tenant
    expiresAt := call.expiresAt
    revoked := false }

/-- `assign_role`. -/
def assignRole (p : Platform) (db : Database) (call : RoleCall) : Except Failure Database :=
  let tenant := p.tenantOr call.principal.tenantId
  if !call.access.allowed then .error (.permission call.access.reason)
  else if (roleRights call.role).isEmpty then .error (.value "Unsupported role.")
  else do
    let roles ← constrained "role_assignments.id" (db.roles.insert? (call.row p))
    .ok { db with
      roles
      tuples :=
        if call.relationshipObject = "" then db.tuples
        else (db.tuples.insert? ⟨call.tupleId, tenant, call.relationshipObject, call.role,
          orElse call.subjectType "user" ++ ":" ++ call.subjectId,
          orElse call.source "manual"⟩).getD db.tuples }

/-- A governance operation on the live database. -/
inductive GovernanceOperation where
  | approve (call : ApproveCall)
  | share (call : ShareCall)
  | reject (id tenant actor reason : String) (persist : Bool) (draw : Draw)
  | assign (call : RoleCall)
  | draft (call : DraftCall)

/-- What an operation commits. A refused one commits nothing, but an approval keeps the gate
states it found. -/
def GovernanceOperation.commit (p : Platform) (crypto : Crypto) (host : Host) :
    GovernanceOperation → Option Host
  | .approve call =>
      match approveRequest p host.db call with
      | (after, .ok _) => some { host with db := after }
      | (after, .error _) =>
          if after.requests.rows = host.db.requests.rows then none else some { host with db := after }
  | .share call => (createShare p host.db call).toOption.map fun db => { host with db }
  | .reject id tenant actor reason persist draw =>
      (rejectFromQuarantine p crypto host id tenant actor reason persist draw).toOption.map (·.2)
  | .assign call => (assignRole p host.db call).toOption.map fun db => { host with db }
  | .draft call => (createCapabilityDraft p host.db call).toOption.map fun db => { host with db }

/-- The columns of a capability that a governance operation decides on, at an address and for one
content. -/
structure Decision where
  uri : String
  contentHash : String
  columns : GovernanceColumns
  storeId : Option String
  namespaceId : Option String
  promotedFromUri : Option String
  deriving DecidableEq, Repr

/-- The decision a capability carries. -/
def Capability.decision (cap : Capability) : Decision :=
  ⟨cap.uri, cap.contentHash, cap.governance, cap.storeId, cap.namespaceId, cap.promotedFromUri⟩

/-- What a governance operation may bring about. -/
inductive GovernanceFact where
  | share (row : ShareRow)
  | request (row : PromotionRequest)
  | tuple (row : RelationshipTuple)
  | role (row : RoleAssignment)
  | hold (row : QuarantineRow)
  | attestation (row : AttestationRow)
  | decision (taken : Decision)
  | draft (cap : Capability)

/-- A fact that a database has. A draft is there whatever the order of its metadata. -/
def Database.Has (db : Database) : GovernanceFact → Prop
  | .share row => row ∈ db.shares
  | .request row => row ∈ db.requests
  | .tuple row => row ∈ db.tuples
  | .role row => row ∈ db.roles
  | .hold row => row ∈ db.quarantine
  | .attestation row => row ∈ db.attestations
  | .decision taken => ∃ row ∈ db.capabilities, row.cap.decision = taken
  | .draft cap => ∃ row ∈ db.capabilities, row.cap.sourceKind = "capmesh_draft" ∧
      row.cap = { cap with metadata := row.cap.metadata }

/-- The arguments of `promote_shadow_database` beside the live path, the environment, and the
processes that have the live database open. -/
structure PromoteCall where
  candidatePath : String
  workersDrained : Bool := false
  expectedSha256 : Option String := none
  environment : String := ""
  holders : List Nat := []

/-- `promote_shadow_database`: the database that takes the place of the live one. `image` gives
the bytes of a database file. -/
def promoteShadowDatabase (p : Platform) (image : Database → List UInt8) (dbPath : String)
    (candidate : Option Database) (call : PromoteCall) : Except Failure Database :=
  if !call.workersDrained then
    .error (.runtime "Atomic DB promotion requires a drained/stopped Capmesh worker pool")
  else if parentPath call.candidatePath ≠ parentPath dbPath then
    .error (.value "Candidate DB must be in the live DB directory for atomic os.replace")
  else match candidate with
    | none => .error (.os ("No such file or directory: " ++ p.repr call.candidatePath))
    | some candidate =>
        if call.expectedSha256.any (· ≠ "sha256:" ++ p.sha256 (image candidate)) then
          .error (.runtime "candidate digest no longer matches the validated staged artifact")
        else if ["production", "prod"].contains (p.lower (p.stripSpace call.environment)) &&
            call.expectedSha256.isNone then
          .error (.runtime "production promotion requires the staged candidate SHA-256")
        else if !call.holders.isEmpty then
          .error (.runtime ("live database is still open by process(es): [" ++
            join ", " (((call.holders.insertionSort (· ≤ ·)).take 10).map toString) ++ "]"))
        else do
          validateCandidateDatabase candidate true
          .ok candidate

/-- The live database with its candidates, and the signing keys. -/
structure ShadowHost where
  files : Shadowed String Database GovernanceFact
  keys : KeyStore

/-- A host that has just started. -/
def ShadowHost.start (live : Database) (keys : KeyStore) : ShadowHost := ⟨.start live, keys⟩

/-- The database file at a path. -/
def ShadowHost.fileAt (host : ShadowHost) (dbPath path : String) : Option Database :=
  if path = dbPath then some host.files.live else host.files.shadows path

/-- A call of `stage_rebuild_index`; `temporary` is the name `mkstemp` draws. A call that fails
before the candidate is opened leaves the file at its path, and a candidate at the live path
is no other file than the live database, which a later connection creates anew when it is
gone. -/
def ShadowHost.stage (p : Platform) (dbPath : String) (host : ShadowHost) (call : StageCall p)
    (temporary : String) : ShadowHost :=
  let call := { call with dbPath }
  let outcome := stageRebuild p host.files.live call
  let live := outcome.live.getD .empty
  let opens := (initDb p call.builtins.capabilities host.files.live).toOption.isSome &&
    !call.isForeign
  if opens && call.candidatePath ≠ some dbPath then
    ⟨host.files.build (call.candidatePath.getD temporary) live outcome.candidate
      (outcome.result = .ok ()), host.keys⟩
  else ⟨{ host.files with live }, host.keys⟩

/-- The steps of an interleaving. -/
inductive ShadowAction (p : Platform) where
  | operate (operation : GovernanceOperation)
  | stage (call : StageCall p) (temporary : String)
  | promote (call : PromoteCall)

/-- One step. -/
def shadowStep (p : Platform) (crypto : Crypto) (image : Database → List UInt8) (dbPath : String)
    (host : ShadowHost) : ShadowAction p → ShadowHost
  | .operate operation =>
      match operation.commit p crypto ⟨host.files.live, host.keys⟩ with
      | none => host
      | some after => ⟨host.files.write Database.Has after.db, after.keys⟩
  | .stage call temporary => host.stage p dbPath call temporary
  | .promote call =>
      match promoteShadowDatabase p image dbPath (host.fileAt dbPath call.candidatePath) call with
      | .error _ => host
      | .ok promoted =>
          if call.candidatePath = dbPath then host
          else ⟨host.files.promote call.candidatePath promoted, host.keys⟩

/-- Whether a rebuild writes a fact again: a decision has to stand on a system capability or draft,
or to be what discovery writes. -/
def GovernanceFact.Replanned (db : Database) (planned : List Capability) : GovernanceFact → Prop
  | .decision taken =>
      (∃ row ∈ db.capabilities, row.cap.isSystemOrDraft = true ∧ row.cap.decision = taken) ∨
      ∃ e ∈ planned, (holdDowngrade (capguardIsHeld db.quarantine e) e).decision = taken
  | _ => True

/-- A staging that carries the effects over: `init_db` leaves them, nothing takes over a system
capability or draft, and the decisions are written again. -/
def StageKeeps (p : Platform) (effects : GovernanceFact → Prop) (live : Database)
    (call : StageCall p) : Prop :=
  ∀ initialized batch planned, initDb p call.builtins.capabilities live = .ok initialized →
    call.discovered = .ok batch →
    plan p (call.ingest batch) (initialized.capabilities.filter fun row =>
      row.cap.isSystemOrDraft) = .ok planned →
    initialized.NoTakeover p (call.ingest batch) ∧
      ∀ fact, effects fact → initialized.Has fact ∧ fact.Replanned initialized planned

/-- A step after which nothing is lost: a promotion is of a candidate that no governance operation
came after, a staging carries the effects over. -/
def Undisturbed (p : Platform) (dbPath : String) (host : ShadowHost) : ShadowAction p → Prop
  | .operate _ => True
  | .stage call _ => StageKeeps p host.files.effects host.files.live call
  | .promote call => call.candidatePath ≠ dbPath ∧ host.files.current call.candidatePath

section

variable {p : Platform} {live initialized kept candidate : Database} {planned : List Capability}
variable {final : Indexing} {fact : GovernanceFact}

/-- The facts of a database do not depend on its source and full-text rows. -/
theorem Database.SameRows.has (h : live.SameRows initialized) (hfact : live.Has fact) :
    initialized.Has fact := by
  rw [h]
  exact hfact

theorem Database.SameRows.replanned (h : live.SameRows initialized)
    (hfact : fact.Replanned live planned) : fact.Replanned initialized planned := by
  rw [h]
  exact hfact

/-- A rebuild without a takeover carries a fact over that it writes again. -/
theorem Staged.carries {input : IngestInput p} {builtins : Builtins}
    (hlive : live.InitializedBy p builtins)
    (h : Staged p input live kept candidate planned final) (hfree : live.NoTakeover p input)
    (hfact : live.Has fact) (hplanned : fact.Replanned live planned) : candidate.Has fact := by
  have hfresh := index_all_fresh h.filed (h.free hfree) h.indexed
  have hstart : (Indexing.start kept).db = kept := rfl
  -- The tables that neither the preserve pass nor the loop writes.
  have htables : candidate = { live with
      capabilities := candidate.capabilities, sources := candidate.sources, fts := candidate.fts
      vectors := candidate.vectors, quarantine := kept.quarantine } := by
    rw [h.retired.rest, hfresh.rest, hstart, h.rest]
  -- A system capability or draft survives with its columns.
  have hsurvives : ∀ row ∈ live.capabilities, row.cap.isSystemOrDraft = true →
      ∃ copy ∈ candidate.capabilities, copy.cap = { row.cap with metadata := copy.cap.metadata } := by
    intro row hrow hkind
    obtain ⟨copy, hcopy, -, hcolumns⟩ := h.survives hlive hfree hrow hkind
    exact ⟨copy, hcopy, hcolumns⟩
  cases fact with
  | share row | request row | tuple row | role row | attestation row =>
      rw [htables]
      exact hfact
  | hold row =>
      rw [htables]
      exact h.holds row hfact
  | draft cap =>
      obtain ⟨row, hrow, hkind, hcap⟩ := hfact
      obtain ⟨copy, hcopy, hcolumns⟩ :=
        hsurvives row hrow (by simp [Capability.isSystemOrDraft, hkind])
      refine ⟨copy, hcopy, ?_, ?_⟩
      · rw [hcolumns]
        exact hkind
      · rw [hcolumns, hcap]
  | decision taken =>
      obtain ⟨old, hold, holdDecision⟩ := hfact
      rcases hplanned with ⟨row, hrow, hkind, hdecision⟩ | ⟨e, he, hdecision⟩
      · obtain ⟨copy, hcopy, hcolumns⟩ := hsurvives row hrow hkind
        refine ⟨copy, hcopy, ?_⟩
        rw [hcolumns]
        exact hdecision
      · obtain ⟨row, hsettled, hcolumns⟩ := hfresh.settled e he
        refine ⟨row, (h.retired.mem_iff row).mpr ⟨hsettled.mem, hsettled.not_orphan⟩, ?_⟩
        have hsame := holdDecision.trans hdecision.symm
        have huri : old.cap.uri = e.uri :=
          (congrArg Decision.uri hsame).trans (hold_downgrade_uri _ e)
        have hhash : old.cap.contentHash = e.contentHash := by
          refine (congrArg Decision.contentHash hsame).trans ?_
          unfold holdDowngrade
          split <;> rfl
        rw [hstart, h.held old hold e huri hhash] at hcolumns
        rw [hcolumns]
        exact hdecision

/-- A staged candidate has the effects that its staging carries over. -/
theorem stage_rebuild_has {effects : GovernanceFact → Prop} {call : StageCall p}
    (hkeeps : StageKeeps p effects live call)
    (hresult : (stageRebuild p live call).result = .ok ())
    (hcandidate : (stageRebuild p live call).candidate = some candidate)
    (hfact : effects fact) : candidate.Has fact := by
  have hends := stage_rebuild_ends call live
  generalize stageRebuild p live call = outcome at hends hresult hcandidate
  cases hends with
  | uninitialized | foreign | unread | rejected => cases hresult
  | staged hinit hforeign hcopy hbatch happroved hrebuild =>
      rename_i initialized copy staged batch approved
      cases hcandidate
      have hcopyInit := init_db_ok hcopy
      obtain ⟨kept, planned, final, hstaged⟩ := stage_rebuild_index_staged hcopyInit rfl hrebuild
      have hrows : initialized.SameRows copy := by
        obtain ⟨again, hagain, hrows⟩ := init_db_again (init_db_ok hinit)
        cases hcopy.symm.trans hagain
        exact hrows
      have hcapabilities : copy.capabilities = initialized.capabilities := by rw [hrows]
      obtain ⟨hfree, hcarried⟩ := hkeeps initialized batch planned hinit hbatch
        (hcapabilities ▸ hstaged.plans)
      obtain ⟨hhas, hreplanned⟩ := hcarried fact hfact
      have hcopyFree : copy.NoTakeover p (call.ingest batch) := by
        unfold Database.NoTakeover
        rw [hcapabilities]
        exact hfree
      exact hstaged.carries hcopyInit hcopyFree (hrows.has hhas) (hrows.replanned hreplanned)

variable {crypto : Crypto} {image : Database → List UInt8} {dbPath : String} {host : ShadowHost}
variable {call : RoleCall} {after : Database}

/-- Every undisturbed step leaves each candidate that is current with the effects. -/
theorem shadow_step_covers {action : ShadowAction p} (hundisturbed : Undisturbed p dbPath host action)
    (h : host.files.Covers Database.Has) :
    (shadowStep p crypto image dbPath host action).files.Covers Database.Has := by
  cases action with
  | operate operation =>
      unfold shadowStep
      dsimp only
      split
      · exact h
      · exact Shadowed.covers_write _ _
  | stage call temporary =>
      unfold shadowStep ShadowHost.stage
      dsimp only
      split
      · have hkeeps : StageKeeps p host.files.effects host.files.live { call with dbPath } :=
          hundisturbed
        exact h.build fun hready shadow hshadow fact hfact =>
          stage_rebuild_has hkeeps hready hshadow hfact
      · exact h
  | promote call =>
      unfold shadowStep
      dsimp only
      split
      · exact h
      · split
        · exact h
        · exact h.promote _ _

/-- A promotion installs the candidate it names. -/
theorem promote_shadow_database_ok {found : Option Database} {promoted : Database}
    {call : PromoteCall} (h : promoteShadowDatabase p image dbPath found call = .ok promoted) :
    found = some promoted := by
  unfold promoteShadowDatabase at h
  split at h
  · cases h
  split at h
  · cases h
  split at h
  · cases h
  split at h
  · cases h
  split at h
  · cases h
  split at h
  · cases h
  obtain ⟨_, -, h⟩ := bind_eq_ok h
  cases h
  rfl

/-- What `assign_role` did. -/
theorem assign_role_ok (h : assignRole p live call = .ok after) :
    ∃ roles, live.roles.insert? (call.row p) = some roles ∧ after = { live with
      roles, tuples := after.tuples } ∧ (call.relationshipObject = "" → after.tuples = live.tuples) := by
  unfold assignRole at h
  dsimp only at h
  split at h
  · cases h
  split at h
  · cases h
  obtain ⟨roles, hroles, h⟩ := bind_eq_ok h
  cases h
  exact ⟨roles, constrained_ok hroles, rfl, fun hobject => if_pos hobject⟩

/-- An assignment that succeeds is an effect. -/
theorem assign_role_effect {next : ShadowHost}
    (hnext : next = shadowStep p crypto image dbPath host (.operate (.assign call)))
    (h : assignRole p host.files.live call = .ok after) :
    next.files.effects (.role (call.row p)) := by
  obtain ⟨roles, hinsert, hafter, -⟩ := assign_role_ok h
  rw [hnext]
  simp only [shadowStep, GovernanceOperation.commit, h, Except.toOption, Option.map_some]
  refine ⟨?_, .inr fun hstood => ?_⟩
  · rw [hafter]
    exact (Table.mem_insert? hinsert _).mpr (.inr rfl)
  · exact Table.not_conflict_of_insert? hinsert _ hstood rfl

theorem assign_role_effects (hobject : call.relationshipObject = "")
    (h : assignRole p live call = .ok after)
    (hhas : after.Has fact) (hnew : ¬ live.Has fact) : fact = .role (call.row p) := by
  obtain ⟨roles, hinsert, hafter, htuples⟩ := assign_role_ok h
  rw [hafter, htuples hobject] at hhas
  cases fact with
  | share | request | tuple | hold | attestation | decision | draft => exact absurd hhas hnew
  | role row =>
      rcases (Table.mem_insert? hinsert row).mp hhas with hstood | rfl
      · exact absurd hstood hnew
      · rfl

/-- A staging changes no effect. -/
theorem stage_effects (host : ShadowHost) (call : StageCall p) (temporary : String) :
    (host.stage p dbPath call temporary).files.effects = host.files.effects := by
  unfold ShadowHost.stage
  dsimp only
  split <;> rfl

theorem stage_current {call : StageCall p} {temporary : String}
    (hresult : (stageRebuild p host.files.live { call with dbPath }).result = .ok ())
    (hpath : call.candidatePath ≠ some dbPath) :
    (host.stage p dbPath call temporary).files.current (call.candidatePath.getD temporary) := by
  have hopens : ((initDb p call.builtins.capabilities host.files.live).toOption.isSome &&
      !StageCall.isForeign { call with dbPath }) = true := by
    have hends := stage_rebuild_ends { call with dbPath } host.files.live
    generalize stageRebuild p host.files.live { call with dbPath } = outcome at hends hresult
    cases hends with
    | uninitialized | foreign | unread | rejected => cases hresult
    | staged hinit hforeign => simp [hinit, hforeign, Except.toOption]
  unfold ShadowHost.stage
  dsimp only
  rw [hopens]
  simp only [hpath, ne_eq, not_false_eq_true, decide_true, Bool.and_self, if_true, Shadowed.build,
    Function.update_self]
  exact hresult

/-- A role is assigned, a candidate is staged, and the candidate is promoted: nothing disturbs this
run when `init_db` keeps the role and nothing is taken over. -/
theorem assign_stage_promote_undisturbed {stage : StageCall p} (temporary : String)
    (promotion : PromoteCall) {keys : KeyStore} (hobject : call.relationshipObject = "")
    (h : assignRole p live call = .ok after)
    (hinit : ∀ initialized, initDb p stage.builtins.capabilities after = .ok initialized →
      call.row p ∈ initialized.roles)
    (hfree : ∀ initialized batch, initDb p stage.builtins.capabilities after = .ok initialized →
      stage.discovered = .ok batch → initialized.NoTakeover p (stage.ingest batch))
    (hstages : (stageRebuild p after { stage with dbPath }).result = .ok ())
    (hpath : stage.candidatePath ≠ some dbPath)
    (hcandidate : promotion.candidatePath = stage.candidatePath.getD temporary)
    (hlive : promotion.candidatePath ≠ dbPath) :
    Along (shadowStep p crypto image dbPath) (Undisturbed p dbPath) (.start live keys)
      [.operate (.assign call), .stage stage temporary, .promote promotion] := by
  generalize hnext : shadowStep p crypto image dbPath (.start live keys) (.operate (.assign call)) =
    next
  have hfiles : next.files = (Shadowed.start live).write Database.Has after := by
    rw [← hnext]
    simp [shadowStep, ShadowHost.start, Shadowed.start, GovernanceOperation.commit, h,
      Except.toOption]
  have hafter : next.files.live = after := by rw [hfiles]; rfl
  have hkeeps : StageKeeps p next.files.effects next.files.live stage := by
    rw [hfiles]
    intro initialized batch planned hinitialized hbatch _
    refine ⟨hfree initialized batch hinitialized hbatch, fun fact hfact => ?_⟩
    obtain ⟨hhas, hnew⟩ := hfact
    rw [assign_role_effects hobject h hhas (hnew.resolve_left id)]
    exact ⟨hinit initialized hinitialized, trivial⟩
  simp only [Along, hnext]
  refine ⟨trivial, hkeeps, ⟨hlive, ?_⟩, trivial⟩
  rw [hcandidate]
  exact stage_current (hafter ▸ hstages) hpath

theorem assign_stage_effect {stage : StageCall p} {temporary : String} {keys : KeyStore}
    {next : ShadowHost}
    (hnext : next = run (shadowStep p crypto image dbPath) (.start live keys)
      [.operate (.assign call), .stage stage temporary]) (h : assignRole p live call = .ok after) :
    next.files.effects (.role (call.row p)) := by
  rw [hnext]
  simp only [run]
  rw [show (shadowStep p crypto image dbPath (shadowStep p crypto image dbPath (.start live keys)
      (.operate (.assign call))) (.stage stage temporary)).files.effects = _ from
    stage_effects _ stage temporary]
  exact assign_role_effect rfl h

end

/-- In a run whose steps are all undisturbed, every promotion that succeeds installs a database
with the effects of all governance operations committed before it. -/
theorem promotion_keeps_effects {p : Platform} {crypto : Crypto} {image : Database → List UInt8}
    {dbPath : String} {live : Database} {keys : KeyStore} {actions : List (ShadowAction p)}
    (halong : Along (shadowStep p crypto image dbPath) (Undisturbed p dbPath)
      (.start live keys) actions) :
    ∀ first call second promoted, actions = first ++ .promote call :: second →
      promoteShadowDatabase p image dbPath
        ((run (shadowStep p crypto image dbPath) (.start live keys) first).fileAt dbPath
          call.candidatePath) call = .ok promoted →
      ∀ fact, (run (shadowStep p crypto image dbPath) (.start live keys) first).files.effects fact →
        promoted.Has fact := by
  intro first call second promoted hsplit hpromote fact hfact
  rw [hsplit, along_append] at halong
  obtain ⟨hfirst, ⟨hpath, hcurrent⟩, -⟩ := halong
  have hcovers : (run (shadowStep p crypto image dbPath) (.start live keys) first).files.Covers
      Database.Has :=
    run_invariant_along (I := fun host : ShadowHost => host.files.Covers Database.Has)
      (fun _ _ hundisturbed h => shadow_step_covers hundisturbed h) hfirst
      (Shadowed.covers_start live)
  have hfound := promote_shadow_database_ok hpromote
  unfold ShadowHost.fileAt at hfound
  rw [if_neg hpath] at hfound
  exact hcovers _ promoted hcurrent hfound fact hfact

/-- An auditor's role for one user. -/
def auditorRole : RoleCall :=
  { principal := platformAdmin, role := "auditor", subjectId := "bob", access := ⟨true, ""⟩
    assignmentId := "rol_1", tupleId := "rel_1" }

/-- Where the live database of the examples is. -/
def liveFile : String := "/secure/capmesh/capmesh.db"

/-- The name `mkstemp` draws for their candidate. -/
def candidateFile : String := "/secure/capmesh/.capmesh.db.candidate-1.db"

/-- A file image for the examples, where no step depends on the bytes. -/
def noBytes (_ : Database) : List UInt8 := []

/-- A promotion of the candidate with its digest. -/
def stagedPromotion : PromoteCall :=
  { candidatePath := candidateFile, workersDrained := true
    expectedSha256 := some ("sha256:" ++ Platform.sample.sha256 []) }

/-- The staging of the examples. -/
def notesStaging : ShadowAction .sample := .stage (notesStage .absent) candidateFile

/-- A key store without a key. -/
def emptyKeys : KeyStore := ⟨false, .absent, true⟩

/-- A run on a fresh database. -/
def runOnEmpty (actions : List (ShadowAction .sample)) : ShadowHost :=
  run (shadowStep .sample .transparent noBytes liveFile) (.start .empty emptyKeys) actions

/-- A role assigned before the staging is there after the promotion. -/
theorem promotion_keeps_effects_role : ∃ promoted,
    promoteShadowDatabase .sample noBytes liveFile
      ((runOnEmpty [.operate (.assign auditorRole), notesStaging]).fileAt liveFile candidateFile)
      stagedPromotion = .ok promoted ∧
      promoted.Has (.role (auditorRole.row .sample)) := by
  obtain ⟨hpromotes, hkeeps⟩ : (promoteShadowDatabase .sample noBytes liveFile
      ((runOnEmpty [.operate (.assign auditorRole), notesStaging]).fileAt liveFile candidateFile)
      stagedPromotion).toOption.isSome = true ∧
    (assignRole .sample .empty auditorRole).toOption.any (fun after =>
      ((stageRebuild .sample after { notesStage .absent with dbPath := liveFile }).result =
        .ok ()) &&
      (initDb .sample [systemHelp] after).toOption.all fun initialized =>
        initialized.roles.rows.contains (auditorRole.row .sample) &&
        (plan .sample notesRebuild.toIngestInput (initialized.capabilities.filter fun row =>
          row.cap.isSystemOrDraft)).toOption.all fun planned =>
            !meetsPreserved initialized.capabilities planned) = true := by decide +kernel
  obtain ⟨promoted, hpromoted⟩ := Option.isSome_iff_exists.mp hpromotes
  obtain ⟨after, hassigned, hkeeps⟩ := (Option.any_eq_true _ _).mp hkeeps
  simp only [Bool.and_eq_true, decide_eq_true_eq] at hkeeps
  obtain ⟨hstages, hinitialized⟩ := hkeeps
  refine ⟨promoted, to_option_eq_some hpromoted, promotion_keeps_effects
    (assign_stage_promote_undisturbed candidateFile stagedPromotion rfl (to_option_eq_some hassigned)
      (fun initialized hinit => ?_) (fun initialized batch hinit hbatch => ?_) hstages (by decide)
      rfl (by decide))
    [.operate (.assign auditorRole), notesStaging] stagedPromotion [] promoted rfl
    (to_option_eq_some hpromoted) _ ?_⟩
  · simp only [notesStage] at hinit
    simp only [hinit, Except.toOption, Option.all_some, Bool.and_eq_true] at hinitialized
    exact List.contains_iff_mem.mp hinitialized.1
  · simp only [notesStage] at hinit
    simp only [hinit, Except.toOption, Option.all_some, Bool.and_eq_true] at hinitialized
    cases hbatch
    exact no_takeover_of_plan hinitialized.2
  · generalize hnext : run _ _ [.operate (.assign auditorRole), notesStaging] = next
    exact assign_stage_effect hnext.symm (to_option_eq_some hassigned)

/-- A role assigned after the staging is gone after the promotion. -/
theorem promotion_loses_role_counterexample :
    ¬ ∀ (p : Platform) (crypto : Crypto) (image : Database → List UInt8) (dbPath : String)
      (live : Database) (keys : KeyStore) (first : List (ShadowAction p)) (call : PromoteCall)
      (promoted : Database),
      promoteShadowDatabase p image dbPath
        ((run (shadowStep p crypto image dbPath) (.start live keys) first).fileAt dbPath
          call.candidatePath) call = .ok promoted →
      call.expectedSha256 = some ("sha256:" ++ p.sha256 (image promoted)) →
      ∀ fact, (run (shadowStep p crypto image dbPath) (.start live keys) first).files.effects fact →
        promoted.Has fact := by
  intro hclaim
  obtain ⟨hlost, hassigned⟩ : (promoteShadowDatabase .sample noBytes liveFile
      ((runOnEmpty [notesStaging, .operate (.assign auditorRole)]).fileAt liveFile candidateFile)
      stagedPromotion).toOption.any (·.roles.rows.isEmpty) = true ∧
    (assignRole .sample (runOnEmpty [notesStaging]).files.live
      auditorRole).toOption.isSome = true := by decide +kernel
  obtain ⟨promoted, hpromoted, hempty⟩ := (Option.any_eq_true _ _).mp hlost
  obtain ⟨after, hafter⟩ := Option.isSome_iff_exists.mp hassigned
  have hkept := hclaim .sample .transparent noBytes liveFile .empty emptyKeys
    [notesStaging, .operate (.assign auditorRole)] stagedPromotion promoted
    (to_option_eq_some hpromoted) rfl
  have hstep : runOnEmpty [notesStaging, .operate (.assign auditorRole)] =
      shadowStep .sample .transparent noBytes liveFile (runOnEmpty [notesStaging])
        (.operate (.assign auditorRole)) := by
    simp only [runOnEmpty, run]
  have hnone : promoted.roles.rows = [] := by simpa using hempty
  -- From here on the two hosts are variables: their values are of no interest.
  generalize runOnEmpty [notesStaging] = host at hafter hstep
  generalize hnext : run (shadowStep .sample .transparent noBytes liveFile)
    (.start .empty emptyKeys) [notesStaging, .operate (.assign auditorRole)] = next at hkept
  have hmem : auditorRole.row .sample ∈ promoted.roles.rows :=
    hkept _ (assign_role_effect (hnext.symm.trans hstep) (to_option_eq_some hafter))
  rw [hnone] at hmem
  cases hmem

end Capmesh
