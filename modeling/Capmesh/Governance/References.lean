import Capmesh.Governance.Normalization
import Capmesh.Governance.RequestStates
import Capmesh.Relational.Reference

/-!
# What follows a capability to a new URI

Three routines move a capability to another URI: `approve_request` when it re-mints the
promoted capability, `_migrate_canonical_uri` of `_upsert_discovered`, and
`normalize_existing_capability_namespaces`. Each updates by hand the tables that refer to
the capability. All of them move its shares; the promotion moves its own request and the
tuples of its tenant only; and none touches role assignments, reviews, or holds.
`uri_move_keeps_references_iff` says which databases every reference survives in.
-/

namespace Capmesh

open Python Relational

/-- `promotion_requests.capability_uri`. -/
def requestRef : Reference PromotionRequest := ⟨(·.id), (·.capabilityUri), fun h => h⟩

/-- `shares.capability_uri`. -/
def shareRef : Reference ShareRow := ⟨(·.id), (·.capabilityUri), fun h => h⟩

/-- `relationship_tuples.object`. -/
def tupleRef : Reference RelationshipTuple := ⟨(·.id), (·.object), .inl⟩

/-- `role_assignments.scope_id`. -/
def roleRef : Reference RoleAssignment := ⟨(·.id), (·.scopeId), fun h => h⟩

/-- `capability_reviews.capability_uri`. -/
def reviewRef : Reference ReviewRow := ⟨(·.id), (·.capabilityUri), .inl⟩

/-- `capguard_quarantine.capability_uri`. -/
def quarantineRef : Reference QuarantineRow := ⟨(·.id), (·.capabilityUri), .inl⟩

/-- A role assignment on a single capability. -/
def RoleAssignment.isOnCapability (role : RoleAssignment) : Prop :=
  role.revoked = false ∧ role.scopeType ∈ ["capability", "resource", "object"]

/-- Every reference to the capability at the old URI is a reference to the new one. -/
structure KeepsReferences (before after : Database) (old new : String) : Prop where
  requests : requestRef.Follows (·.state = .pending) before.requests after.requests old new
  shares : shareRef.Follows (fun share => share.state = .active ∧ share.revoked = false)
    before.shares after.shares old new
  tuples : tupleRef.Follows (fun _ => True) before.tuples after.tuples old new
  roles : roleRef.Follows RoleAssignment.isOnCapability before.roles after.roles old new
  reviews : reviewRef.Follows (fun _ => True) before.reviews after.reviews old new
  quarantine : quarantineRef.Follows (·.status = .quarantined) before.quarantine after.quarantine
    old new

/-- The routine that moves a capability; a promotion has a tenant and a request. -/
inductive MoveKind where
  | approve (tenant requestId : String)
  | migrate
  | normalize

/-- The requests a routine moves. -/
def MoveKind.reachesRequest : MoveKind → PromotionRequest → Prop
  | .approve _ requestId, request => request.id = requestId
  | .migrate, _ => True
  | .normalize, _ => True

/-- The tuples a routine moves. -/
def MoveKind.reachesTuple : MoveKind → RelationshipTuple → Prop
  | .approve tenant _, tuple => tuple.tenantId = tenant
  | .migrate, _ => True
  | .normalize, _ => True

/-- The moves of a capability from one URI to another. -/
inductive UriMove (p : Platform) (before : Database) :
    MoveKind → Database → String → String → Prop where
  | approve {call : ApproveCall} {request : PromotionRequest} {after : Database} {new : String}
      {storeId : Option String} :
      call.decision = some .approve → approveRequest p before call = (after, .ok ()) →
      before.requestAt call.requestId = some request →
      promotedAddress p before call.directory request = .ok (new, storeId) →
      UriMove p before (.approve (p.tenantOr call.principal.tenantId) call.requestId) after
        request.capabilityUri new
  | migrate {old new : String} {row : CapabilityRow} {after : Database} :
      before.capabilityAt old = some row → migrateCanonicalUri before old new = .ok after →
      UriMove p before .migrate after old new
  | normalize {row : CapabilityRow} {changed : Nat} {after : Database} :
      row ∈ before.capabilities → applyDefaultUserNamespace p row.cap ≠ row.cap →
      normalizeRow p before row = .ok (changed, after) →
      UriMove p before .normalize after row.cap.uri
        (uniqueMigrationUri p before (applyDefaultUserNamespace p row.cap).uri row.id
          (applyDefaultUserNamespace p row.cap).canonicalKey)

/-- What a move does to the tables that refer to capabilities. -/
structure MoveEffect (kind : MoveKind) (before after : Database) (old new : String) : Prop where
  requests : requestRef.Rewrites kind.reachesRequest before.requests after.requests old new
  shares : shareRef.Rewrites (fun _ => True) before.shares after.shares old new
  tuples : tupleRef.Rewrites kind.reachesTuple before.tuples after.tuples old new
  roles : after.roles = before.roles
  reviews : after.reviews = before.reviews
  quarantine : after.quarantine = before.quarantine

/-- Two databases with the same references. -/
structure SameReferences (db other : Database) : Prop where
  requests : ∀ row ∈ db.requests, ∃ twin ∈ other.requests,
    twin.id = row.id ∧ twin.capabilityUri = row.capabilityUri
  shares : other.shares = db.shares
  tuples : other.tuples = db.tuples
  roles : other.roles = db.roles
  reviews : other.reviews = db.reviews
  quarantine : other.quarantine = db.quarantine

/-- No reference in use is one that the routine does not move. -/
structure LeavesNoneBehind (kind : MoveKind) (before : Database) (old : String) : Prop where
  requests : ∀ request ∈ before.requests, request.state = .pending →
    request.capabilityUri = old → kind.reachesRequest request
  tuples : ∀ tuple ∈ before.tuples, tuple.object = old → kind.reachesTuple tuple
  roles : ∀ role ∈ before.roles, role.isOnCapability → role.scopeId ≠ old
  reviews : ∀ review ∈ before.reviews, review.capabilityUri ≠ old
  quarantine : ∀ row ∈ before.quarantine, row.status = .quarantined → row.capabilityUri ≠ old

section

variable {p : Platform} {db before after : Database} {kind : MoveKind} {old new : String}

theorem renamed_self : renamed old new old = new := if_pos rfl

theorem share_rewrites {shares : Table ShareRow}
    (hrows : shares.rows = before.shares.rows.map fun share =>
      { share with capabilityUri := renamed old new share.capabilityUri }) :
    shareRef.Rewrites (fun _ => True) before.shares shares old new := by
  refine Reference.rewrites_of_map hrows (fun _ => rfl) (fun share huri _ => ?_)
    fun _ _ hnot => absurd trivial hnot
  show renamed old new share.capabilityUri = new
  rw [show share.capabilityUri = old from huri, renamed_self]

theorem tuple_rewrites {tuples : Table RelationshipTuple} {reached : RelationshipTuple → Prop}
    {change : RelationshipTuple → RelationshipTuple}
    (hafter : before.tuples.update? change = some tuples)
    (hkey : ∀ tuple, (change tuple).id = tuple.id)
    (hreached : ∀ tuple, reached tuple → (change tuple).object = renamed old new tuple.object)
    (hrest : ∀ tuple, ¬ reached tuple → (change tuple).object = tuple.object) :
    tupleRef.Rewrites reached before.tuples tuples old new := by
  refine Reference.rewrites_of_map (Table.rows_update? hafter) hkey
    (fun tuple hobject h => ?_) fun tuple hobject h => ?_
  · show (change tuple).object = new
    rw [hreached tuple h, show tuple.object = old from hobject, renamed_self]
  · exact (hrest tuple h).trans hobject

theorem request_rewrites {requests : Table PromotionRequest}
    (hrows : requests.rows = before.requests.rows.map fun request =>
      { request with capabilityUri := renamed old new request.capabilityUri }) :
    requestRef.Rewrites (fun _ => True) before.requests requests old new := by
  refine Reference.rewrites_of_map hrows (fun _ => rfl) (fun request huri _ => ?_)
    fun _ _ hnot => absurd trivial hnot
  show renamed old new request.capabilityUri = new
  rw [show request.capabilityUri = old from huri, renamed_self]

theorem migrate_effect {row : CapabilityRow} (hne : old ≠ new)
    (hrow : before.capabilityAt old = some row)
    (h : migrateCanonicalUri before old new = .ok after) :
    MoveEffect .migrate before after old new := by
  simp only [migrateCanonicalUri, if_neg hne, hrow] at h
  obtain ⟨capabilities, -, h⟩ := bind_eq_ok h
  obtain ⟨tuples, htuples, h⟩ := bind_eq_ok h
  cases h
  exact ⟨request_rewrites rfl,
    share_rewrites rfl,
    tuple_rewrites (constrained_ok htuples) (fun _ => rfl) (fun _ _ => rfl)
      fun _ hnot => absurd trivial hnot, rfl, rfl, rfl⟩

theorem normalize_effect {row : CapabilityRow} {changed : Nat}
    (hmoves : applyDefaultUserNamespace p row.cap ≠ row.cap)
    (h : normalizeRow p before row = .ok (changed, after)) :
    MoveEffect .normalize before after row.cap.uri
      (uniqueMigrationUri p before (applyDefaultUserNamespace p row.cap).uri row.id
        (applyDefaultUserNamespace p row.cap).canonicalKey) := by
  simp only [normalizeRow, if_neg hmoves] at h
  obtain ⟨capabilities, -, h⟩ := bind_eq_ok h
  obtain ⟨sources, -, h⟩ := bind_eq_ok h
  obtain ⟨tuples, htuples, h⟩ := bind_eq_ok h
  cases h
  exact ⟨request_rewrites rfl,
    share_rewrites rfl,
    tuple_rewrites (constrained_ok htuples) (fun _ => rfl) (fun _ _ => rfl)
      fun _ hnot => absurd trivial hnot, rfl, rfl, rfl⟩

/-- What a promotion passes and writes: the gates, then the request and its capability, then the
move. -/
theorem approve_request_promotes {call : ApproveCall} (hdecision : call.decision = some .approve)
    (h : approveRequest p db call = (after, .ok ())) :
    ∃ request view evaluated stored, db.requestAt call.requestId = some request ∧
      approvalView p db call request = .ok (view, evaluated) ∧
      (stored = db ∨ stored = db.setRequest request.id
        (fun row => { row with gates := some view.gates }) fun _ => rfl) ∧
      promote p stored call request view = .ok after := by
  unfold approveRequest at h
  simp only [hdecision] at h
  split at h
  · cases h
  split at h
  · cases h
  rename_i request hfind
  have hrequest : db.requestAt call.requestId = some request := by
    obtain ⟨hmem, hkey⟩ := Table.find?_some hfind
    simp only [Bool.and_eq_true, decide_eq_true_eq] at hkey
    exact Table.find?_eq_some hmem (by simpa using hkey.1) fun _ _ hid =>
      (of_decide_eq_true hid).trans hkey.1.symm
  simp only [if_true] at h
  split at h
  · cases h
  · rename_i view evaluated hview
    split at h
    · cases h
    · rename_i result hpromote
      cases h
      refine ⟨request, view, evaluated, _, hrequest, hview, ?_, hpromote⟩
      split
      · exact .inr rfl
      · exact .inl rfl

/-- A change of requests that keeps their URIs is not seen by a move of one of them. -/
theorem remint_effect {tenant requestId : String} (hne : old ≠ new)
    (h : remint db tenant requestId old new = .ok after) :
    MoveEffect (.approve tenant requestId) db after old new := by
  simp only [remint, if_neg hne.symm] at h
  obtain ⟨capabilities, -, h⟩ := bind_eq_ok h
  obtain ⟨tuples, htuples, h⟩ := bind_eq_ok h
  cases h
  refine ⟨?_, share_rewrites rfl,
    tuple_rewrites (constrained_ok htuples) (fun tuple => ?_) (fun tuple htenant => ?_)
      fun tuple htenant => ?_, rfl, rfl, rfl⟩
  · refine Reference.rewrites_of_map rfl (fun request => ?_) (fun request _ hreached => ?_)
      fun request huri hreached => ?_
    · show (if request.id = requestId then { request with capabilityUri := new }
        else request).id = request.id
      split <;> rfl
    · have hown : request.id = requestId := hreached
      exact congrArg PromotionRequest.capabilityUri (if_pos hown)
    · have hother : request.id ≠ requestId := hreached
      exact (congrArg PromotionRequest.capabilityUri (if_neg hother)).trans huri
  · split <;> rfl
  · exact congrArg RelationshipTuple.object (if_pos htenant)
  · exact congrArg RelationshipTuple.object (if_neg htenant)

theorem SameReferences.set_request {requestId : String}
    {change : PromotionRequest → PromotionRequest} {hchange : ∀ r, (change r).id = r.id}
    (huri : ∀ r, (change r).capabilityUri = r.capabilityUri) :
    SameReferences db (db.setRequest requestId change hchange) := by
  refine ⟨fun row hrow => ⟨_, List.mem_map_of_mem hrow, ?_⟩, rfl, rfl, rfl, rfl, rfl⟩
  split
  · exact ⟨hchange row, huri row⟩
  · exact ⟨rfl, rfl⟩

theorem SameReferences.trans {other last : Database} (h : SameReferences db other)
    (h' : SameReferences other last) : SameReferences db last := by
  refine ⟨fun row hrow => ?_, h'.shares.trans h.shares, h'.tuples.trans h.tuples,
    h'.roles.trans h.roles, h'.reviews.trans h.reviews, h'.quarantine.trans h.quarantine⟩
  obtain ⟨twin, htwin, hid, huri⟩ := h.requests row hrow
  obtain ⟨third, hthird, hid', huri'⟩ := h'.requests twin htwin
  exact ⟨third, hthird, hid'.trans hid, huri'.trans huri⟩

/-- Writes that keep every reference are not seen by the move after them. -/
theorem SameReferences.effect {other : Database} {tenant requestId : String}
    (h : SameReferences before other)
    (heffect : MoveEffect (.approve tenant requestId) other after old new) :
    MoveEffect (.approve tenant requestId) before after old new := by
  refine ⟨fun row hrow huri => ?_, h.shares ▸ heffect.shares, h.tuples ▸ heffect.tuples,
    heffect.roles.trans h.roles, heffect.reviews.trans h.reviews,
    heffect.quarantine.trans h.quarantine⟩
  obtain ⟨twin, htwin, hid, htwinUri⟩ := h.requests row hrow
  obtain ⟨moved, hmoved, hkey, hreached, hrest⟩ :=
    heffect.requests twin htwin (htwinUri.trans huri)
  refine ⟨moved, hmoved, hkey.trans hid, fun hown => hreached (hid.trans hown), fun hother =>
    hrest fun hown => hother (hid.symm.trans hown)⟩

/-- The writes of a promotion before its move are gates, a state, and columns of the row. -/
theorem promote_effect {call : ApproveCall} {request : PromotionRequest}
    {storeId : Option String} (hdecision : call.decision = some .approve)
    (h : approveRequest p before call = (after, .ok ()))
    (hrequest : before.requestAt call.requestId = some request)
    (haddress : promotedAddress p before call.directory request = .ok (new, storeId))
    (hne : request.capabilityUri ≠ new) :
    MoveEffect (.approve (p.tenantOr call.principal.tenantId) call.requestId) before after
      request.capabilityUri new := by
  obtain ⟨found, view, -, stored, hfound, -, hstored, hpromote⟩ :=
    approve_request_promotes hdecision h
  rw [hrequest] at hfound
  cases hfound
  have hid : request.id = call.requestId := (request_at_some hrequest).2
  unfold promote at hpromote
  obtain ⟨gates, -, hpromote⟩ := bind_eq_ok hpromote
  obtain ⟨⟨uri, store⟩, hpromoted, hpromote⟩ := bind_eq_ok hpromote
  have hcapabilities : stored.capabilities = before.capabilities := by
    rcases hstored with rfl | rfl <;> rfl
  rw [promoted_address_congr hcapabilities, haddress] at hpromoted
  cases hpromoted
  have hfirst : SameReferences before stored := by
    rcases hstored with rfl | rfl
    · exact ⟨fun row hrow => ⟨row, hrow, rfl, rfl⟩, rfl, rfl, rfl, rfl, rfl⟩
    · exact SameReferences.set_request fun _ => rfl
  have hdecided : SameReferences stored ((stored.setRequest request.id (fun row => { row with
      gates := if gates.isEmpty then row.gates else some gates, state := .approved })
      fun _ => rfl).amendCapabilities (·.uri = request.capabilityUri)
      (Capability.approvedInto storeId request.targetNamespaceId) fun _ => ⟨rfl, rfl, rfl, rfl⟩) := by
    -- The change of the row leaves the tables of references as they are.
    have hstate : SameReferences stored (stored.setRequest request.id (fun row => { row with
        gates := if gates.isEmpty then row.gates else some gates, state := .approved })
        fun _ => rfl) := SameReferences.set_request fun _ => rfl
    exact ⟨hstate.requests, hstate.shares, hstate.tuples, hstate.roles, hstate.reviews,
      hstate.quarantine⟩
  rw [← hid]
  exact (hfirst.trans hdecided).effect (remint_effect hne hpromote)

/-- What a move does, whichever routine makes it. -/
theorem uri_move_effect (h : UriMove p before kind after old new) (hne : old ≠ new) :
    MoveEffect kind before after old new := by
  cases h with
  | approve hdecision happrove hrequest haddress =>
      exact promote_effect hdecision happrove hrequest haddress hne
  | migrate hrow hmigrate => exact migrate_effect hne hrow hmigrate
  | normalize _ hmoves hnormalize => exact normalize_effect hmoves hnormalize

end

/-- A move keeps every reference in use exactly when no role assignment, review or hold refers to
the old URI and, for a promotion, neither does another pending request or a tuple of another
tenant. -/
theorem uri_move_keeps_references_iff {p : Platform} {before after : Database} {kind : MoveKind}
    {old new : String} (h : UriMove p before kind after old new) (hne : old ≠ new) :
    KeepsReferences before after old new ↔ LeavesNoneBehind kind before old := by
  have heffect := uri_move_effect h hne
  have hroles : roleRef.Rewrites (fun _ => False) before.roles after.roles old new :=
    heffect.roles ▸ Reference.rewrites_self
  have hreviews : reviewRef.Rewrites (fun _ => False) before.reviews after.reviews old new :=
    heffect.reviews ▸ Reference.rewrites_self
  have hquarantine : quarantineRef.Rewrites (fun _ => False) before.quarantine after.quarantine
      old new := heffect.quarantine ▸ Reference.rewrites_self
  constructor
  · intro hkeeps
    exact ⟨(Reference.follows_iff hne heffect.requests).mp hkeeps.requests,
      fun tuple htuple => (Reference.follows_iff hne heffect.tuples).mp hkeeps.tuples tuple htuple
        trivial,
      (Reference.follows_iff hne hroles).mp hkeeps.roles,
      fun review hreview => (Reference.follows_iff hne hreviews).mp hkeeps.reviews review hreview
        trivial,
      (Reference.follows_iff hne hquarantine).mp hkeeps.quarantine⟩
  · intro hnone
    exact ⟨(Reference.follows_iff hne heffect.requests).mpr hnone.requests,
      (Reference.follows_iff hne heffect.shares).mpr fun _ _ _ _ => trivial,
      (Reference.follows_iff hne heffect.tuples).mpr fun tuple htuple _ => hnone.tuples tuple htuple,
      (Reference.follows_iff hne hroles).mpr hnone.roles,
      (Reference.follows_iff hne hreviews).mpr fun review hreview _ => hnone.reviews review hreview,
      (Reference.follows_iff hne hquarantine).mpr hnone.quarantine⟩

/-- The notes skill submitted to the team, with an auditor assigned to it. -/
def auditedCatalog : Database :=
  { promotionStep .sample notesCatalog (.submit submitNotes) with
    roles := ⟨[{ id := "rol_1", tenantId := "asg", subjectType := "user", subjectId := "bob"
                 role := "auditor", scopeType := "capability"
                 scopeId := (notesSkill "sha256:v1").uri, expiresAt := none, revoked := false }],
      List.pairwise_singleton _ _⟩ }

/-- The address of the skill in the team namespace. -/
def teamUri : String := "cap://org/asg/team/skill/notes.notes@0.1.0"

/-- The promotion of the audited skill, which leaves the role assignment where it is. -/
theorem audited_move : ∃ after,
    UriMove .sample auditedCatalog (.approve "asg" "prm_1") after (notesSkill "sha256:v1").uri
      teamUri := by
  have happroved : (approveRequest .sample auditedCatalog (decideNotes .approve)).2 = .ok () := by
    decide +kernel
  have haddress : (auditedCatalog.requestAt "prm_1").any (fun request =>
      request.capabilityUri = (notesSkill "sha256:v1").uri &&
        promotedAddress .sample auditedCatalog teamDirectory request =
          .ok (teamUri, some "store_team")) = true := by decide +kernel
  obtain ⟨request, hrequest, hchecks⟩ := (Option.any_eq_true _ _).mp haddress
  simp only [Bool.and_eq_true, decide_eq_true_eq] at hchecks
  obtain ⟨huri, haddress⟩ := hchecks
  refine ⟨(approveRequest .sample auditedCatalog (decideNotes .approve)).1, ?_⟩
  rw [← huri]
  exact @UriMove.approve _ _ (decideNotes .approve) _ _ _ _ rfl (Prod.ext rfl happroved) hrequest
    haddress

/-- A promotion leaves the role assignments on its capability at the old URI. -/
theorem promotion_strands_role_counterexample :
    ¬ ∀ (p : Platform) (before after : Database) (kind : MoveKind) (old new : String),
      UriMove p before kind after old new → old ≠ new → KeepsReferences before after old new := by
  intro hclaim
  obtain ⟨after, hmove⟩ := audited_move
  have hne : (notesSkill "sha256:v1").uri ≠ teamUri := by decide
  have hroles := (hclaim _ _ _ _ _ _ hmove hne).roles
  obtain ⟨moved, hmoved, -, hnew⟩ := hroles _ List.mem_cons_self ⟨rfl, by decide⟩ rfl
  rw [(uri_move_effect hmove hne).roles] at hmoved
  rw [List.mem_singleton.mp hmoved] at hnew
  exact hne hnew

/-- A catalog with a share of the notes skill. -/
def sharedNotes : Database :=
  { notesCatalog with
    shares := ⟨[{ id := "shr_1", tenantId := "asg", capabilityUri := (notesSkill "sha256:v1").uri
                  fromIdentityId := none, subjectType := "user", subjectId := "bob"
                  rights := ["load"], state := .active, expiresAt := none, revoked := false }],
      List.pairwise_singleton _ _⟩ }

/-- A migration takes the share of the skill along. -/
theorem uri_move_keeps_references_iff_migration : ∃ after,
    migrateCanonicalUri sharedNotes (notesSkill "sha256:v1").uri teamUri = .ok after ∧
      KeepsReferences sharedNotes after (notesSkill "sha256:v1").uri teamUri := by
  have hmigrates : (migrateCanonicalUri sharedNotes (notesSkill "sha256:v1").uri
      teamUri).toOption.isSome = true := by decide +kernel
  cases hresult : migrateCanonicalUri sharedNotes (notesSkill "sha256:v1").uri teamUri with
  | error failure => simp [hresult, Except.toOption] at hmigrates
  | ok after =>
      have hrow : sharedNotes.capabilityAt (notesSkill "sha256:v1").uri =
          some ⟨1, notesSkill "sha256:v1"⟩ := by decide +kernel
      have hmove : UriMove .sample sharedNotes .migrate after _ _ := .migrate hrow hresult
      refine ⟨after, rfl, (uri_move_keeps_references_iff hmove (by decide)).mpr ?_⟩
      exact ⟨fun _ _ _ _ => trivial, fun _ _ _ => trivial,
        fun role hrole => absurd hrole (Table.not_mem_empty role),
        fun review hreview => absurd hreview (Table.not_mem_empty review),
        fun row hrow => absurd hrow (Table.not_mem_empty row)⟩

end Capmesh
