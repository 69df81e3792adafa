import Capmesh.Access.Monotone
import Capmesh.Execution.Run
import Capmesh.Governance.Promotion

/-!
# Shares, their rights, and their end

`create_share` records a share twice: a row of `shares` with an expiry, and one
relationship tuple for each right without one. `revoke_share` (`stores.py`) takes both
back. The two results of this module are about that double record. A share that lists
`manage` gives every right, also those the sharer was never allowed
(`create_share_amplifies_iff`). And a tuple outlives the expiry of its share, so access
follows the shares in force exactly as long as every tuple is covered by one of them
(`share_access_exact`).
-/

namespace Capmesh

open Python Relational Execution

/-- The decision on the capability at a URI. -/
def decideAt (p : Platform) (ctx : AccessContext) (principal : Principal) (uri right : String) :
    Access :=
  evaluateAccess p ctx ⟨principal, right, (ctx.db.capabilityAt uri).map (·.cap), none⟩

/-- A share with the decisions `evaluate_access` takes in its context. -/
def ShareCall.decided (p : Platform) (ctx : AccessContext) (call : ShareCall) : ShareCall :=
  { call with
    access := decideAt p ctx call.principal call.capabilityUri "share"
    grant := decideAt p ctx call.principal call.capabilityUri }

/-- The subject of a share. -/
def ShareCall.subject (call : ShareCall) : String := call.subjectType ++ ":" ++ call.subjectId

/-- A right that the subjects obtain through the share of a call: its row grants it at the time, or
a tuple the call inserted does. -/
def ObtainsThrough (p : Platform) (before after : Database) (call : ShareCall)
    (subjects : List String) (later right : String) : Prop :=
  (∃ share ∈ after.shares, share.id = call.shareId ∧
    share.tenantId = p.tenantOr call.principal.tenantId ∧
    share.capabilityUri = call.capabilityUri ∧ share.inForce later = true ∧
    share.subject ∈ subjects ∧ share.lists right = true) ∨
  ∃ tuple ∈ after.tuples, tuple ∉ before.tuples ∧
    tuple.tenantId = p.tenantOr call.principal.tenantId ∧ tuple.object = call.capabilityUri ∧
    tuple.relation ∈ grantRelations right ∧ tuple.user ∈ subjects

/-- No subject obtains a right through a share that its sharer was not allowed. -/
def NeverAmplifies (p : Platform) (ctx : AccessContext) (call : ShareCall) (after : Database) :
    Prop :=
  ∀ right ∈ accessRights, ∀ subjects later, ctx.now ≤ later →
    ObtainsThrough p ctx.db after call subjects later right →
    (decideAt p ctx call.principal call.capabilityUri right).allowed = true

section

variable {p : Platform} {call : ShareCall} {tenant : String} {tuples : Table RelationshipTuple}

theorem mem_grant_right {right : String} {tuple : RelationshipTuple}
    (h : tuple ∈ grantRight tenant call tuples right) :
    tuple ∈ tuples ∨ tuple = ⟨call.tupleIds right, tenant, call.capabilityUri, right,
      call.subject, "share"⟩ := by
  unfold grantRight at h
  cases hinsert : tuples.insert? ⟨call.tupleIds right, tenant, call.capabilityUri, right,
      call.subjectType ++ ":" ++ call.subjectId, "share"⟩ with
  | none =>
      rw [hinsert] at h
      exact .inl h
  | some result =>
      rw [hinsert] at h
      exact (Table.mem_insert? hinsert tuple).mp h

theorem mem_grant_rights {rights : List String} {tuple : RelationshipTuple}
    (h : tuple ∈ rights.foldl (grantRight tenant call) tuples) :
    tuple ∈ tuples ∨ ∃ right ∈ rights, tuple = ⟨call.tupleIds right, tenant, call.capabilityUri,
      right, call.subject, "share"⟩ := by
  induction rights generalizing tuples with
  | nil => exact .inl h
  | cons right rights ih =>
      rcases ih h with hmem | ⟨other, hother, rfl⟩
      · rcases mem_grant_right hmem with hmem | rfl
        · exact .inl hmem
        · exact .inr ⟨right, List.mem_cons_self, rfl⟩
      · exact .inr ⟨other, List.mem_cons_of_mem right hother, rfl⟩

/-- A relation that a share may insert grants only itself. -/
theorem eq_of_grant_relation {relation right : String} (hrelation : relation ∈ accessRights)
    (hright : right ∈ accessRights) (h : relation ∈ grantRelations right) : relation = right := by
  have hall : ∀ right ∈ accessRights, ∀ relation ∈ accessRights,
      relation ∈ grantRelations right → relation = right := by decide
  exact hall right hright relation hrelation h

/-- A share in force at a later time was in force before. -/
theorem expired_of_le {expiresAt : Option String} {now later : String} (hle : now ≤ later)
    (h : expired expiresAt later = false) : expired expiresAt now = false := by
  cases expiresAt with
  | none => rfl
  | some expiry =>
      simp only [expired, Bool.and_eq_false_iff, decide_eq_false_iff_not, not_not] at h ⊢
      rcases h with hempty | hlater
      · exact .inl hempty
      · exact .inr fun hexpired => hlater (String.le_trans hexpired hle)

end

section

variable {p : Platform} {ctx : AccessContext} {call : ShareCall} {after : Database}

/-- The subject of a share that lists `manage` obtains every right at once. -/
theorem obtains_of_manage (h : createShare p ctx.db (call.decided p ctx) = .ok after)
    (hmanage : "manage" ∈ call.rights) (hfresh : expired call.expiresAt ctx.now = false)
    (right : String) : ObtainsThrough p ctx.db after call [call.subject] ctx.now right := by
  obtain ⟨row, shares, -, -, -, -, hshares, rfl⟩ := create_share_writes h
  have hshare : (call.decided p ctx).row p ∈ shares :=
    (Table.mem_insert? hshares _).mpr (.inr rfl)
  have hforce : ((call.decided p ctx).row p).inForce ctx.now = true := by
    show (true && !false && !expired call.expiresAt ctx.now) = true
    rw [hfresh]
    rfl
  have hlists : ((call.decided p ctx).row p).lists right = true := by
    show (call.rights.contains right || call.rights.contains "manage") = true
    simp [hmanage]
  exact .inl ⟨_, hshare, rfl, rfl, rfl, hforce, List.mem_singleton.mpr rfl, hlists⟩

theorem listed_of_obtains (h : createShare p ctx.db (call.decided p ctx) = .ok after)
    {right later : String} {subjects : List String} (hright : right ∈ accessRights)
    (hlater : ctx.now ≤ later)
    (hobtains : ObtainsThrough p ctx.db after call subjects later right) :
    right ∈ call.rights ∨ "manage" ∈ call.rights ∧ expired call.expiresAt ctx.now = false := by
  obtain ⟨row, shares, -, -, -, hrights, hshares, rfl⟩ := create_share_writes h
  rcases hobtains with ⟨share, hmem, hid, -, -, hforce, -, hlists⟩ |
    ⟨tuple, hmem, hnew, -, -, hrelation, -⟩
  · have hshare : (call.decided p ctx).row p ∈ shares :=
      (Table.mem_insert? hshares _).mpr (.inr rfl)
    have hmem : share ∈ shares := hmem
    have hrow : share = (call.decided p ctx).row p := Table.eq_of_conflict hmem hshare hid
    subst hrow
    have hfresh : expired call.expiresAt later = false := by
      simpa [ShareRow.inForce, ShareCall.row, ShareCall.decided] using hforce
    have hlisted : right ∈ call.rights ∨ "manage" ∈ call.rights := by
      simpa [ShareRow.lists, ShareCall.row, ShareCall.decided] using hlists
    exact hlisted.imp_right fun hmanage => ⟨hmanage, expired_of_le hlater hfresh⟩
  · rcases mem_grant_rights hmem with hold | ⟨listed, hlisted, rfl⟩
    · exact absurd hold hnew
    · have hsame : listed = right :=
        eq_of_grant_relation (hrights listed hlisted).1 hright hrelation
      exact .inl (hsame ▸ hlisted)

/-- A share gives only rights its sharer was allowed exactly when it does not list `manage`, or has
expired from the start, or its sharer was allowed every right. -/
theorem create_share_amplifies_iff (h : createShare p ctx.db (call.decided p ctx) = .ok after) :
    NeverAmplifies p ctx call after ↔
      ("manage" ∈ call.rights → expired call.expiresAt ctx.now = false →
        ∀ right ∈ accessRights,
          (decideAt p ctx call.principal call.capabilityUri right).allowed = true) := by
  constructor
  · intro hclaim hmanage hfresh right hright
    exact hclaim right hright [call.subject] ctx.now (String.le_refl _)
      (obtains_of_manage h hmanage hfresh right)
  · intro hcondition right hright subjects later hlater hobtains
    rcases listed_of_obtains h hright hlater hobtains with hlisted | ⟨hmanage, hfresh⟩
    · obtain ⟨-, -, -, -, -, hrights, -, -⟩ := create_share_writes h
      exact (hrights right hlisted).2
    · exact hcondition hmanage hfresh right hright

end

/-- The notes skill as a capability that only its owner may use. -/
def ownedNotes : Capability :=
  { notesSkill "sha256:v1" with owner := "alice", visibility := .protected }

/-- A catalog with that capability and nothing else. -/
def ownedCatalog : Database :=
  { Database.empty with
    capabilities := ⟨[⟨1, ownedNotes⟩], List.pairwise_singleton _ _⟩ }

/-- The decisions on it at the start of 2026. -/
def ownedContext : AccessContext :=
  ⟨ownedCatalog, ⟨[], [], [], [], []⟩, fun _ _ => none, "2026-01-01 00:00:00"⟩

/-- A share of the skill by its owner. -/
def shareNotes (rights : List String) (expiresAt : Option String) : ShareCall :=
  { principal := { subject := "alice", tenantId := "asg" }, capabilityUri := ownedNotes.uri
    rights, subjectId := "bob", expiresAt, access := ⟨false, ""⟩, grant := fun _ => ⟨false, ""⟩
    shareId := "shr_1", tupleIds := ("rel_" ++ ·) }

/-- An owner may manage a capability but not approve it; who is shared `manage` may do both. -/
theorem create_share_manage_counterexample :
    ¬ ∀ (p : Platform) (ctx : AccessContext) (call : ShareCall) (after : Database),
      createShare p ctx.db (call.decided p ctx) = .ok after → NeverAmplifies p ctx call after := by
  intro hclaim
  have hshares : (createShare .sample ownedContext.db
      ((shareNotes ["manage"] none).decided .sample ownedContext)).toOption.isSome = true := by
    decide +kernel
  have hrefused : (decideAt .sample ownedContext { subject := "alice", tenantId := "asg" }
      ownedNotes.uri "approve").allowed = false := by decide +kernel
  cases hresult : createShare .sample ownedContext.db
      ((shareNotes ["manage"] none).decided .sample ownedContext) with
  | error failure => simp [hresult, Except.toOption] at hshares
  | ok after =>
      have hallowed := hclaim _ _ _ after hresult "approve" (by decide) _ _ (String.le_refl _)
        (obtains_of_manage hresult (by decide) rfl "approve")
      exact Bool.false_ne_true (hrefused.symm.trans hallowed)

/-- A share of `load` alone gives nothing else. -/
theorem create_share_amplifies_iff_load : ∃ after,
    createShare .sample ownedContext.db
      ((shareNotes ["load"] none).decided .sample ownedContext) = .ok after ∧
    NeverAmplifies .sample ownedContext (shareNotes ["load"] none) after := by
  have hshares : (createShare .sample ownedContext.db
      ((shareNotes ["load"] none).decided .sample ownedContext)).toOption.isSome = true := by
    decide +kernel
  cases hresult : createShare .sample ownedContext.db
      ((shareNotes ["load"] none).decided .sample ownedContext) with
  | error failure => simp [hresult, Except.toOption] at hshares
  | ok after =>
      refine ⟨after, rfl, (create_share_amplifies_iff hresult).mpr fun hmanage => ?_⟩
      exact absurd hmanage (by decide)

/-- The arguments of `revoke_share`, and the decision it asks for. -/
structure RevokeCall where
  principal : Principal
  shareId : String
  access : Access

/-- Whether a tuple records a right of a share. -/
def ShareRow.records (share : ShareRow) (tuple : RelationshipTuple) : Bool :=
  tuple.tenantId = share.tenantId && tuple.object = share.capabilityUri &&
    share.rights.contains tuple.relation && tuple.user = share.subject && tuple.source = "share"

/-- The share with an id, revoked. -/
def ShareRow.revokedBy (id : String) (share : ShareRow) : ShareRow :=
  if share.id = id then { share with state := .revoked, revoked := true } else share

theorem ShareRow.revoked_by_id (id : String) (share : ShareRow) :
    (share.revokedBy id).id = share.id := by
  unfold ShareRow.revokedBy
  split <;> rfl

/-- `revoke_share`: the tuples are deleted by value, one statement for each right. -/
def revokeShare (p : Platform) (db : Database) (call : RevokeCall) : Except Failure Database :=
  let tenant := call.principal.tenantId
  match db.shares.find? fun share => share.id = call.shareId && share.tenantId = tenant with
  | none => .error (.value "Share not found.")
  | some share =>
      match db.capabilityAt share.capabilityUri with
      | none => .error (.value "Capability not found.")
      | some row =>
          if row.cap.tenantId ≠ tenant then .error (.value "Capability not found.")
          else if !call.access.allowed &&
              share.fromIdentityId ≠ some (call.principal.identity p) then
            .error (.permission call.access.reason)
          else
            .ok { db with
              shares := db.shares.map (·.revokedBy call.shareId) fun a b h =>
                (ShareRow.revoked_by_id call.shareId a).symm.trans
                  (h.trans (ShareRow.revoked_by_id call.shareId b))
              tuples := db.tuples.filter (!share.records ·) }

/-- A catalog at a time. -/
structure SharedCatalog where
  db : Database
  now : String

/-- What happens to the shares of a catalog. -/
inductive ShareAction where
  | create (call : ShareCall)
  | revoke (call : RevokeCall)
  | wait (later : String)

/-- One action; a refused call changes nothing and time does not run backwards. -/
def shareStep (p : Platform) (state : SharedCatalog) : ShareAction → SharedCatalog
  | .create call =>
      match createShare p state.db call with
      | .ok db => { state with db }
      | .error _ => state
  | .revoke call =>
      match revokeShare p state.db call with
      | .ok db => { state with db }
      | .error _ => state
  | .wait later => if state.now ≤ later then { state with now := later } else state

/-- A catalog that shares nothing. -/
def Unshared (db : Database) : Prop :=
  (∀ share, share ∉ db.shares) ∧ ∀ tuple ∈ db.tuples, tuple.source ≠ "share"

/-- A share that gives what a tuple gives. -/
def ShareRow.Covers (share : ShareRow) (tuple : RelationshipTuple) : Prop :=
  share.tenantId = tuple.tenantId ∧ share.capabilityUri = tuple.object ∧
    share.subject = tuple.user ∧ share.lists tuple.relation = true

/-- A tuple that some share in force covers. -/
def CoveredAt (db : Database) (now : String) (tuple : RelationshipTuple) : Prop :=
  ∃ share ∈ db.shares, share.inForce now = true ∧ share.Covers tuple

/-- What an action has to meet for the tuples of shares to stay covered: a new share has not expired
yet, or others in force cover its rights; a revoked share leaves no tuple that only it covered; and
no share whose tuple another does not cover expires while time passes. -/
def KeepsCover (p : Platform) (state : SharedCatalog) : ShareAction → Prop
  | .create call => expired call.expiresAt state.now = false ∨
      ∀ right ∈ call.rights, CoveredAt state.db state.now ⟨call.tupleIds right,
        p.tenantOr call.principal.tenantId, call.capabilityUri, right, call.subject, "share"⟩
  | .revoke call => ∀ share ∈ state.db.shares, share.id = call.shareId →
      ∀ tuple ∈ state.db.tuples, tuple.source = "share" → share.records tuple = false →
        ∃ other ∈ state.db.shares, other.id ≠ call.shareId ∧ other.inForce state.now = true ∧
          other.Covers tuple
  | .wait later => state.now ≤ later → ∀ tuple ∈ state.db.tuples, tuple.source = "share" →
      CoveredAt state.db later tuple

/-- The database without its shares and without their tuples on a capability. -/
def Database.withoutShares (db : Database) (uri : String) : Database :=
  { db with
    shares := .empty
    tuples := db.tuples.filter fun tuple => !(tuple.source = "share" && tuple.object = uri) }

/-- Access through shares is exact: whoever is not refused and has no other grant is allowed a right
exactly when a share in force lists it, or lists `manage`. -/
def ShareExact (p : Platform) (state : SharedCatalog) : Prop :=
  ∀ (directory : Directory) (orgCache : String → String → Option (Option String))
    (principal : Principal) (cap : Capability), ∀ right ∈ accessRights,
    let request : AccessRequest := ⟨principal, right, some cap, none⟩
    ¬ Refused p ⟨state.db, directory, orgCache, state.now⟩ request →
    ¬ Granted p ⟨state.db.withoutShares cap.uri, directory, orgCache, state.now⟩ request →
    ((evaluateAccess p ⟨state.db, directory, orgCache, state.now⟩ request).allowed = true ↔
      ∃ share ∈ state.db.shares, share.tenantId = request.tenant p ∧
        share.capabilityUri = cap.uri ∧ share.subject ∈ subjectRefs p principal ∧
        share.lists right = true ∧ share.inForce state.now = true)

/-- What the runs keep: shares name a capability, and their tuples name a right and are covered. -/
structure Covered (state : SharedCatalog) : Prop where
  addressed : ∀ share ∈ state.db.shares, share.capabilityUri ≠ ""
  supported : ∀ tuple ∈ state.db.tuples, tuple.source = "share" → tuple.relation ∈ accessRights
  covered : ∀ tuple ∈ state.db.tuples, tuple.source = "share" → CoveredAt state.db state.now tuple

section

variable {p : Platform} {state : SharedCatalog} {db : Database}

theorem covered_of_unshared (h : Unshared state.db) : Covered state where
  addressed share hshare := absurd hshare (h.1 share)
  supported tuple htuple hsource := absurd hsource (h.2 tuple htuple)
  covered tuple htuple hsource := absurd hsource (h.2 tuple htuple)

/-- A new share covers the tuples it inserts unless it has already expired. -/
theorem covered_create {call : ShareCall} (hcall : createShare p state.db call = .ok db)
    (hkeeps : KeepsCover p state (.create call)) (h : Covered state) :
    Covered { state with db } := by
  obtain ⟨row, shares, haddressed, -, -, hrights, hshares, rfl⟩ := create_share_writes hcall
  have hmore : ∀ share ∈ state.db.shares, share ∈ shares := fun share hshare =>
    (Table.mem_insert? hshares share).mpr (.inl hshare)
  refine ⟨fun share hshare => ?_, fun tuple htuple hsource => ?_, fun tuple htuple hsource => ?_⟩
  · rcases (Table.mem_insert? hshares share).mp hshare with hold | rfl
    · exact h.addressed share hold
    · exact haddressed
  · rcases mem_grant_rights htuple with hold | ⟨right, hright, rfl⟩
    · exact h.supported tuple hold hsource
    · exact (hrights right hright).1
  · rcases mem_grant_rights htuple with hold | ⟨right, hright, rfl⟩
    · obtain ⟨share, hshare, hcovers⟩ := h.covered tuple hold hsource
      exact ⟨share, hmore share hshare, hcovers⟩
    · rcases hkeeps with hfresh | hothers
      · refine ⟨call.row p, (Table.mem_insert? hshares _).mpr (.inr rfl), ?_, rfl, rfl, rfl, ?_⟩
        · show (true && !false && !expired call.expiresAt state.now) = true
          rw [hfresh]
          rfl
        · show (call.rights.contains right || call.rights.contains "manage") = true
          simp [hright]
      · obtain ⟨share, hshare, hcovers⟩ := hothers right hright
        exact ⟨share, hmore share hshare, hcovers⟩

/-- What a successful revocation wrote. -/
theorem revoke_share_writes {before : Database} {call : RevokeCall}
    (h : revokeShare p before call = .ok db) :
    ∃ share ∈ before.shares, share.id = call.shareId ∧
      (∀ x, x ∈ db.shares ↔ ∃ y ∈ before.shares, y.revokedBy call.shareId = x) ∧
      (∀ tuple, tuple ∈ db.tuples ↔ tuple ∈ before.tuples ∧ share.records tuple = false) ∧
      db.capabilities = before.capabilities := by
  unfold revokeShare at h
  dsimp only at h
  split at h
  · cases h
  rename_i share hfind
  split at h
  · cases h
  split at h
  · cases h
  split at h
  · cases h
  cases h
  obtain ⟨hshare, hid⟩ := Table.find?_some hfind
  simp only [Bool.and_eq_true, decide_eq_true_eq] at hid
  exact ⟨share, hshare, hid.1, fun x => List.mem_map, fun tuple => by simp, rfl⟩

theorem covered_revoke {call : RevokeCall} (hcall : revokeShare p state.db call = .ok db)
    (hkeeps : KeepsCover p state (.revoke call)) (h : Covered state) :
    Covered { state with db } := by
  obtain ⟨share, hshare, hid, hshares, htuples, -⟩ := revoke_share_writes hcall
  refine ⟨fun other hother => ?_, fun tuple htuple hsource => ?_, fun tuple htuple hsource => ?_⟩
  · obtain ⟨old, hold, rfl⟩ := (hshares other).mp hother
    have huri : (old.revokedBy call.shareId).capabilityUri = old.capabilityUri := by
      unfold ShareRow.revokedBy
      split <;> rfl
    rw [huri]
    exact h.addressed old hold
  · exact h.supported tuple ((htuples tuple).mp htuple).1 hsource
  · obtain ⟨hold, hunrecorded⟩ := (htuples tuple).mp htuple
    obtain ⟨other, hother, hne, hforce, hcovers⟩ :=
      hkeeps share hshare hid tuple hold hsource hunrecorded
    -- Another share keeps its row as it is.
    have hsame : other.revokedBy call.shareId = other := if_neg hne
    exact ⟨other, (hshares other).mpr ⟨other, hother, hsame⟩, hforce, hcovers⟩

theorem covered_step {action : ShareAction} (hkeeps : KeepsCover p state action)
    (h : Covered state) : Covered (shareStep p state action) := by
  cases action with
  | create call =>
      simp only [shareStep]
      split
      · exact covered_create ‹_› hkeeps h
      · exact h
  | revoke call =>
      simp only [shareStep]
      split
      · exact covered_revoke ‹_› hkeeps h
      · exact h
  | wait later =>
      simp only [shareStep]
      split
      · rename_i hle
        exact ⟨h.addressed, h.supported, hkeeps hle⟩
      · exact h

theorem share_grant_iff {shares : Table ShareRow} {now tenant uri right : String}
    {subjects : List String} (haddressed : ∀ share ∈ shares, share.capabilityUri ≠ "") :
    shareGrant shares now tenant subjects uri right = true ↔
      ∃ share ∈ shares, share.tenantId = tenant ∧ share.capabilityUri = uri ∧
        share.subject ∈ subjects ∧ share.lists right = true ∧ share.inForce now = true := by
  simp only [shareGrant, Bool.and_eq_true, decide_eq_true_eq, Table.any_iff,
    List.contains_eq_mem]
  constructor
  · rintro ⟨-, share, hshare, ⟨⟨⟨htenant, huri⟩, hforce⟩, hsubject⟩, hlists⟩
    exact ⟨share, hshare, htenant, huri, hsubject, hlists, hforce⟩
  · rintro ⟨share, hshare, htenant, huri, hsubject, hlists, hforce⟩
    exact ⟨huri ▸ haddressed share hshare, share, hshare,
      ⟨⟨⟨htenant, huri⟩, hforce⟩, hsubject⟩, hlists⟩

theorem granted_cases {directory : Directory}
    {orgCache : String → String → Option (Option String)} {now right : String}
    {principal : Principal} {cap : Capability}
    (h : Granted p ⟨db, directory, orgCache, now⟩ ⟨principal, right, some cap, none⟩) :
    Granted p ⟨db.withoutShares cap.uri, directory, orgCache, now⟩
        ⟨principal, right, some cap, none⟩ ∨
      shareGrant db.shares now (AccessRequest.tenant p ⟨principal, right, some cap, none⟩)
        (subjectRefs p principal) cap.uri right = true ∨
      ∃ tuple ∈ db.tuples, tuple.source = "share" ∧ tuple.object = cap.uri ∧
        tuple.tenantId = AccessRequest.tenant p ⟨principal, right, some cap, none⟩ ∧
        tuple.relation ∈ grantRelations right ∧ tuple.user ∈ subjectRefs p principal := by
  refine Rule.exists_applies_or ?_ h
  refine .cons .inl <| .cons .inl <| .cons (fun hshare => .inr (.inl hshare)) <|
    .cons (fun htuple => ?_) <| .cons .inl <| .cons .inl <| .cons .inl <| .cons .inl <|
    .cons .inl <| .cons .inl <| .cons .inl .nil
  obtain ⟨tuple, hmem, htenant, hobject, hrelation, huser⟩ := tuple_match_iff.mp htuple
  by_cases hshare : tuple.source = "share" ∧ tuple.object = cap.uri
  · exact .inr (.inr ⟨tuple, hmem, hshare.1, hshare.2, htenant, hrelation, huser⟩)
  · refine .inl (tuple_match_iff.mpr ⟨tuple, ?_, htenant, hobject, hrelation, huser⟩)
    refine (Table.mem_filter tuple).mpr ⟨hmem, ?_⟩
    simpa using not_and_or.mp hshare

/-- While every tuple of a share is covered, access through shares is exact. -/
theorem share_exact_of_covered (h : Covered state) : ShareExact p state := by
  intro directory orgCache principal cap right hright request hrefused hother
  rw [evaluate_access_allowed_iff, ← share_grant_iff h.addressed]
  constructor
  · rintro ⟨-, -, hgranted⟩
    rcases granted_cases hgranted with hgranted | hshare |
      ⟨tuple, htuple, hsource, hobject, htenant, hrelation, huser⟩
    · exact absurd hgranted hother
    · exact hshare
    · obtain ⟨share, hshare, hforce, hshareTenant, huri, hsubject, hlists⟩ :=
        h.covered tuple htuple hsource
      have hsame : tuple.relation = right :=
        eq_of_grant_relation (h.supported tuple htuple hsource) hright hrelation
      exact (share_grant_iff h.addressed).mpr ⟨share, hshare, hshareTenant.trans htenant,
        huri.trans hobject, hsubject ▸ huser, hsame ▸ hlists, hforce⟩
  · intro hshare
    exact ⟨hright, hrefused, _, .tail _ (.tail _ (.head _)), hshare⟩

end

/-- From a catalog that shares nothing, access through shares is exact in every state of every run
whose actions keep the tuples of shares covered. -/
theorem share_access_exact {p : Platform} {start : SharedCatalog} {actions : List ShareAction}
    (hstart : Unshared start.db)
    (hactions : Along (shareStep p) (KeepsCover p) start actions) :
    ∀ first second, actions = first ++ second → ShareExact p (run (shareStep p) start first) := by
  intro first second hsplit
  rw [hsplit, along_append] at hactions
  refine share_exact_of_covered (run_invariant_along ?_ hactions.1 (covered_of_unshared hstart))
  exact fun state action hkeeps hcovered => covered_step hkeeps hcovered

/-- The owner shares `load` until the summer, and the summer passes. -/
def expiredRun : List ShareAction :=
  [.create ((shareNotes ["load"] (some "2026-07-01 00:00:00")).decided .sample ownedContext),
    .wait "2026-08-01 00:00:00"]

/-- Whether a catalog allows a subject a right that no share in force gives it. -/
def allowsUnshared (state : SharedCatalog) (principal : Principal) (cap : Capability)
    (right : String) : Bool :=
  let ctx := fun db => (⟨db, ⟨[], [], [], [], []⟩, fun _ _ => none, state.now⟩ : AccessContext)
  let request : AccessRequest := ⟨principal, right, some cap, none⟩
  (accessRefusals .sample (ctx state.db) request).all (!·.applies) &&
    (accessGrants .sample (ctx (state.db.withoutShares cap.uri)) request).all (!·.applies) &&
    (evaluateAccess .sample (ctx state.db) request).allowed &&
    state.db.shares.rows.all (!·.inForce state.now)

theorem not_exact_of_allows_unshared {state : SharedCatalog} {principal : Principal}
    {cap : Capability} {right : String} (hright : right ∈ accessRights)
    (h : allowsUnshared state principal cap right = true) : ¬ ShareExact .sample state := by
  intro hexact
  simp only [allowsUnshared, Bool.and_eq_true, List.all_eq_true, Bool.not_eq_true'] at h
  obtain ⟨⟨⟨hrefusals, hgrants⟩, hallowed⟩, hshares⟩ := h
  have hunrefused : ¬ Refused .sample ⟨state.db, ⟨[], [], [], [], []⟩, fun _ _ => none, state.now⟩
      ⟨principal, right, some cap, none⟩ := by
    rintro ⟨rule, hrule, happlies⟩
    rw [hrefusals rule hrule] at happlies
    cases happlies
  have hungranted : ¬ Granted .sample ⟨state.db.withoutShares cap.uri, ⟨[], [], [], [], []⟩,
      fun _ _ => none, state.now⟩ ⟨principal, right, some cap, none⟩ := by
    rintro ⟨rule, hrule, happlies⟩
    rw [hgrants rule hrule] at happlies
    cases happlies
  obtain ⟨share, hshare, -, -, -, -, hforce⟩ :=
    (hexact _ _ principal cap right hright hunrefused hungranted).mp hallowed
  rw [hshares share hshare] at hforce
  cases hforce

theorem unshared_owned_catalog : Unshared ownedCatalog :=
  ⟨fun _ => Table.not_mem_empty _, fun tuple htuple => absurd htuple (Table.not_mem_empty tuple)⟩

/-- The tuple of a share outlives its expiry. -/
theorem share_expired_counterexample :
    ¬ ∀ (p : Platform) (start : SharedCatalog) (actions : List ShareAction),
      Unshared start.db → ShareExact p (run (shareStep p) start actions) := by
  intro hclaim
  have hallows : allowsUnshared
      (run (shareStep .sample) ⟨ownedCatalog, "2026-01-01 00:00:00"⟩ expiredRun)
      { subject := "bob", tenantId := "asg" } ownedNotes "load" = true := by decide +kernel
  exact not_exact_of_allows_unshared (by decide) hallows
    (hclaim .sample _ expiredRun unshared_owned_catalog)

/-- Before the summer, the same share is exact. -/
theorem share_access_exact_fresh : Unshared ownedCatalog ∧
    ShareExact .sample (run (shareStep .sample) ⟨ownedCatalog, "2026-01-01 00:00:00"⟩
      [.create ((shareNotes ["load"] (some "2026-07-01 00:00:00")).decided .sample
        ownedContext)]) := by
  refine ⟨unshared_owned_catalog, share_access_exact unshared_owned_catalog ?_ _ [] rfl⟩
  exact ⟨.inl (by decide +kernel), trivial⟩

end Capmesh
