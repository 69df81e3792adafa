import Capmesh.Directory.Stores
import Capmesh.Execution.Memo
import Capmesh.Execution.Run

/-!
# The organization cache

`org_id_for_store` remembers its answers for the life of the process, by tenant and store and
without the database. `active_role_grant` asks it for every role of an organization it comes to.
`org_cache_transparent` says when no evaluation of a run can tell the cache from the query: no store
gets an organization after it was remembered to have none, and what is remembered for one database
is so in all of them.
-/

namespace Capmesh

open Python Relational Execution

/-- `_ORG_FOR_STORE_CACHE`, by tenant and store. -/
abbrev OrgMemo := Memo (String × String) (Option String)

/-- The query of `org_id_for_store`. -/
def StoreTables.orgOf (tables : StoreTables) (key : String × String) : Option String :=
  (tables.organizations.find? fun org => org.storeId = some key.2 && org.tenantId = key.1).map
    (·.id)

/-- `org_id_for_store`. -/
def StoreTables.orgIdForStore (tables : StoreTables) (memo : OrgMemo) (storeId : Option String)
    (tenant : String) : Option String × OrgMemo :=
  match storeId with
  | some store => if store = "" then (none, memo) else memo.lookup tables.orgOf (tenant, store)
  | none => (none, memo)

/-- The arguments of `active_role_grant`, and the clock. -/
structure RoleGrantCall where
  tenant : String
  subjects : List String
  right : String
  capability : Option Capability := none
  resourceUri : Option String := none
  now : String

namespace RoleGrantCall

variable (call : RoleGrantCall)

/-- Whether a role is one of the subjects' and in force. -/
def considers (role : RoleAssignment) : Bool :=
  role.tenantId = call.tenant && !role.revoked &&
    (call.subjects.map (partition ':')).contains (role.subjectType, role.subjectId) &&
    !expired role.expiresAt call.now

/-- The organization `_org_scope_matches` compares, for a capability. -/
def orgId (tables : StoreTables) (memo : OrgMemo) (cap : Capability) : Option String × OrgMemo :=
  tables.orgIdForStore memo cap.storeId (orElse cap.tenantId call.tenant)

/-- Whether a role is one of an organization and the resource a capability, so that the query
decides. -/
def asks (role : RoleAssignment) : Option Capability :=
  if role.scopeType = "org" then call.capability else none

/-- Whether the scope of any other role covers the resource. -/
def covers (role : RoleAssignment) : Bool :=
  if role.scopeType = "org" then
    call.resourceUri = some ("org:" ++ role.scopeId) || call.resourceUri = some role.scopeId
  else roleAssignmentScopeMatches role call.tenant call.capability call.resourceUri

/-- Whether the scope of a role covers the resource, and the memo after it. -/
def scope (tables : StoreTables) (memo : OrgMemo) (role : RoleAssignment) : Bool × OrgMemo :=
  match call.asks role with
  | some cap => ((call.orgId tables memo cap).1 = some role.scopeId, (call.orgId tables memo cap).2)
  | none => (call.covers role, memo)

/-- The loop of `active_role_grant`. -/
def grant (tables : StoreTables) : OrgMemo → List RoleAssignment → Bool × OrgMemo
  | memo, [] => (false, memo)
  | memo, role :: roles =>
      if call.considers role then
        if (call.scope tables memo role).1 && roleHasRight role.role call.right then
          (true, (call.scope tables memo role).2)
        else grant tables (call.scope tables memo role).2 roles
      else grant tables memo roles

/-- Whether the loop comes to a role of an organization, for a capability. -/
def consults : List RoleAssignment → Bool
  | [] => false
  | role :: roles =>
      if call.considers role then
        if (call.asks role).isSome then true
        else if call.covers role && roleHasRight role.role call.right then false
        else consults roles
      else consults roles

/-- The key a call looks up. -/
def key : Option (String × String) :=
  call.capability.bind fun cap => (cap.storeId.filter (· ≠ "")).map
    (orElse cap.tenantId call.tenant, ·)

end RoleGrantCall

/-- A database: its catalog, whose roles count here, and its directory. -/
structure OrgDatabase where
  db : Database
  tables : StoreTables

/-- A process with several databases and one cache. -/
structure OrgProcess (ι : Type) where
  databases : ι → OrgDatabase
  memo : OrgMemo

/-- What a process does to one of its databases. -/
inductive OrgAction (ι : Type) where
  | createStore (database : ι) (now : String) (call : StoreCall)
  | ensurePrincipalStores (database : ι) (principal : Principal) (identityId : Option String)
  | ensureDefaultTenant (database : ι) (tenant now : String)
  | evaluate (database : ι) (call : RoleGrantCall)

section

variable {ι : Type} [DecidableEq ι]

/-- A database with the tables a writer leaves; one that fails is rolled back. -/
def OrgProcess.write (state : OrgProcess ι) (database : ι)
    (writer : StoreTables → Except Failure StoreTables) : OrgProcess ι :=
  match writer (state.databases database).tables with
  | .ok tables =>
      { state with databases := fun other =>
          if other = database then { state.databases other with tables }
          else state.databases other }
  | .error _ => state

/-- One action. -/
def orgStep (p : Platform) (orgName : String) (state : OrgProcess ι) :
    OrgAction ι → OrgProcess ι
  | .createStore database now call =>
      state.write database (createStore p orgName now · call)
  | .ensurePrincipalStores database principal identityId =>
      state.write database (·.ensurePrincipalStores p orgName principal
        (optOr identityId (principal.identity p)))
  | .ensureDefaultTenant database tenant now =>
      state.write database (·.ensureDefaultTenant p orgName tenant now)
  | .evaluate database call =>
      { state with memo := (call.grant (state.databases database).tables state.memo
          (state.databases database).db.roles.rows).2 }

/-- The answers of the query on each database. -/
def OrgProcess.answers (state : OrgProcess ι) (database : ι) : String × String → Option String :=
  (state.databases database).tables.orgOf

/-- An evaluation remembers only what is so in every database, and no other action gives an
organization to a store that is remembered to have none. -/
def KeepsOrgCache (p : Platform) (orgName : String) (state : OrgProcess ι) :
    OrgAction ι → Prop
  | .evaluate database call =>
      call.consults (state.databases database).db.roles.rows = true →
        ∀ key, call.key = some key → state.memo key = none →
          ∀ other, state.answers other key = state.answers database key
  | action => ∀ key, state.memo key = some none →
      ∀ database, (orgStep p orgName state action).answers database key = none

/-- Every lookup answers what the query on its database would. -/
def OrgProcess.Transparent (state : OrgProcess ι) : Prop := state.memo.Transparent state.answers

end

section

variable {tables : StoreTables} {memo later : OrgMemo} {call : RoleGrantCall}

/-- The memo after the lookup of the call's key. -/
def RoleGrantCall.remembered (call : RoleGrantCall) (tables : StoreTables) (memo : OrgMemo) :
    OrgMemo :=
  match call.key with
  | some key => (memo.lookup tables.orgOf key).2
  | none => memo

theorem org_id_cases (tables : StoreTables) {cap : Capability}
    (hcap : call.capability = some cap) :
    (call.key = none ∧ ∀ memo, call.orgId tables memo cap = (none, memo)) ∨
      ∃ key, call.key = some key ∧ ∀ memo, call.orgId tables memo cap =
        memo.lookup tables.orgOf key := by
  unfold RoleGrantCall.key RoleGrantCall.orgId StoreTables.orgIdForStore
  simp only [hcap, Option.bind_some]
  cases cap.storeId with
  | none => exact .inl ⟨rfl, fun _ => rfl⟩
  | some store =>
      by_cases hempty : store = ""
      · exact .inl ⟨by simp [hempty], fun _ => if_pos hempty⟩
      · refine .inr ⟨(orElse cap.tenantId call.tenant, store), by simp [hempty], fun _ => ?_⟩
        exact if_neg hempty

theorem capability_of_asks {role : RoleAssignment} {cap : Capability}
    (h : call.asks role = some cap) : role.scopeType = "org" ∧ call.capability = some cap := by
  unfold RoleGrantCall.asks at h
  split at h
  · exact ⟨‹_›, h⟩
  · cases h

theorem scope_spec (h : later = memo ∨ later = call.remembered tables memo)
    (role : RoleAssignment) : (call.scope tables later role).1 = (call.scope tables memo role).1 ∧
      (call.scope tables later role).2 =
        if (call.asks role).isSome then call.remembered tables memo else later := by
  unfold RoleGrantCall.scope
  cases hasks : call.asks role with
  | none => exact ⟨rfl, rfl⟩
  | some cap =>
      unfold RoleGrantCall.remembered at h ⊢
      obtain ⟨hkey, hnone⟩ | ⟨key, hkey, hlookup⟩ :=
        org_id_cases tables (capability_of_asks hasks).2
      · rw [hkey] at h ⊢
        simp only [hnone, or_self] at h ⊢
        exact ⟨trivial, h⟩
      · rw [hkey] at h ⊢
        simp only [hlookup]
        cases h with
        | inl hsame =>
            rw [hsame]
            exact ⟨rfl, rfl⟩
        | inr hlater =>
            have hagain : later.lookup tables.orgOf key = memo.lookup tables.orgOf key := by
              rw [hlater]
              exact Memo.lookup_lookup tables.orgOf key
            rw [hagain]
            exact ⟨rfl, rfl⟩

/-- The loop decides as if each role were looked up in the first memo, and remembers the answer to
the call's key if it comes to a role that asks for it. -/
theorem grant_spec (h : later = memo ∨ later = call.remembered tables memo)
    (roles : List RoleAssignment) :
    (call.grant tables later roles).1 = (roles.any fun role => call.considers role &&
        (call.scope tables memo role).1 && roleHasRight role.role call.right) ∧
      (call.grant tables later roles).2 =
        if call.consults roles then call.remembered tables memo else later := by
  induction roles generalizing later with
  | nil => exact ⟨rfl, rfl⟩
  | cons role roles ih =>
      unfold RoleGrantCall.grant RoleGrantCall.consults
      rw [List.any_cons]
      by_cases hconsidered : call.considers role = true
      · obtain ⟨hcovers, hmemo⟩ := scope_spec h role
        simp only [hconsidered, if_true, Bool.true_and, hcovers, hmemo]
        cases hasks : call.asks role with
        | some cap =>
            simp only [Option.isSome_some, if_true]
            split
            · rename_i hgrants
              exact ⟨by simp [hgrants], rfl⟩
            · rename_i hrefuses
              obtain ⟨hrest, hlast⟩ := @ih (call.remembered tables memo) (.inr rfl)
              exact ⟨by simp [hrefuses, hrest], hlast.trans (ite_self _)⟩
        | none =>
            have hdirect : (call.scope tables memo role).1 = call.covers role := by
              simp only [RoleGrantCall.scope, hasks]
            simp only [Option.isSome_none, Bool.false_eq_true, if_false, hdirect]
            split
            · rename_i hgrants
              exact ⟨by simp [hgrants], rfl⟩
            · rename_i hrefuses
              obtain ⟨hrest, hlast⟩ := ih h
              exact ⟨by simp [hrefuses, hrest], hlast⟩
      · simp only [hconsidered, Bool.false_eq_true, if_false, Bool.false_and, Bool.false_or]
        exact ih h

/-- What access control reads of the organizations is the query. -/
theorem directory_org (members : List NamespaceMember) (tenant store : String) :
    (((tables.directory members).organizations.find? fun org =>
      org.storeId = store && org.tenantId = tenant).map (·.id)) = tables.orgOf (tenant, store) := by
  unfold StoreTables.orgOf Table.find?
  show Option.map _ (List.find? _ (tables.organizations.rows.filterMap _)) = _
  induction tables.organizations.rows with
  | nil => rfl
  | cons row rows ih =>
      cases hstore : row.storeId with
      | none => simpa [List.filterMap_cons, OrganizationRow.organization, hstore] using ih
      | some other =>
          by_cases hsame : other = store ∧ row.tenantId = tenant
          · simp [OrganizationRow.organization, hstore, hsame]
          · have hother : (other = store && row.tenantId = tenant : Bool) = false := by
              simpa using hsame
            simpa [List.filterMap_cons, List.find?_cons, OrganizationRow.organization, hstore,
              hother] using ih

/-- What a decision reads, with the answers of a memo. -/
def OrgDatabase.context (database : OrgDatabase) (members : List NamespaceMember) (memo : OrgMemo)
    (now : String) : AccessContext :=
  ⟨database.db, database.tables.directory members, fun tenant store => memo (tenant, store), now⟩

theorem context_org_id (database : OrgDatabase) (members : List NamespaceMember) (now : String)
    (storeId : Option String) (tenant : String) :
    orgIdForStore (database.context members memo now) storeId tenant =
      (database.tables.orgIdForStore memo storeId tenant).1 := by
  unfold orgIdForStore StoreTables.orgIdForStore
  cases storeId with
  | none => rfl
  | some store =>
      by_cases hempty : store = ""
      · simp only [hempty, if_true]
      · simp only [hempty, if_false]
        unfold OrgDatabase.context Memo.lookup
        dsimp only
        cases memo (tenant, store) with
        | some answer => rfl
        | none => exact directory_org members tenant store

/-- The loop over the roles of a database decides as `active_role_grant` does with the memo. -/
theorem grant_eq_active_role_grant (database : OrgDatabase) (members : List NamespaceMember) :
    (call.grant database.tables memo database.db.roles.rows).1 =
      activeRoleGrant (database.context members memo call.now) call.tenant call.subjects call.right
        call.capability call.resourceUri := by
  rw [(grant_spec (.inl rfl) _).1]
  show _ = database.db.roles.rows.any _
  congr 1
  funext role
  have hscope : (call.scope database.tables memo role).1 = scopeMatches
      (database.context members memo call.now) role call.tenant call.capability
      call.resourceUri := by
    unfold RoleGrantCall.scope RoleGrantCall.asks RoleGrantCall.covers scopeMatches orgScopeMatches
    by_cases horg : role.scopeType = "org"
    · simp only [horg, if_true]
      cases call.capability with
      | none => rfl
      | some cap =>
          simp only [context_org_id]
          rfl
    · simp only [horg, if_false]
  rw [hscope]
  simp only [RoleGrantCall.considers, OrgDatabase.context]

end

section

variable {ι : Type} [DecidableEq ι] {p : Platform} {orgName : String} {state : OrgProcess ι}

/-- A writer leaves an organization of a store where it is. -/
theorem org_of_grew {tables after : StoreTables} (h : tables.Grew after) {key : String × String}
    (hkey : tables.orgOf key ≠ none) : after.orgOf key = tables.orgOf key := by
  unfold StoreTables.orgOf Table.find? at hkey ⊢
  cases hfind : tables.organizations.rows.find? fun org =>
      org.storeId = some key.2 && org.tenantId = key.1 with
  | none => simp [hfind] at hkey
  | some org => rw [h.organizations.find?_eq_some hfind]

/-- What a write of a process that only appends makes of the answers. -/
theorem write_answers {writer : StoreTables → Except Failure StoreTables}
    (hwriter : ∀ tables after, writer tables = .ok after → tables.Grew after) (database other : ι)
    {key : String × String} (hkey : state.answers other key ≠ none) :
    (state.write database writer).answers other key = state.answers other key := by
  unfold OrgProcess.write
  split
  · rename_i tables hwritten
    by_cases hsame : other = database
    · subst hsame
      show ((if other = other then _ else _ : OrgDatabase).tables).orgOf key = _
      rw [if_pos rfl]
      exact org_of_grew (hwriter _ _ hwritten) hkey
    · show ((if other = database then _ else _ : OrgDatabase).tables).orgOf key = _
      rw [if_neg hsame]
      rfl
  · rfl

theorem write_memo (database : ι) (writer : StoreTables → Except Failure StoreTables) :
    (state.write database writer).memo = state.memo := by
  unfold OrgProcess.write
  split <;> rfl

/-- A write keeps the cache transparent exactly when it gives no organization to a store that is
remembered to have none. -/
theorem transparent_write_iff {writer : StoreTables → Except Failure StoreTables}
    (hwriter : ∀ tables after, writer tables = .ok after → tables.Grew after) (database : ι)
    (h : state.Transparent) : (state.write database writer).Transparent ↔
      ∀ key, state.memo key = some none →
        ∀ other, (state.write database writer).answers other key = none := by
  unfold OrgProcess.Transparent at h ⊢
  rw [write_memo, Memo.transparent_change_iff h]
  have hanswer := Memo.transparent_iff.mp h
  constructor
  · intro hsame key hkey other
    rw [hsame other key (by simp [hkey])]
    exact hanswer other key none hkey
  · intro hnone other key hkey
    cases hold : state.answers other key with
    | some org =>
        rw [write_answers hwriter database other (by simp [hold])]
        exact hold
    | none =>
        obtain ⟨answer, hremembered⟩ := Option.ne_none_iff_exists'.mp hkey
        have hnoOrg : answer = none := (hanswer other key answer hremembered).symm.trans hold
        exact hnone key (hnoOrg ▸ hremembered) other

theorem transparent_step_iff (h : state.Transparent) (action : OrgAction ι) :
    (orgStep p orgName state action).Transparent ↔ KeepsOrgCache p orgName state action := by
  cases action with
  | createStore database now call =>
      exact transparent_write_iff (fun _ _ => create_store_grew) database h
  | ensurePrincipalStores database principal identityId =>
      exact transparent_write_iff (fun _ _ => StoreTables.ensure_principal_stores_grew) database h
  | ensureDefaultTenant database tenant now =>
      exact transparent_write_iff (fun _ _ => StoreTables.ensure_default_tenant_grew) database h
  | evaluate database call =>
      unfold KeepsOrgCache orgStep OrgProcess.Transparent
      dsimp only
      rw [(grant_spec (.inl rfl) _).2]
      by_cases hconsults : call.consults (state.databases database).db.roles.rows = true
      · simp only [hconsults, if_true, true_implies]
        unfold RoleGrantCall.remembered
        cases call.key with
        | none => exact iff_of_true h (by simp)
        | some key =>
            have hlookup := Memo.transparent_lookup_iff h database key
            simp only [Option.some.injEq, forall_eq']
            exact hlookup
      · simp only [hconsults, if_false, Bool.false_eq_true, false_implies, iff_true]
        exact h

omit [DecidableEq ι] in
/-- With a transparent cache, a decision is the one without it. -/
theorem grant_of_transparent (h : state.Transparent) (database : ι)
    (members : List NamespaceMember) (call : RoleGrantCall) :
    (call.grant (state.databases database).tables state.memo
        (state.databases database).db.roles.rows).1 =
      activeRoleGrant ((state.databases database).context members Memo.empty call.now) call.tenant
        call.subjects call.right call.capability call.resourceUri := by
  rw [← grant_eq_active_role_grant, (grant_spec (.inl rfl) _).1, (grant_spec (.inl rfl) _).1]
  congr 1
  funext role
  have hscope : (call.scope (state.databases database).tables state.memo role).1 =
      (call.scope (state.databases database).tables Memo.empty role).1 := by
    unfold RoleGrantCall.scope
    cases hasks : call.asks role with
    | none => rfl
    | some cap =>
        obtain ⟨-, hnone⟩ | ⟨key, -, hlookup⟩ := 
          org_id_cases (state.databases database).tables (capability_of_asks hasks).2
        · simp only [hnone]
        · have hanswer := h database key
          unfold OrgProcess.answers at hanswer
          simp only [hlookup, hanswer]
          rfl
  rw [hscope]

omit [DecidableEq ι] in
/-- `org_id_for_store` with a transparent cache answers as without it. -/
theorem org_id_of_transparent (h : state.Transparent) (database : ι) (storeId : Option String)
    (tenant : String) :
    ((state.databases database).tables.orgIdForStore state.memo storeId tenant).1 =
      ((state.databases database).tables.orgIdForStore Memo.empty storeId tenant).1 := by
  unfold StoreTables.orgIdForStore
  cases storeId with
  | none => rfl
  | some store =>
      by_cases hempty : store = ""
      · simp only [hempty, if_true]
      · simp only [hempty, if_false]
        exact h database (tenant, store)

end

/-- From the start of a process, while every evaluation remembers only what is so in every database
and no store gets an organization that is remembered to have none, `org_id_for_store` answers and
`active_role_grant` decides as without the cache. An action that does not keep to this ends it. -/
theorem org_cache_transparent {ι : Type} [DecidableEq ι] (p : Platform) (orgName : String)
    (start : OrgProcess ι) (actions : List (OrgAction ι)) (hstart : start.memo = Memo.empty)
    (hactions : Along (orgStep p orgName) (KeepsOrgCache p orgName) start actions) :
    (∀ earlier later, actions = earlier ++ later →
      let state := run (orgStep p orgName) start earlier
      (∀ database storeId tenant,
        ((state.databases database).tables.orgIdForStore state.memo storeId tenant).1 =
          ((state.databases database).tables.orgIdForStore Memo.empty storeId tenant).1) ∧
      ∀ database members (call : RoleGrantCall),
        (call.grant (state.databases database).tables state.memo
            (state.databases database).db.roles.rows).1 =
          activeRoleGrant ((state.databases database).context members Memo.empty call.now)
            call.tenant call.subjects call.right call.capability call.resourceUri) ∧
    ∀ action, ¬ KeepsOrgCache p orgName (run (orgStep p orgName) start actions) action →
      ¬ (orgStep p orgName (run (orgStep p orgName) start actions) action).Transparent := by
  have htransparent : ∀ earlier later, actions = earlier ++ later →
      (run (orgStep p orgName) start earlier).Transparent := by
    intro earlier later hsplit
    subst hsplit
    refine run_invariant_along (P := KeepsOrgCache p orgName) (I := OrgProcess.Transparent)
      (fun state action hkeeps hstate => (transparent_step_iff hstate action).mpr hkeeps)
      ((along_append start earlier later).mp hactions).1 ?_
    unfold OrgProcess.Transparent
    rw [hstart]
    exact Memo.transparent_empty _
  refine ⟨fun earlier later hsplit => ?_, fun action hbreaks hafter => ?_⟩
  · have hstate := htransparent earlier later hsplit
    exact ⟨org_id_of_transparent hstate, grant_of_transparent hstate⟩
  · have hstate := htransparent actions [] (by simp)
    exact hbreaks ((transparent_step_iff hstate action).mp hafter)

/-- An administrator whose identity and stores are there. -/
def buildAdmin : SignIn :=
  { principal := { subject := "capmesh", tenantId := "asg", identityId := some "idn_admin" } }

/-- A directory without organizations, and a catalog in which bob is a member of one. -/
def buildOffice : OrgDatabase where
  db := { Database.empty with
    roles := ⟨[{ id := "rol_1", tenantId := "asg", subjectType := "user", subjectId := "bob"
                 role := "member", scopeType := "org", scopeId := "org_build"
                 expiresAt := none, revoked := false }], List.pairwise_singleton _ _⟩ }
  tables :=
    { tenants := ⟨[{ id := "asg", slug := "asg", displayName := "the company" }],
        List.pairwise_singleton _ _⟩
      identities := ⟨[buildAdmin.row .sample "t0"], List.pairwise_singleton _ _⟩
      apps := .empty
      stores := ⟨[{ id := "store_1", tenantId := "asg", kind := .userPrivate, name := "Private"
                    uriPrefix := "cap://user/asg/idn_admin/private"
                    ownerIdentityId := some "idn_admin" },
          { id := "store_2", tenantId := "asg", kind := .userShared, name := "Shared"
            uriPrefix := "cap://user/asg/idn_admin/shared"
            ownerIdentityId := some "idn_admin" }], by decide +kernel⟩
      organizations := .empty
      namespaces := .empty }

/-- The administrator creates the store of an organization. -/
def createBuild : OrgAction Unit :=
  .createStore () "t1"
    { caller := buildAdmin, access := ⟨true, ""⟩, newId := "store_3"
      payload := { kind := some "org", id := some "store_build", name := some "Build"
                   uriPrefix := some "cap://org/asg/build", orgSlug := some "build"
                   orgId := some "org_build" } }

/-- Bob asks for a capability of that store. -/
def askBuild : RoleGrantCall where
  tenant := "asg"
  subjects := ["user:bob"]
  right := "load"
  capability := some { notesSkill "sha256:v1" with storeId := some "store_build" }
  now := "2026-01-01 00:00:00"

/-- Bob asks before the store has its organization, which is then forgotten for him. -/
theorem org_cache_counterexample :
    ¬ ∀ (p : Platform) (orgName : String) (start : OrgProcess Unit)
        (actions : List (OrgAction Unit)), start.memo = Memo.empty →
      let state := run (orgStep p orgName) start actions
      ∀ database members (call : RoleGrantCall),
        (call.grant (state.databases database).tables state.memo
            (state.databases database).db.roles.rows).1 =
          activeRoleGrant ((state.databases database).context members Memo.empty call.now)
            call.tenant call.subjects call.right call.capability call.resourceUri := by
  intro hclaim
  have hsame := hclaim .sample "the company" ⟨fun _ => buildOffice, Memo.empty⟩
    [.evaluate () askBuild, createBuild] rfl () [] askBuild
  rw [← grant_eq_active_role_grant] at hsame
  revert hsame
  decide +kernel

/-- Bob asks after it: he may load, as without the cache. -/
theorem org_cache_transparent_created :
    let state := run (orgStep .sample "the company") ⟨fun _ : Unit => buildOffice, Memo.empty⟩
      [createBuild, .evaluate () askBuild]
    (askBuild.grant (state.databases ()).tables state.memo
        (state.databases ()).db.roles.rows).1 =
      activeRoleGrant ((state.databases ()).context [] Memo.empty askBuild.now) askBuild.tenant
        askBuild.subjects askBuild.right askBuild.capability askBuild.resourceUri := by
  refine ((org_cache_transparent .sample "the company" ⟨fun _ : Unit => buildOffice, Memo.empty⟩
    [createBuild, .evaluate () askBuild] rfl ⟨?_, ?_, trivial⟩).1 _ [] rfl).2 () [] askBuild
  · intro key hkey
    cases hkey
  · exact fun _ _ _ _ _ => rfl

end Capmesh
