import Capmesh.Access.Evaluate

/-!
# Deny dominance and monotonicity

A disabled principal, a blocked capability, and a matching deny tuple each refuse a
request whatever the grants say. More deny tuples refuse more; more of anything else
grants more. `granted_mono` compares the grants of two contexts rule by rule, and
`evaluate_access_monotone` collects the four laws.
-/

namespace Capmesh

open Python Relational Execution

/-- `deny`, or `deny_` with a right. -/
def isDenyRelation (relation : String) : Bool :=
  relation = "deny" || accessRights.any fun right => relation = "deny_" ++ right

/-- A context with more deny tuples. -/
structure DeniesAdded (before after : AccessContext) : Prop where
  rest : after = { before with db := { before.db with tuples := after.db.tuples } }
  kept : ∀ tuple ∈ before.db.tuples, tuple ∈ after.db.tuples
  added : ∀ tuple ∈ after.db.tuples,
    tuple ∈ before.db.tuples ∨ isDenyRelation tuple.relation = true

/-- A context with more relationship tuples that deny nothing, role assignments, shares, and
namespace members. -/
structure GrantsAdded (before after : AccessContext) : Prop where
  rest : after = { before with
    db := { before.db with
      tuples := after.db.tuples, roles := after.db.roles, shares := after.db.shares }
    directory := { before.directory with members := after.directory.members } }
  kept : ∀ tuple ∈ before.db.tuples, tuple ∈ after.db.tuples
  added : ∀ tuple ∈ after.db.tuples,
    tuple ∈ before.db.tuples ∨ isDenyRelation tuple.relation = false
  roles : ∀ role ∈ before.db.roles, role ∈ after.db.roles
  shares : ∀ share ∈ before.db.shares, share ∈ after.db.shares
  members : ∀ member ∈ before.directory.members, member ∈ after.directory.members

/-- A principal with more groups, roles, and scopes. -/
structure Widened (before after : Principal) : Prop where
  rest : after = { before with
    groups := after.groups, roles := after.roles, scopes := after.scopes }
  groups : before.groups ⊆ after.groups
  roles : before.roles ⊆ after.roles
  scopes : before.scopes ⊆ after.scopes

/-- A deny tuple that matches a request. -/
def DenyTupleMatches (p : Platform) (ctx : AccessContext) (request : AccessRequest) : Prop :=
  ∃ tuple ∈ ctx.db.tuples, tuple.tenantId = request.tenant p ∧
    tuple.object ∈ resourceRefs p request.capability request.resourceUri ∧
    (tuple.relation = "deny" ∨ tuple.relation = "deny_" ++ request.right) ∧
    tuple.user ∈ subjectRefs p request.principal

section

variable {p : Platform} {ctx after : AccessContext} {request : AccessRequest}
variable {principal wider : Principal} {tuples more : Table RelationshipTuple}
variable {tenant right : String} {objects relations subjects users : List String}

theorem GrantsAdded.refl (ctx : AccessContext) : GrantsAdded ctx ctx :=
  ⟨rfl, fun _ h => h, fun _ h => .inl h, fun _ h => h, fun _ h => h, fun _ h => h⟩

theorem Widened.refl (principal : Principal) : Widened principal principal :=
  ⟨rfl, fun _ h => h, fun _ h => h, fun _ h => h⟩

theorem tuple_match_iff : tupleMatch tuples tenant objects relations subjects = true ↔
    ∃ tuple ∈ tuples, tuple.tenantId = tenant ∧ tuple.object ∈ objects ∧
      tuple.relation ∈ relations ∧ tuple.user ∈ subjects := by
  simp [tupleMatch, Table.any_iff, and_assoc]

theorem is_denied_iff : isDenied p ctx request = true ↔ DenyTupleMatches p ctx request := by
  simp only [isDenied, tuple_match_iff, DenyTupleMatches, denyRelations, List.mem_cons,
    List.not_mem_nil, or_false]
  constructor
  · rintro ⟨tuple, htuple, htenant, hobject, hrelation, huser⟩
    exact ⟨tuple, htuple, htenant, hobject, hrelation.symm, huser⟩
  · rintro ⟨tuple, htuple, htenant, hobject, hrelation, huser⟩
    exact ⟨tuple, htuple, htenant, hobject, hrelation.symm, huser⟩

theorem is_deny_relation_of_mem (hright : right ∈ accessRights) {relation : String}
    (h : relation ∈ denyRelations right) : isDenyRelation relation = true := by
  simp only [denyRelations, List.mem_cons, List.not_mem_nil, or_false] at h
  rcases h with rfl | rfl
  · simp [isDenyRelation, hright]
  · simp [isDenyRelation]

theorem not_deny_of_grants (hright : right ∈ accessRights) :
    ∀ relation ∈ grantRelations right, isDenyRelation relation = false := by
  revert right
  decide

theorem tuple_match_mono (htuples : ∀ tuple ∈ tuples, tuple ∈ more) (husers : subjects ⊆ users)
    (h : tupleMatch tuples tenant objects relations subjects = true) :
    tupleMatch more tenant objects relations users = true := by
  obtain ⟨tuple, htuple, htenant, hobject, hrelation, huser⟩ := tuple_match_iff.mp h
  exact tuple_match_iff.mpr
    ⟨tuple, htuples tuple htuple, htenant, hobject, hrelation, husers huser⟩

theorem active_role_grant_mono (hctx : GrantsAdded ctx after) (husers : subjects ⊆ users)
    {capability : Option Capability} {resourceUri : Option String}
    (h : activeRoleGrant ctx tenant subjects right capability resourceUri = true) :
    activeRoleGrant after tenant users right capability resourceUri = true := by
  have hscope : ∀ role, scopeMatches after role tenant capability resourceUri =
      scopeMatches ctx role tenant capability resourceUri := by
    intro role
    rw [hctx.rest]
    rfl
  have hnow : after.now = ctx.now := by rw [hctx.rest]
  simp only [activeRoleGrant, Table.any_iff, Bool.and_eq_true, List.contains_eq_mem,
    decide_eq_true_eq, List.mem_map] at h ⊢
  obtain ⟨role, hrole, ⟨⟨⟨hrow, ref, href, hpair⟩, hfresh⟩, hmatches⟩, hright⟩ := h
  refine ⟨role, hctx.roles role hrole, ⟨⟨⟨hrow, ref, husers href, hpair⟩, ?_⟩, ?_⟩, hright⟩
  · rw [hnow]
    exact hfresh
  · rw [hscope]
    exact hmatches

theorem share_grant_mono {shares others : Table ShareRow} {now uri : String}
    (hshares : ∀ share ∈ shares, share ∈ others) (husers : subjects ⊆ users)
    (h : shareGrant shares now tenant subjects uri right = true) :
    shareGrant others now tenant users uri right = true := by
  simp only [shareGrant, Table.any_iff, Bool.and_eq_true, List.contains_eq_mem,
    decide_eq_true_eq] at h ⊢
  obtain ⟨huri, share, hshare, ⟨hrow, hsubject⟩, hlists⟩ := h
  exact ⟨huri, share, hshares share hshare, ⟨hrow, husers hsubject⟩, hlists⟩

theorem namespace_member_grant_mono {directory wideDirectory : Directory}
    {namespaceId : Option String}
    (hmembers : ∀ member ∈ directory.members, member ∈ wideDirectory.members)
    (husers : subjects ⊆ users)
    (h : namespaceMemberGrant directory namespaceId subjects right = true) :
    namespaceMemberGrant wideDirectory namespaceId users right = true := by
  simp only [namespaceMemberGrant, List.any_eq_true, Bool.and_eq_true, List.contains_eq_mem,
    decide_eq_true_eq] at h ⊢
  obtain ⟨hpresent, member, hmember, ⟨hrow, hsubject⟩, hrights⟩ := h
  exact ⟨hpresent, member, hmembers member hmember, ⟨hrow, husers hsubject⟩, hrights⟩

section

variable (h : Widened principal wider)

include h

theorem Widened.tenantId : wider.tenantId = principal.tenantId := by rw [h.rest]

theorem Widened.identity : wider.identity p = principal.identity p := by
  rw [h.rest]
  rfl

theorem Widened.subject_refs : subjectRefs p principal ⊆ subjectRefs p wider := by
  have hfixed : ∀ groups roles, subjectRefs p
      { principal with groups, roles, scopes := wider.scopes } =
      subjectRefs p { principal with groups := [], roles := [] } ++
        groups.map ("group:" ++ ·) ++ roles.map ("role:" ++ ·) := by
    intro groups roles
    simp [subjectRefs, Principal.identity]
  have hnarrow : subjectRefs p principal =
      subjectRefs p { principal with groups := [], roles := [] } ++
        principal.groups.map ("group:" ++ ·) ++ principal.roles.map ("role:" ++ ·) :=
    hfixed principal.groups principal.roles
  rw [h.rest, hfixed, hnarrow]
  intro ref href
  simp only [List.mem_append, List.mem_map] at href ⊢
  rcases href with (href | ⟨group, hgroup, rfl⟩) | ⟨role, hrole, rfl⟩
  · exact .inl (.inl href)
  · exact .inl (.inr ⟨group, h.groups hgroup, rfl⟩)
  · exact .inr ⟨role, h.roles hrole, rfl⟩

theorem Widened.global_role (hrole : principal.roles.any (globalRoleHasRight · right) = true) :
    wider.roles.any (globalRoleHasRight · right) = true := by
  obtain ⟨role, hmem, hright⟩ := List.any_eq_true.mp hrole
  exact List.any_eq_true.mpr ⟨role, h.roles hmem, hright⟩

theorem Widened.manifest_grant {cap : Capability}
    (hgrant : manifestGrant cap principal right = true) :
    manifestGrant cap wider right = true := by
  have hsubject : wider.subject = principal.subject := by rw [h.rest]
  simp only [manifestGrant, Bool.and_eq_true, Bool.or_eq_true, List.any_eq_true,
    List.all_eq_true, List.contains_eq_mem, decide_eq_true_eq] at hgrant ⊢
  obtain ⟨hright, (huser | ⟨group, hgroup, hallowed⟩) | ⟨hscoped, hscopes⟩⟩ := hgrant
  · exact ⟨hright, .inl (.inl (by rw [hsubject]; exact huser))⟩
  · exact ⟨hright, .inl (.inr ⟨group, h.groups hgroup, hallowed⟩)⟩
  · exact ⟨hright, .inr ⟨hscoped, fun scope hscope => h.scopes (hscopes scope hscope)⟩⟩

theorem Widened.owner_grant {cap : Capability} (hgrant : ownerGrant cap principal right = true) :
    ownerGrant cap wider right = true := by
  have hsubject : wider.subject = principal.subject := by rw [h.rest]
  have hidentity : wider.identityId = principal.identityId := by rw [h.rest]
  simp only [ownerGrant, Bool.and_eq_true, Bool.or_eq_true, List.contains_eq_mem,
    decide_eq_true_eq, hsubject, hidentity] at hgrant ⊢
  obtain ⟨hright, howner | hgroup⟩ := hgrant
  · exact ⟨hright, .inl howner⟩
  · exact ⟨hright, .inr (h.groups hgroup)⟩

end

theorem granted_mono (hctx : GrantsAdded ctx after) (hwider : Widened request.principal wider)
    (h : Granted p ctx request) : Granted p after { request with principal := wider } := by
  have htenant : ({ request with principal := wider } : AccessRequest).tenant p =
      request.tenant p := by
    simp only [AccessRequest.tenant, hwider.tenantId]
  have hrefs : subjectRefs p request.principal ⊆ subjectRefs p wider := hwider.subject_refs
  have hstores : after.directory.stores = ctx.directory.stores := by rw [hctx.rest]
  have hnow : after.now = ctx.now := by rw [hctx.rest]
  have hauthenticated : wider.authenticated = request.principal.authenticated := by
    rw [hwider.rest]
  have happ : wider.appId = request.principal.appId := by rw [hwider.rest]
  have hcapTenant : ∀ cap, capTenant p cap wider = capTenant p cap request.principal := by
    intro cap
    simp only [capTenant, hwider.tenantId]
  have hcapability : ∀ {grant other : Capability → Bool},
      (∀ cap, grant cap = true → other cap = true) →
      request.capability.any grant = true → request.capability.any other = true := by
    intro grant other himp hany
    cases hcap : request.capability with
    | none => simp [hcap] at hany
    | some cap =>
        simp only [hcap, Option.any_some] at hany ⊢
        exact himp cap hany
  refine Rule.exists_applies_mono ?_ h
  -- One case for each grant of the cascade, in its order.
  refine .cons hwider.global_role <| .cons (fun hrole => ?_) <| .cons (fun hshare => ?_) <|
    .cons (fun htuple => ?_) <| .cons (hcapability fun cap hmember => ?_) <|
    .cons (hcapability fun cap hstore => ?_) <|
    .cons (hcapability fun cap hmanifest => hwider.manifest_grant hmanifest) <|
    .cons (hcapability fun cap howner => hwider.owner_grant howner) <|
    .cons (hcapability fun cap hall => ?_) <| .cons (hcapability fun cap horg => ?_) <|
    .cons (hcapability fun cap hdefault => ?_) .nil
  · rw [htenant]
    exact active_role_grant_mono hctx hrefs hrole
  · rw [htenant, hnow]
    exact share_grant_mono hctx.shares hrefs hshare
  · rw [htenant]
    exact tuple_match_mono hctx.kept hrefs htuple
  · exact namespace_member_grant_mono hctx.members hrefs hmember
  · simpa only [storeOwnerGrant, Directory.storeOf, hstores, hwider.identity, happ] using hstore
  · simpa only [allUsersStoreGrant, Directory.storeOf, hstores, hauthenticated,
      hwider.tenantId] using hall
  · simp only [orgMembershipGrant, storeIsOrg, hstores, hauthenticated, hcapTenant,
      Bool.and_eq_true] at horg ⊢
    exact ⟨horg.1, active_role_grant_mono hctx hrefs horg.2⟩
  · simpa only [defaultVisibilityGrant, storeIsOrg, hstores, hauthenticated,
      hcapTenant] using hdefault

/-- The refusals of a request other than the deny tuples read none of what a grant adds. -/
theorem refused_of_grants_added (hctx : GrantsAdded ctx after)
    (hwider : Widened request.principal wider)
    (hdenied : isDenied p after { request with principal := wider } = false)
    (h : Refused p after { request with principal := wider }) : Refused p ctx request := by
  have hdisabled : isDisabled p after.directory wider =
      isDisabled p ctx.directory request.principal := by
    rw [hctx.rest, hwider.rest]
    rfl
  have hstep : wider.stepUpAuthenticated = request.principal.stepUpAuthenticated := by
    rw [hwider.rest]
  have hlacks : ∀ cap, lacksIntegrity p after.db cap request.right =
      lacksIntegrity p ctx.db cap request.right := by
    intro cap
    rw [hctx.rest]
    rfl
  simp only [Refused, accessRefusals, List.exists_mem_cons_iff, List.not_mem_nil, false_and,
    exists_false, or_false, hdisabled, hstep, hlacks, hdenied, Bool.false_eq_true] at h ⊢
  rcases h with hrule | hrule | hrule | hrule
  · exact .inl hrule
  · exact .inr (.inl hrule)
  · exact .inr (.inr (.inl hrule))
  · exact .inr (.inr (.inr (.inl hrule)))

/-- An allowed request stays allowed with more grants and a wider principal, when no deny tuple
matches it then. -/
theorem allowed_of_grants_added (hctx : GrantsAdded ctx after)
    (hwider : Widened request.principal wider)
    (hdenied : isDenied p after { request with principal := wider } = false)
    (h : (evaluateAccess p ctx request).allowed = true) :
    (evaluateAccess p after { request with principal := wider }).allowed = true := by
  obtain ⟨hright, hrefused, hgranted⟩ := evaluate_access_allowed_iff.mp h
  exact evaluate_access_allowed_iff.mpr ⟨hright,
    fun hafter => hrefused (refused_of_grants_added hctx hwider hdenied hafter),
    granted_mono hctx hwider hgranted⟩

theorem refused_of_denied (h : isDenied p ctx request = true) : Refused p ctx request :=
  ⟨_, .tail _ (.tail _ (.tail _ (.tail _ (.head _)))), h⟩

theorem not_allowed_of_refused (h : Refused p ctx request) :
    (evaluateAccess p ctx request).allowed = false := by
  rw [← Bool.not_eq_true]
  intro hallowed
  exact (evaluate_access_allowed_iff.mp hallowed).2.1 h

/-- A tuple that denies nothing adds no denial. -/
theorem is_denied_of_grants_added (hctx : GrantsAdded ctx after)
    (hright : request.right ∈ accessRights) (h : isDenied p ctx request = false) :
    isDenied p after request = false := by
  rw [← Bool.not_eq_true] at h ⊢
  intro hafter
  obtain ⟨tuple, htuple, htenant, hobject, hrelation, huser⟩ := tuple_match_iff.mp hafter
  rcases hctx.added tuple htuple with hbefore | hgrant
  · exact h (tuple_match_iff.mpr ⟨tuple, hbefore, htenant, hobject, hrelation, huser⟩)
  · rw [is_deny_relation_of_mem hright hrelation] at hgrant
    cases hgrant

/-- Deny tuples grant nothing: what is allowed with more of them was allowed before. -/
theorem allowed_of_denies_added (hctx : DeniesAdded ctx after)
    (h : (evaluateAccess p after request).allowed = true) :
    (evaluateAccess p ctx request).allowed = true := by
  obtain ⟨hright, hrefused, hgranted⟩ := evaluate_access_allowed_iff.mp h
  have hdb : after.db = { ctx.db with tuples := after.db.tuples } := by rw [hctx.rest]
  have hrest : after = { ctx with db := { ctx.db with tuples := after.db.tuples } } := hctx.rest
  refine evaluate_access_allowed_iff.mpr ⟨hright, fun hbefore => hrefused ?_, ?_⟩
  · rw [hrest]
    refine Rule.exists_applies_mono ?_ hbefore
    refine .cons id <| .cons id <| .cons id <| .cons id <| .cons (fun hdenied => ?_) .nil
    exact tuple_match_mono hctx.kept (fun _ hsubject => hsubject) hdenied
  · rw [hrest] at hgranted
    refine Rule.exists_applies_mono ?_ hgranted
    refine .cons id <| .cons id <| .cons id <| .cons (fun htuple => ?_) <| .cons id <|
      .cons id <| .cons id <| .cons id <| .cons id <| .cons id <| .cons id .nil
    obtain ⟨tuple, hmem, htenant, hobject, hrelation, huser⟩ := tuple_match_iff.mp htuple
    have hbefore : tuple ∈ ctx.db.tuples := by
      rcases hctx.added tuple hmem with hmem | hdeny
      · exact hmem
      · rw [not_deny_of_grants hright _ hrelation] at hdeny
        cases hdeny
    exact tuple_match_iff.mpr ⟨tuple, hbefore, htenant, hobject, hrelation, huser⟩

end

/-- Deny dominance and monotonicity. A disabled principal, a blocked capability, and a matching
deny tuple are refused; deny tuples allow nothing; and grants in the database, or groups, roles,
and scopes of the principal when no deny tuple matches it, refuse nothing. -/
theorem evaluate_access_monotone (p : Platform) (ctx : AccessContext) (request : AccessRequest) :
    (isDisabled p ctx.directory request.principal = true ∨
        request.capability.any (·.isBlocked) = true ∨ DenyTupleMatches p ctx request →
      (evaluateAccess p ctx request).allowed = false) ∧
    (∀ after, DeniesAdded ctx after → (evaluateAccess p ctx request).allowed = false →
      (evaluateAccess p after request).allowed = false) ∧
    (∀ after, GrantsAdded ctx after → (evaluateAccess p ctx request).allowed = true →
      (evaluateAccess p after request).allowed = true) ∧
    (∀ wider, Widened request.principal wider →
      ¬ DenyTupleMatches p ctx { request with principal := wider } →
      (evaluateAccess p ctx request).allowed = true →
      (evaluateAccess p ctx { request with principal := wider }).allowed = true) := by
  refine ⟨fun hrefusal => not_allowed_of_refused ?_, ?_, ?_, ?_⟩
  · rcases hrefusal with hdisabled | hblocked | hdenied
    · exact ⟨_, .head _, hdisabled⟩
    · exact ⟨_, .tail _ (.head _), hblocked⟩
    · exact refused_of_denied (is_denied_iff.mpr hdenied)
  · intro after hctx hbefore
    rw [← Bool.not_eq_true] at hbefore ⊢
    exact fun hafter => hbefore (allowed_of_denies_added hctx hafter)
  · intro after hctx hallowed
    obtain ⟨hright, hrefused, -⟩ := evaluate_access_allowed_iff.mp hallowed
    have hbefore : isDenied p ctx request = false := by
      rw [← Bool.not_eq_true]
      exact fun hdenied => hrefused (refused_of_denied hdenied)
    exact allowed_of_grants_added hctx (Widened.refl request.principal)
      (is_denied_of_grants_added hctx hright hbefore) hallowed
  · intro wider hwider hdeny hallowed
    have hdenied : isDenied p ctx { request with principal := wider } = false := by
      rw [← is_denied_iff, Bool.not_eq_true] at hdeny
      exact hdeny
    exact allowed_of_grants_added (GrantsAdded.refl ctx) hwider hdenied hallowed

/-- A deployment without records. -/
def bareContext : AccessContext :=
  ⟨.empty, ⟨[], [], [], [], []⟩, fun _ _ => none, "2026-01-01 00:00:00"⟩

/-- A platform administrator of the tenant `asg`. -/
def platformAdmin : Principal :=
  { subject := "alice", tenantId := "asg", roles := ["platform_admin"] }

/-- The administrator in one more group. -/
def groupedAdmin : Principal := { platformAdmin with groups := ["asg:local", "asg:ops"] }

theorem evaluate_access_monotone_admin :
    (evaluateAccess .sample bareContext ⟨platformAdmin, "load", none, some "doc:1"⟩).allowed = true ∧
      (evaluateAccess .sample bareContext ⟨groupedAdmin, "load", none, some "doc:1"⟩).allowed =
        true := by
  have hallowed : (evaluateAccess .sample bareContext
      ⟨platformAdmin, "load", none, some "doc:1"⟩).allowed = true := by decide +kernel
  refine ⟨hallowed, (evaluate_access_monotone .sample bareContext
    ⟨platformAdmin, "load", none, some "doc:1"⟩).2.2.2 groupedAdmin ?_ ?_ hallowed⟩
  · exact ⟨rfl, by decide, by decide, by decide⟩
  · rintro ⟨tuple, htuple, -⟩
    exact absurd htuple (Table.not_mem_empty tuple)

end Capmesh
