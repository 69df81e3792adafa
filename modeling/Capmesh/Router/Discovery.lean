import Capmesh.Access.Isolation
import Capmesh.Index.Search
import Capmesh.Router.Requests

/-!
# Discovery and the right to discover

`can_discover` asks for the right to load and then looks at the discovery mode; nothing asks for the
right to discover, which shares, tuples and memberships record apart from it. `governed_iff` says
when the two agree on a capability.
-/

namespace Capmesh

open Python Relational

namespace ToolRequest

variable (p : Platform) (request : ToolRequest) (db : Database)

/-- The records that `list_capabilities` returns to the request, and whether each is a stub. -/
def listed (capabilityType : Option CapabilityType) (plugin : Option String)
    (offset pageSize : Nat) : List (Capability × Bool) :=
  (listCapabilities db (fun cap => (request.canDiscover p db cap).1) capabilityType plugin offset
    pageSize).1.map fun cap => (cap, (request.canDiscover p db cap).2)

/-- The results that `search` returns to the request. -/
def found (engine : SearchEngine) (args : SearchArgs) : List SearchResult :=
  search p engine db (request.canDiscover p db) args

/-- The request for the right to discover. -/
def discover (cap : Capability) : AccessRequest :=
  { principal := request.principal, right := "discover", capability := some cap }

/-- What a record of a capability may be returned for: unlocked for the right to discover, and in no
form against a deny tuple. -/
structure MayShow (cap : Capability) (locked : Bool) : Prop where
  unlocked : locked = false →
    (evaluateAccess p (request.context db) (request.discover cap)).allowed = true
  denied : isDenied p (request.context db) (request.discover cap) = false

/-- The right to discover governs what lists and searches return of a capability. -/
structure Governed (cap : Capability) : Prop where
  list : ∀ capabilityType plugin offset pageSize locked,
    (cap, locked) ∈ request.listed p db capabilityType plugin offset pageSize →
      request.MayShow p db cap locked
  search : ∀ engine args, ∀ result ∈ request.found p db engine args, result.capability = cap →
    request.MayShow p db cap result.locked

/-- The grants that give the right to load together with the right to discover. -/
def readGrant (cap : Capability) : Bool :=
  let ctx := request.context db
  let subjects := subjectRefs p request.principal
  request.principal.roles.any (globalRoleHasRight · "load") ||
    activeRoleGrant ctx ((request.discover cap).tenant p) subjects "load" (some cap) none ||
    storeOwnerGrant p ctx.directory cap request.principal "load" ||
    manifestGrant cap request.principal "load" || ownerGrant cap request.principal "load" ||
    allUsersStoreGrant p ctx.directory cap request.principal "load" ||
    orgMembershipGrant p ctx cap request.principal "load" ||
    defaultVisibilityGrant p ctx.directory cap request.principal "load"

/-- Whether a relationship tuple with one of these relations matches. -/
def hasTuple (relations : List String) (cap : Capability) : Bool :=
  tupleMatch db.tuples ((request.discover cap).tenant p) (resourceRefs p (some cap) none) relations
    (subjectRefs p request.principal)

/-- The grants that a share, a tuple or a namespace membership records for one right. -/
def recordedGrant (right : String) (cap : Capability) : Bool :=
  let subjects := subjectRefs p request.principal
  shareGrant db.shares request.now ((request.discover cap).tenant p) subjects cap.uri right ||
    request.hasTuple p db (grantRelations right) cap ||
    namespaceMemberGrant request.directory cap.namespaceId subjects right

/-- The records agree on loading and discovering a capability that may be loaded: none denies the
right to discover, and the right to load does not come from records of that right alone. -/
structure RecordsAgree (cap : Capability) : Prop where
  denied : request.hasTuple p db ["deny_discover"] cap = false
  granted : request.readGrant p db cap = true ∨ request.recordedGrant p db "discover" cap = true

end ToolRequest

section

variable {p : Platform} {request : ToolRequest} {db : Database} {cap : Capability}

theorem tuple_match_append {tuples : Table RelationshipTuple} {tenant : String}
    {objects users : List String} (first second : List String) :
    tupleMatch tuples tenant objects (first ++ second) users =
      (tupleMatch tuples tenant objects first users ||
        tupleMatch tuples tenant objects second users) := by
  rw [Bool.eq_iff_iff, Bool.or_eq_true]
  simp only [tuple_match_iff, List.mem_append]
  constructor
  · rintro ⟨tuple, htuple, htenant, hobject, hrelation | hrelation, huser⟩
    · exact .inl ⟨tuple, htuple, htenant, hobject, hrelation, huser⟩
    · exact .inr ⟨tuple, htuple, htenant, hobject, hrelation, huser⟩
  · rintro (⟨tuple, htuple, htenant, hobject, hrelation, huser⟩ |
      ⟨tuple, htuple, htenant, hobject, hrelation, huser⟩)
    · exact ⟨tuple, htuple, htenant, hobject, .inl hrelation, huser⟩
    · exact ⟨tuple, htuple, htenant, hobject, .inr hrelation, huser⟩

theorem role_has_right_read (role : String) :
    roleHasRight role "discover" = roleHasRight role "load" := by
  unfold roleHasRight roleRights
  repeat' split
  all_goals rfl

theorem global_role_has_right_read (role : String) :
    globalRoleHasRight role "discover" = globalRoleHasRight role "load" := by
  unfold globalRoleHasRight
  rw [role_has_right_read]
  split
  · rfl
  · simp

theorem active_role_grant_read {ctx : AccessContext} {tenant : String} {subjects : List String} :
    activeRoleGrant ctx tenant subjects "discover" (some cap) none =
      activeRoleGrant ctx tenant subjects "load" (some cap) none := by
  simp only [activeRoleGrant, role_has_right_read]

theorem granted_discover_iff : Granted p (request.context db) (request.discover cap) ↔
    request.readGrant p db cap = true ∨ request.recordedGrant p db "discover" cap = true := by
  have hglobal : (request.principal.roles.any fun role => globalRoleHasRight role "discover") =
      request.principal.roles.any fun role => globalRoleHasRight role "load" := by
    simp only [global_role_has_right_read]
  have hstore : storeOwnerGrant p request.directory cap request.principal "discover" =
      storeOwnerGrant p request.directory cap request.principal "load" := rfl
  have hmanifest : manifestGrant cap request.principal "discover" =
      manifestGrant cap request.principal "load" := rfl
  have howner : ownerGrant cap request.principal "discover" =
      ownerGrant cap request.principal "load" := rfl
  have hall : allUsersStoreGrant p request.directory cap request.principal "discover" =
      allUsersStoreGrant p request.directory cap request.principal "load" := rfl
  have horg : orgMembershipGrant p (request.context db) cap request.principal "discover" =
      orgMembershipGrant p (request.context db) cap request.principal "load" := by
    simp only [orgMembershipGrant, active_role_grant_read]
    rfl
  have hvisibility : defaultVisibilityGrant p request.directory cap request.principal "discover" =
      defaultVisibilityGrant p request.directory cap request.principal "load" := rfl
  simp only [Granted, accessGrants, ToolRequest.discover, ToolRequest.context, List.mem_cons,
    List.not_mem_nil, or_false, exists_eq_or_imp, exists_eq_left, Option.any_some]
  simp only [ToolRequest.readGrant, ToolRequest.recordedGrant, ToolRequest.hasTuple,
    ToolRequest.discover, ToolRequest.context, Bool.or_eq_true] at *
  rw [hglobal, active_role_grant_read, hstore, hmanifest, howner, hall, horg, hvisibility]
  tauto

theorem is_denied_eq (right : String) :
    isDenied p (request.context db) { request.discover cap with right } =
      (request.hasTuple p db ["deny_" ++ right] cap || request.hasTuple p db ["deny"] cap) :=
  tuple_match_append ["deny_" ++ right] ["deny"]

/-- The first checks refuse a request to discover what may be loaded for a deny tuple alone. -/
theorem refused_discover_iff
    (hload : ¬ Refused p (request.context db) { request.discover cap with right := "load" }) :
    Refused p (request.context db) (request.discover cap) ↔
      request.hasTuple p db ["deny_discover"] cap = true := by
  have hstep : requiresStepUp "discover" (some cap) = false := rfl
  have hlacks : lacksIntegrity p db cap "discover" = lacksIntegrity p db cap "load" := rfl
  have hdiscover : isDenied p (request.context db) (request.discover cap) =
      (request.hasTuple p db ["deny_discover"] cap || request.hasTuple p db ["deny"] cap) :=
    is_denied_eq "discover"
  simp only [Refused, accessRefusals, List.mem_cons, List.not_mem_nil, or_false, exists_eq_or_imp,
    exists_eq_left, not_or, is_denied_eq, hdiscover, Bool.or_eq_true] at hload ⊢
  obtain ⟨hdisabled, hblocked, -, hintegrity, -, hdeny⟩ := hload
  simp only [ToolRequest.discover, ToolRequest.context, Option.any_some, hstep, hlacks] at *
  simp [hdisabled, hblocked, hintegrity, hdeny]

theorem discover_allowed_iff (hload : (request.canLoad p db "load" cap).allowed = true) :
    (evaluateAccess p (request.context db) (request.discover cap)).allowed = true ↔
      request.RecordsAgree p db cap := by
  obtain ⟨-, hunrefused, -⟩ := evaluate_access_allowed_iff.mp hload
  rw [evaluate_access_allowed_iff, granted_discover_iff, refused_discover_iff hunrefused,
    Bool.not_eq_true]
  have hright : "discover" ∈ accessRights := by decide
  exact ⟨fun ⟨_, hdenied, hgranted⟩ => ⟨hdenied, hgranted⟩,
    fun hagree => ⟨hright, hagree.denied, hagree.granted⟩⟩

theorem list_capabilities_served {visible : Capability → Bool}
    {capabilityType : Option CapabilityType} {plugin : Option String} {offset pageSize : Nat}
    (h : cap ∈ (listCapabilities db visible capabilityType plugin offset pageSize).1) :
    (∃ row ∈ db.capabilities, row.cap = cap) ∧ capguardIsHeld db.quarantine cap = false ∧
      visible cap = true := by
  obtain ⟨⟨row, hrow, hcap⟩, hserved⟩ := mem_served_rows_iff.mp h
  have hsorted := List.mem_of_mem_drop (List.mem_of_mem_take (List.mem_of_mem_take hrow))
  have hselected := List.mem_filter.mp ((List.mem_insertionSort _).mp hsorted)
  exact ⟨⟨row, hselected.1, hcap⟩, hserved⟩

/-- Every row that is not held and may be discovered is on some page of the whole list. -/
theorem list_capabilities_reaches (visible : Capability → Bool) {row : CapabilityRow}
    (hrow : row ∈ db.capabilities) (hfree : capguardIsHeld db.quarantine row.cap = false)
    (hvisible : visible row.cap = true) :
    ∃ offset, row.cap ∈ (listCapabilities db visible none none offset 1).1 := by
  have hsorted : row ∈ (db.capabilities.rows.filter fun row =>
      ((none : Option CapabilityType).isNone || none = some row.cap.capabilityType) &&
        (!present none || row.cap.plugin = none)).insertionSort fun a b => listOrder a b :=
    (List.mem_insertionSort _).mpr (List.mem_filter.mpr ⟨hrow, by simp [present]⟩)
  obtain ⟨offset, hlt, rfl⟩ := List.mem_iff_getElem.mp hsorted
  refine ⟨offset, mem_served_rows_iff.mpr ⟨⟨_, ?_, rfl⟩, hfree, hvisible⟩⟩
  rw [List.take_take, List.drop_eq_getElem_cons hlt]
  exact List.mem_cons_self

theorem can_discover_of_load (h : (request.canLoad p db "load" cap).allowed = true) :
    request.canDiscover p db cap = (true, false) := by
  simp [ToolRequest.canDiscover, h]

theorem can_discover_of_not_load (h : (request.canLoad p db "load" cap).allowed = false) :
    request.canDiscover p db cap =
      if cap.discoveryMode = .locked then (true, true) else (false, false) := by
  unfold ToolRequest.canDiscover
  cases hmode : cap.discoveryMode <;> simp [h]

theorem shown_iff : ((request.canDiscover p db cap).1 = true →
      request.MayShow p db cap (request.canDiscover p db cap).2) ↔
    ((request.canLoad p db "load" cap).allowed = true → request.RecordsAgree p db cap) ∧
      ((request.canLoad p db "load" cap).allowed = false → cap.discoveryMode = .locked →
        isDenied p (request.context db) (request.discover cap) = false) := by
  cases hload : (request.canLoad p db "load" cap).allowed with
  | true =>
      have hiff := discover_allowed_iff hload
      rw [can_discover_of_load hload]
      constructor
      · intro h
        exact ⟨fun _ => hiff.mp ((h rfl).unlocked rfl), fun hnot => by cases hnot⟩
      · intro ⟨hagree, _⟩ _
        have hallowed := hiff.mpr (hagree rfl)
        refine ⟨fun _ => hallowed, Bool.eq_false_iff.mpr fun hdenied => ?_⟩
        exact (evaluate_access_allowed_iff.mp hallowed).2.1 (refused_of_denied hdenied)
  | false =>
      rw [can_discover_of_not_load hload]
      by_cases hlocked : cap.discoveryMode = .locked
      · simp only [if_pos hlocked]
        constructor
        · intro h
          exact ⟨fun hnot => (by cases hnot), fun _ _ => (h trivial).denied⟩
        · intro ⟨_, hdenied⟩ _
          exact ⟨fun hnot => (by cases hnot), hdenied trivial hlocked⟩
      · simp [hlocked]

/-- **Discovery by the right to discover.** Lists and searches show a row of the catalog by the
right to discover exactly when CapGuard holds the row, or the records agree on it where it may be
loaded, and where it may not and is a locked stub, no tuple denies the right. -/
theorem governed_iff {row : CapabilityRow} (hrow : row ∈ db.capabilities) :
    request.Governed p db row.cap ↔
      capguardIsHeld db.quarantine row.cap = true ∨
      (((request.canLoad p db "load" row.cap).allowed = true →
          request.RecordsAgree p db row.cap) ∧
        ((request.canLoad p db "load" row.cap).allowed = false →
          row.cap.discoveryMode = .locked →
          isDenied p (request.context db) (request.discover row.cap) = false)) := by
  rw [← shown_iff]
  constructor
  · intro hgoverned
    cases hfree : capguardIsHeld db.quarantine row.cap with
    | true => exact .inl rfl
    | false =>
        refine .inr fun hvisible => ?_
        obtain ⟨offset, hlisted⟩ := list_capabilities_reaches
          (fun cap => (request.canDiscover p db cap).1) hrow hfree hvisible
        exact hgoverned.list _ _ offset _ _ (List.mem_map.mpr ⟨_, hlisted, rfl⟩)
  · intro hshown
    have hserved : capguardIsHeld db.quarantine row.cap = false →
        (request.canDiscover p db row.cap).1 = true →
        request.MayShow p db row.cap (request.canDiscover p db row.cap).2 := by
      intro hfree
      rcases hshown with hheld | hshown
      · rw [hfree] at hheld
        cases hheld
      · exact hshown
    constructor
    · intro _ _ _ _ locked hentry
      obtain ⟨cap, hcap, heq⟩ := List.mem_map.mp hentry
      cases heq
      obtain ⟨-, hfree, hvisible⟩ := list_capabilities_served hcap
      exact hserved hfree hvisible
    · intro engine args result hresult hcap
      obtain ⟨-, hfree, hvisible, hlocked⟩ := search_result_served hresult
      rw [hlocked]
      rw [hcap] at hfree hvisible ⊢
      exact hserved hfree hvisible

end

/-- A protected skill that its owner shared with bob for loading. -/
def sharedSkill : Capability :=
  { notesSkill "sha256:v1" with owner := "alice", visibility := .protected }

/-- A locked skill that a tuple denies bob to discover. -/
def deniedSkill : Capability :=
  { sharedSkill with
    uri := "cap://asg.local/skill/notes.audit@0-1-0", name := "audit", title := "Audit"
    canonicalKey := "skill:notes:audit:0-1-0", contentHash := "sha256:v2"
    discoveryMode := .locked }

/-- A catalog with the two skills, the share and the tuple. -/
def sharedCatalog : Database :=
  { Database.empty with
    capabilities := ⟨[⟨1, sharedSkill⟩, ⟨2, deniedSkill⟩], by decide⟩
    shares := ⟨[⟨"shr_1", "asg", sharedSkill.uri, none, "user", "bob", ["load"], .active, none,
      false⟩], List.pairwise_singleton _ _⟩
    tuples := ⟨[⟨"rel_1", "asg", deniedSkill.uri, "deny_discover", "user:bob", "manual"⟩],
      List.pairwise_singleton _ _⟩ }

/-- A request by a subject without further grants. -/
def requestBy (subject : String) : ToolRequest where
  params := []
  principal := { subject, tenantId := "asg" }
  directory := ⟨[], [], [], [], []⟩
  orgCache _ _ := none
  now := "2026-01-01 00:00:00"

/-- The owner of a protected skill sees it by right. -/
theorem governed_iff_owner : (requestBy "alice").Governed .sample sharedCatalog sharedSkill := by
  have hrow : (⟨1, sharedSkill⟩ : CapabilityRow) ∈ sharedCatalog.capabilities :=
    List.mem_cons_self
  have hagree : (requestBy "alice").RecordsAgree .sample sharedCatalog sharedSkill :=
    ⟨by decide +kernel, .inl (by decide +kernel)⟩
  refine (governed_iff hrow).mpr (.inr ⟨fun _ => hagree, fun hload => ?_⟩)
  have hallowed : ((requestBy "alice").canLoad .sample sharedCatalog "load" sharedSkill).allowed =
      true := by decide +kernel
  rw [hallowed] at hload
  cases hload

/-- Bob is listed a skill he may load and not discover, and a stub of one he is denied. -/
theorem governed_counterexample :
    ((⟨1, sharedSkill⟩ : CapabilityRow) ∈ sharedCatalog.capabilities ∧
      ¬ (requestBy "bob").Governed .sample sharedCatalog sharedSkill) ∧
    (⟨2, deniedSkill⟩ : CapabilityRow) ∈ sharedCatalog.capabilities ∧
      ¬ (requestBy "bob").Governed .sample sharedCatalog deniedSkill := by
  refine ⟨⟨List.mem_cons_self, fun hgoverned => ?_⟩, List.mem_cons_of_mem _ List.mem_cons_self,
    fun hgoverned => ?_⟩
  · have hlisted : (sharedSkill, false) ∈
        (requestBy "bob").listed .sample sharedCatalog none none 0 50 := by decide +kernel
    have hdiscover := (hgoverned.list _ _ _ _ _ hlisted).unlocked rfl
    revert hdiscover
    decide +kernel
  · have hlisted : (deniedSkill, true) ∈
        (requestBy "bob").listed .sample sharedCatalog none none 0 50 := by decide +kernel
    have hdenied := (hgoverned.list _ _ _ _ _ hlisted).denied
    revert hdenied
    decide +kernel

end Capmesh
