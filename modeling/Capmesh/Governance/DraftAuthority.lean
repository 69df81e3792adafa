import Capmesh.Governance.Addresses
import Capmesh.Governance.Edits

/-!
# The authority of a draft's author

The store, the namespace and the URI of a draft are three fields of the payload.
`create_capability_draft` asks for the right to manage the store when it belongs to an
organization or to the system, looks the namespace up, and upserts whatever URI it was given.
Read `create_capability_draft_writes` first: it says which row a creation writes.
`draft_authorized_iff` says when the author had a right to write it.
-/

namespace Capmesh

open Python Relational Execution

/-- The store a draft names. -/
def DraftCall.namedStore (p : Platform) (call : DraftCall) : String :=
  optOr call.storeId (p.stableId "store"
    [p.tenantOr call.principal.tenantId, "user_private", call.principal.identity p])

/-- The namespace a draft names. -/
def DraftCall.namedNamespace (p : Platform) (call : DraftCall) : String :=
  optOr call.namespaceId
    (p.stableId "ns" [p.tenantOr call.principal.tenantId, call.namedStore p, "personal"])

/-- The namespace a draft names, as the directory has it. -/
def DraftCall.space (p : Platform) (ctx : AccessContext) (call : DraftCall) : Option Namespace :=
  ctx.directory.namespaces.find? fun space =>
    space.id = call.namedNamespace p && space.tenantId = p.tenantOr call.principal.tenantId

/-- A request of the author for the right to manage. -/
def DraftCall.asks (call : DraftCall) (capability : Option Capability)
    (resourceUri : Option String) : AccessRequest :=
  { principal := call.principal, right := "manage", capability, resourceUri }

/-- A creation on the directory and with the decision of an access context. -/
def DraftCall.under (p : Platform) (ctx : AccessContext) (call : DraftCall) : DraftCall :=
  { call with
    directory := ctx.directory
    manage := evaluateAccess p ctx (call.asks none (some ("store:" ++ call.namedStore p))) }

/-- Whether a principal owns a store. -/
def Store.ownedBy (p : Platform) (store : Store) (principal : Principal) : Bool :=
  ((store.kind = .userPrivate || store.kind = .userShared) &&
      store.ownerIdentityId = some (principal.identity p)) ||
    (store.kind = .app && present principal.appId && store.ownerAppId = principal.appId)

/-- Whether the author owns a store, or may manage it or the namespace. -/
def DraftCall.mayWrite (p : Platform) (ctx : AccessContext) (call : DraftCall) (store : Store)
    (space : Namespace) : Bool :=
  store.ownedBy p call.principal ||
    (evaluateAccess p ctx (call.asks none (some ("store:" ++ store.id)))).allowed ||
    (evaluateAccess p ctx (call.asks none (some ("namespace:" ++ space.id)))).allowed ||
    namespaceMemberGrant ctx.directory (some space.id) (subjectRefs p call.principal) "manage"

/-- A namespace of the named store that the author may write in. -/
def DraftCall.Home (p : Platform) (ctx : AccessContext) (call : DraftCall)
    (namespaceId : String) : Prop :=
  ∃ space ∈ ctx.directory.namespaces, space.id = namespaceId ∧
    space.tenantId = p.tenantOr call.principal.tenantId ∧ space.storeId = call.namedStore p ∧
    ∃ store ∈ ctx.directory.stores, store.id = call.namedStore p ∧
      store.tenantId = p.tenantOr call.principal.tenantId ∧
      call.mayWrite p ctx store space = true

/-- What a creation promises: it changes a row only with the right to manage it, and what it writes
lies in the named store, in a namespace of that store, where the author may write. -/
structure DraftAuthorized (p : Platform) (ctx : AccessContext) (call : DraftCall)
    (result : Database) : Prop where
  kept : ∀ row ∈ ctx.db.capabilities, row ∈ result.capabilities ∨
    (evaluateAccess p ctx (call.asks (some row.cap) none)).allowed = true
  placed : ∀ row ∈ result.capabilities, row ∉ ctx.db.capabilities →
    row.cap.storeId = some (call.namedStore p) ∧
      ∃ namespaceId, row.cap.namespaceId = some namespaceId ∧ call.Home p ctx namespaceId

/-- Whether the default rewrite leaves an address in place. -/
def staysInPlace (uri : String) : Bool := startsWith uri "cap://system/" || isGovernedUri uri

/-- The address of a draft in a namespace. -/
def DraftCall.address (p : Platform) (call : DraftCall) (space : Namespace) : String :=
  optOr call.uri (String.ofList (rstrip (· = '/') space.uriPrefix.toList) ++ "/" ++
    call.capabilityType ++ "/" ++ slug p call.name ++ "@" ++
    normalizeVersion p (optOr call.version "0.1.0"))

/-- The address a draft is filed at. -/
def DraftCall.filedAddress (p : Platform) (call : DraftCall) (space : Namespace) : String :=
  if staysInPlace (call.address p space) then call.address p space
  else defaultUserNamespacePrefix p (p.tenantOr call.principal.tenantId) ++ "/" ++
    (call.capabilityType ++ "/" ++ slug p (optOr call.plugin "global") ++ "." ++
      slug p (slug p call.name) ++ "@" ++
      versionSegment p (normalizeVersion p (optOr call.version "0.1.0")))

/-- A creation within its author's authority: the author may manage the row at the address, and an
address outside the governed namespaces is filed where the draft says. -/
structure DraftWithin (p : Platform) (ctx : AccessContext) (call : DraftCall)
    (space : Namespace) : Prop where
  managed : ∀ row ∈ ctx.db.capabilities, row.cap.uri = call.filedAddress p space →
    (evaluateAccess p ctx (call.asks (some row.cap) none)).allowed = true
  named : staysInPlace (call.address p space) = false →
    call.namedStore p = defaultUserPrivateStoreId p (p.tenantOr call.principal.tenantId)
  home : call.Home p ctx (if staysInPlace (call.address p space) then call.namedNamespace p
    else defaultUserPrivateNamespaceId p (p.tenantOr call.principal.tenantId))

section

variable {p : Platform} {ctx : AccessContext} {db result : Database} {call : DraftCall}
variable {cap : Capability} {space : Namespace} {storeId text : String}

theorem capability_type_parse_eq {type : CapabilityType}
    (h : CapabilityType.parse text = some type) : type.text = text := by
  unfold CapabilityType.parse at h
  simpa using List.find?_some h

/-- The columns of a draft that say where it goes. -/
structure Drafted (p : Platform) (call : DraftCall) (storeId : String) (space : Namespace)
    (cap : Capability) : Prop where
  uri : cap.uri = call.address p space
  kind : cap.sourceKind = "capmesh_draft"
  tenant : cap.tenantId = p.tenantOr call.principal.tenantId
  store : cap.storeId = some storeId
  space : cap.namespaceId = some (optOr call.namespaceId
    (p.stableId "ns" [p.tenantOr call.principal.tenantId, storeId, "personal"]))
  type : cap.capabilityType.text = call.capabilityType
  name : cap.name = slug p call.name
  version : cap.version = normalizeVersion p (optOr call.version "0.1.0")
  plugin : cap.plugin = call.plugin

theorem draft_capability_drafted (h : draftCapability p call storeId = .ok cap) :
    ∃ space, (call.directory.namespaces.find? fun space =>
      space.id = optOr call.namespaceId
        (p.stableId "ns" [p.tenantOr call.principal.tenantId, storeId, "personal"]) &&
        space.tenantId = p.tenantOr call.principal.tenantId) = some space ∧
    Drafted p call storeId space cap := by
  unfold draftCapability at h
  obtain ⟨entrypoint, -, h⟩ := bind_eq_ok h
  dsimp only at h
  split at h
  · cases h
  split at h
  · cases h
  · rename_i space hspace
    obtain ⟨capabilityType, htype, h⟩ := bind_eq_ok h
    obtain ⟨visibility, -, h⟩ := bind_eq_ok h
    obtain ⟨discoveryMode, -, h⟩ := bind_eq_ok h
    obtain ⟨riskTier, -, h⟩ := bind_eq_ok h
    cases h
    have htext := capability_type_parse_eq (checked_ok htype)
    refine ⟨space, hspace, ?_, rfl, ?_, rfl, ?_, htext, ?_, ?_, rfl⟩ <;> dsimp only
    unfold DraftCall.address
    rfl

/-- The draft of a creation in an access context. -/
theorem drafted_under (hspace : call.space p ctx = some space)
    (h : draftCapability p (call.under p ctx) (call.namedStore p) = .ok cap) :
    Drafted p call (call.namedStore p) space cap := by
  obtain ⟨found, hfound, hdrafted⟩ := draft_capability_drafted h
  cases hspace.symm.trans hfound
  exact ⟨hdrafted.uri, hdrafted.kind, hdrafted.tenant, hdrafted.store, hdrafted.space,
    hdrafted.type, hdrafted.name, hdrafted.version, hdrafted.plugin⟩

/-- A draft is a system capability exactly when its address says so. -/
theorem draft_is_system (hkind : cap.sourceKind = "capmesh_draft") :
    cap.isSystem = startsWith cap.uri "cap://system/" := by
  unfold Capability.isSystem
  rw [hkind]
  rfl

theorem drafted_uri (h : Drafted p call storeId space cap) :
    (applyDefaultUserNamespace p cap).uri = call.filedAddress p space := by
  rw [apply_default_uri, draft_is_system h.kind, h.uri]
  unfold DraftCall.filedAddress staysInPlace
  split
  · rfl
  · rw [capabilityCanonicalTail, userNamespaceCapabilityUri, remove_prefix_append, h.type, h.name,
      h.version, h.plugin, h.tenant, p.tenant_or_tenant_or]

theorem drafted_place (h : Drafted p call storeId space cap) :
    (applyDefaultUserNamespace p cap).storeId =
        some (if staysInPlace cap.uri then storeId
          else defaultUserPrivateStoreId p (p.tenantOr call.principal.tenantId)) ∧
      (applyDefaultUserNamespace p cap).namespaceId =
        some (if staysInPlace cap.uri then optOr call.namespaceId
            (p.stableId "ns" [p.tenantOr call.principal.tenantId, storeId, "personal"])
          else defaultUserPrivateNamespaceId p (p.tenantOr call.principal.tenantId)) := by
  unfold applyDefaultUserNamespace staysInPlace
  rw [draft_is_system h.kind]
  by_cases hsystem : startsWith cap.uri "cap://system/" = true
  · simp only [hsystem, if_true, Bool.true_or]
    exact ⟨h.store, h.space⟩
  · rw [if_neg hsystem, Bool.eq_false_iff.mpr hsystem, Bool.false_or]
    by_cases hgoverned : isGovernedUri cap.uri = true
    · simp only [hgoverned, if_true]
      exact ⟨h.store, h.space⟩
    · simp only [Bool.eq_false_iff.mpr hgoverned, Bool.false_eq_true, if_false, h.tenant,
        p.tenant_or_tenant_or]
      exact ⟨trivial, trivial⟩

/-- What a creation writes: the row at its address, or a new one. -/
theorem create_capability_draft_writes
    (hcap : draftCapability p (call.under p ctx) (call.namedStore p) = .ok cap)
    (h : createCapabilityDraft p ctx.db (call.under p ctx) = .ok result) :
    ∃ id, (∀ x, x ∈ result.capabilities ↔ x = ⟨id, written
        (ctx.db.capabilityAt (incoming p ctx.db cap).uri) (incoming p ctx.db cap)⟩ ∨
          (x ∈ ctx.db.capabilities ∧ x.cap.uri ≠ (incoming p ctx.db cap).uri)) ∧
      (∀ row, ctx.db.capabilityAt (incoming p ctx.db cap).uri = some row → id = row.id) ∧
      (ctx.db.capabilityAt (incoming p ctx.db cap).uri = none →
        ∀ row ∈ ctx.db.capabilities, row.id ≠ id) := by
  unfold createCapabilityDraft at h
  obtain ⟨storeId, hstore, h⟩ := bind_eq_ok h
  have hnamed : storeId = call.namedStore p := by
    unfold checkDraft at hstore
    dsimp only at hstore
    split at hstore
    · cases hstore
    · split at hstore
      · cases hstore
      · split at hstore
        · cases hstore
        · split at hstore
          · cases hstore
          · exact (Except.ok.inj hstore).symm
  subst hnamed
  obtain ⟨cap', hcap', h⟩ := bind_eq_ok h
  cases hcap.symm.trans hcap'
  obtain ⟨⟨id, written⟩, hupsert, h⟩ := bind_eq_ok h
  cases h
  obtain ⟨table, expected, hwrite, -, -, rfl⟩ := upsert_capability_ok hupsert
  exact ⟨id, write_row_ok hwrite⟩

/-- The row a creation writes has the place of its draft. -/
theorem written_place (p : Platform) (db : Database) (cap : Capability)
    (existing : Option CapabilityRow) :
    (written existing (incoming p db cap)).storeId = (applyDefaultUserNamespace p cap).storeId ∧
      (written existing (incoming p db cap)).namespaceId =
        (applyDefaultUserNamespace p cap).namespaceId := by
  obtain ⟨lifecycle, heq⟩ := incoming_lifecycle p db cap
  rw [heq]
  cases existing <;> exact ⟨rfl, rfl⟩

/-- The row a creation writes lies where the promise asks exactly when the named store and a home
in it do. -/
theorem placed_iff (ctx : AccessContext) (db : Database)
    (h : Drafted p call (call.namedStore p) space cap)
    (existing : Option CapabilityRow) :
    ((written existing (incoming p db cap)).storeId = some (call.namedStore p) ∧
      ∃ namespaceId, (written existing (incoming p db cap)).namespaceId = some namespaceId ∧
        call.Home p ctx namespaceId) ↔
    (staysInPlace (call.address p space) = false →
        call.namedStore p = defaultUserPrivateStoreId p (p.tenantOr call.principal.tenantId)) ∧
      call.Home p ctx (if staysInPlace (call.address p space) then call.namedNamespace p
        else defaultUserPrivateNamespaceId p (p.tenantOr call.principal.tenantId)) := by
  obtain ⟨hstore, hspace⟩ := written_place p db cap existing
  obtain ⟨hstoreId, hspaceId⟩ := drafted_place h
  rw [hstore, hspace, hstoreId, hspaceId, h.uri]
  cases staysInPlace (call.address p space) with
  | true => simp [DraftCall.namedNamespace]
  | false => simp [eq_comm]

/-- A creation keeps its promises exactly when it repeats the row at its address or stays within its
author's authority. -/
theorem draft_authorized_iff (hspace : call.space p ctx = some space)
    (hcap : draftCapability p (call.under p ctx) (call.namedStore p) = .ok cap)
    (h : createCapabilityDraft p ctx.db (call.under p ctx) = .ok result) :
    DraftAuthorized p ctx call result ↔
      (∃ row ∈ ctx.db.capabilities, row.cap.uri = call.filedAddress p space ∧
        changes row.cap (incoming p ctx.db cap).stored = false) ∨
      DraftWithin p ctx call space := by
  have hdrafted := drafted_under hspace hcap
  obtain ⟨id, hmem, hid, hfresh⟩ := create_capability_draft_writes hcap h
  have huri : (incoming p ctx.db cap).uri = call.filedAddress p space :=
    (incoming_uri p ctx.db cap).trans (drafted_uri hdrafted)
  have hplaced := placed_iff ctx ctx.db hdrafted
    (ctx.db.capabilityAt (incoming p ctx.db cap).uri)
  rw [huri] at hmem hid hfresh hplaced
  -- Only the row at the address can be new, and only if it was not there already.
  have hwritten : (⟨id, written (ctx.db.capabilityAt (call.filedAddress p space))
        (incoming p ctx.db cap)⟩ : CapabilityRow) ∉ ctx.db.capabilities →
      ((∀ row ∈ result.capabilities, row ∉ ctx.db.capabilities →
        row.cap.storeId = some (call.namedStore p) ∧
          ∃ namespaceId, row.cap.namespaceId = some namespaceId ∧ call.Home p ctx namespaceId) ↔
      (staysInPlace (call.address p space) = false →
        call.namedStore p = defaultUserPrivateStoreId p (p.tenantOr call.principal.tenantId)) ∧
      call.Home p ctx (if staysInPlace (call.address p space) then call.namedNamespace p
        else defaultUserPrivateNamespaceId p (p.tenantOr call.principal.tenantId))) := by
    intro hnew
    rw [← hplaced]
    refine ⟨fun hall => hall _ ((hmem _).mpr (.inl rfl)) hnew, fun hplace row hrow hout => ?_⟩
    rcases (hmem row).mp hrow with rfl | ⟨hold, -⟩
    · exact hplace
    · exact absurd hold hout
  cases hat : ctx.db.capabilityAt (call.filedAddress p space) with
  | none =>
      rw [hat] at hwritten hmem
      have hempty : ∀ row ∈ ctx.db.capabilities, row.cap.uri ≠ call.filedAddress p space :=
        fun row hrow => Database.capability_at_none hat hrow
      have hplaces := hwritten fun hold => hfresh hat _ hold rfl
      constructor
      · intro hauthorized
        obtain ⟨hnamed, hhome⟩ := hplaces.mp hauthorized.placed
        exact .inr ⟨fun row hrow huri => absurd huri (hempty row hrow), hnamed, hhome⟩
      · rintro (⟨row, hrow, huri, -⟩ | hwithin)
        · exact absurd huri (hempty row hrow)
        · exact ⟨fun row hrow => .inl ((hmem row).mpr (.inr ⟨hrow, hempty row hrow⟩)),
            hplaces.mpr ⟨hwithin.named, hwithin.home⟩⟩
  | some found =>
      rw [hat] at hwritten hmem
      obtain ⟨hfound, hfoundUri⟩ := Database.capability_at_some hat
      cases hid found hat
      have hmerged := merged_eq_iff found.cap (incoming p ctx.db cap).stored
        (hfoundUri.trans huri.symm)
      by_cases hsame : changes found.cap (incoming p ctx.db cap).stored = false
      · have hrow : (⟨found.id, written (some found) (incoming p ctx.db cap)⟩ : CapabilityRow) =
            found := by rw [written, hmerged.mpr hsame]
        rw [hrow] at hmem
        refine ⟨fun _ => .inl ⟨found, hfound, hfoundUri, hsame⟩, fun _ => ⟨fun row hrow => ?_,
          fun row hrow hout => ?_⟩⟩
        · by_cases hrowUri : row.cap.uri = call.filedAddress p space
          · exact .inl ((hmem row).mpr
              (.inl (Database.eq_of_uri hrow hfound (hrowUri.trans hfoundUri.symm))))
          · exact .inl ((hmem row).mpr (.inr ⟨hrow, hrowUri⟩))
        · rcases (hmem row).mp hrow with rfl | ⟨hold, -⟩
          · exact absurd hfound hout
          · exact absurd hold hout
      · have hchanged : (⟨found.id, written (some found) (incoming p ctx.db cap)⟩ :
            CapabilityRow) ≠ found := fun hrow =>
          hsame (hmerged.mp (congrArg CapabilityRow.cap hrow))
        have hplaces := hwritten fun hold =>
          hchanged (Database.eq_of_id hold hfound rfl)
        constructor
        · intro hauthorized
          obtain ⟨hnamed, hhome⟩ := hplaces.mp hauthorized.placed
          refine .inr ⟨fun row hrow hrowUri => ?_, hnamed, hhome⟩
          obtain rfl := Database.eq_of_uri hrow hfound (hrowUri.trans hfoundUri.symm)
          refine (hauthorized.kept row hrow).resolve_left fun hstays => ?_
          rcases (hmem row).mp hstays with hrow | ⟨-, hne⟩
          · exact hchanged hrow.symm
          · exact hne hfoundUri
        · rintro (⟨row, hrow, hrowUri, hrepeats⟩ | hwithin)
          · obtain rfl := Database.eq_of_uri hrow hfound (hrowUri.trans hfoundUri.symm)
            exact absurd hrepeats hsame
          · refine ⟨fun row hrow => ?_, hplaces.mpr ⟨hwithin.named, hwithin.home⟩⟩
            by_cases hrowUri : row.cap.uri = call.filedAddress p space
            · exact .inr (hwithin.managed row hrow hrowUri)
            · exact .inl ((hmem row).mpr (.inr ⟨hrow, hrowUri⟩))

end

/-- A directory in which ann and bob have a private store each. -/
def sharedOffice : Directory where
  stores := annDirectory.stores ++
    [{ id := "store_bob", tenantId := "asg", kind := .userPrivate, disabled := false
       ownerIdentityId := some "idn_bob" }]
  namespaces := annDirectory.namespaces ++
    [⟨"ns_bob", "asg", "store_bob", "cap://user/asg/bob/private/personal", true⟩]
  organizations := []

/-- What an access decision reads of a catalog in that directory. -/
def officeContext (db : Database) : AccessContext :=
  { db, directory := sharedOffice, orgCache := fun _ _ => none, now := "2026-07-20T00:00:00+00:00" }

/-- A draft of bob's in his own store, at the address of ann's. -/
def bobsNotes : DraftCall :=
  { draftNotes with
    principal := { subject := "bob", tenantId := "asg", identityId := some "idn_bob" }
    storeId := some "store_bob"
    namespaceId := some "ns_bob"
    content := "# Notes, revised"
    uri := some "cap://user/asg/ann/private/personal/workflow/notes@0.1.0" }

/-- A draft is created over the draft of another author, who alone may manage it. -/
theorem draft_over_another_author :
    ¬ ∀ (p : Platform) (ctx : AccessContext) (call : DraftCall) (result : Database),
      createCapabilityDraft p ctx.db (call.under p ctx) = .ok result →
      DraftAuthorized p ctx call result := by
  intro hclaim
  have hrun : ((createCapabilityDraft editPlatform .empty draftNotes).bind fun db =>
      (createCapabilityDraft editPlatform db (bobsNotes.under editPlatform (officeContext db))).map
        fun result => db.capabilities.rows.any fun row => !result.capabilities.rows.contains row &&
          !(evaluateAccess editPlatform (officeContext db)
            (bobsNotes.asks (some row.cap) none)).allowed) = .ok true := by decide +kernel
  obtain ⟨db, -, hrun⟩ := bind_eq_ok hrun
  obtain ⟨result, hresult, hany⟩ := map_eq_ok hrun
  obtain ⟨row, hrow, hbad⟩ := List.any_eq_true.mp hany
  obtain ⟨hgone, hdenied⟩ := Bool.and_eq_true_iff.mp hbad
  rcases (hclaim editPlatform (officeContext db) bobsNotes result hresult).kept row hrow with
    hstays | hallowed
  · have hstays : row ∈ result.capabilities.rows := hstays
    simp [hstays] at hgone
  · rw [hallowed] at hdenied
    cases hdenied

/-- A draft in the author's own store, at a fresh address. -/
theorem draft_authorized_iff_own_store : ∃ result,
    createCapabilityDraft editPlatform .empty
      (draftNotes.under editPlatform (officeContext .empty)) = .ok result ∧
    DraftAuthorized editPlatform (officeContext .empty) draftNotes result := by
  have hrun : ((draftCapability editPlatform
      (draftNotes.under editPlatform (officeContext .empty))
        (draftNotes.namedStore editPlatform)).bind fun _ =>
      (createCapabilityDraft editPlatform .empty
        (draftNotes.under editPlatform (officeContext .empty))).map fun _ => ()) = .ok () := by
    decide +kernel
  obtain ⟨cap, hcap, hrun⟩ := bind_eq_ok hrun
  obtain ⟨result, hresult, -⟩ := map_eq_ok hrun
  have hspace : draftNotes.space editPlatform (officeContext .empty) =
      some ⟨"ns_ann", "asg", "store_ann", "cap://user/asg/ann/private/personal", true⟩ := by
    decide +kernel
  refine ⟨result, hresult, (draft_authorized_iff hspace hcap hresult).mpr (.inr ⟨?_, ?_, ?_⟩)⟩
  · intro row hrow
    cases hrow
  · decide +kernel
  · exact ⟨⟨"ns_ann", "asg", "store_ann", "cap://user/asg/ann/private/personal", true⟩,
      by decide, by decide +kernel, by decide, by decide +kernel,
      ⟨"store_ann", "asg", .userPrivate, false, some "idn_ann", none⟩, by decide, by decide +kernel,
      by decide, by decide +kernel⟩

end Capmesh
