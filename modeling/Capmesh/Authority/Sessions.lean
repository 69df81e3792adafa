import Capmesh.Directory.Stores
import Capmesh.Python.Values
import Capmesh.Router.SystemCalls

/-!
# Sessions

The bearer sessions of `tokens.py`. `mint_capmesh_token` stores a principal as a dictionary beside
columns of its own, `principal_from_bearer` reads one back and adds the mesh groups that
`entra_groups.py` binds to its groups, and `revoke_capmesh_session` ends the sessions one of its
three statements selects. `session_revocation_iff` says which requests end only sessions of their
caller.
-/

namespace Capmesh

open Python Relational Execution

/-- A row of `capmesh_sessions`; the two JSON columns are kept as they are read. -/
structure SessionRow where
  id : String
  tenantId : String
  tokenHash : String
  identityId : Option String
  subject : String
  principalJson : Dict
  scopesJson : Json
  expiresAt : String
  revokedAt : Option String := none
  metadata : Dict := []
  deriving DecidableEq

/-- The primary key and `token_hash`. -/
instance : Constrained SessionRow where
  Conflict a b := a.id = b.id ∨ a.tokenHash = b.tokenHash
  symm h := h.imp Eq.symm Eq.symm

/-- A row of `entra_group_bindings`. -/
structure EntraBinding where
  id : String
  tenantId : String := "asg"
  entraTenantId : String
  entraGroupId : String
  entraGroupName : Option String := none
  meshGroupName : String
  meshRole : String := "member"
  boundBy : String := "system"
  boundAt : String
  deriving DecidableEq, Repr

/-- The key of a binding. -/
def EntraBinding.key (binding : EntraBinding) : String × String × String :=
  (binding.tenantId, binding.entraTenantId, binding.entraGroupId)

/-- The primary key and `UNIQUE(tenant_id, entra_tenant_id, entra_group_id)`. -/
instance : Constrained EntraBinding where
  Conflict a b := a.id = b.id ∨ a.key = b.key
  symm h := h.imp Eq.symm Eq.symm

/-- The tables of the sessions, and the directory in which a principal gets its identity. -/
structure SessionTables where
  directory : StoreTables
  sessions : Table SessionRow
  bindings : Table EntraBinding

/-- `data.get(a) or data.get(b) or …`. -/
def firstField (data : Dict) : List String → Option Json
  | [] => none
  | [key] => data.get? key
  | key :: keys => if data.truthy key then data.get? key else firstField data keys

section

variable (p : Platform)

/-- `str(data.get(a) or … or default)`. -/
def textField (data : Dict) (keys : List String) (default : String) : String :=
  match firstField data keys with
  | some value => if value.truthy then Json.strText p.repr value else default
  | none => default

/-- `tuple(str(x) for x in value)`. -/
def textTuple : Json → Except Failure (List String)
  | .arr items => .ok (items.map (Json.strText p.repr))
  | .str text => .ok (text.toList.map fun c => String.ofList [c])
  | .obj fields => .ok (fields.map (·.1))
  | _ => .error (.runtime "object is not iterable")

/-- The tuple of a field, else the default. -/
def tupleField (data : Dict) (key : String) (default : List String) :
    Except Failure (List String) :=
  match data.get? key with
  | some value => textTuple p value
  | none => .ok default

/-- `Principal.from_dict`, of which the display name is a part; `localSubject` is
`DEFAULT_LOCAL_SUBJECT`. The three fields that are taken as they are hold texts. -/
def principalFromDict (localSubject : String) (raw : Dict) : Except Failure SignIn := do
  if raw.isEmpty then
    .ok { principal := { subject := localSubject, tenantId := "asg" } }
  else
    let standard : Principal := { subject := localSubject, tenantId := "asg" }
    let subject := textField p raw ["subject", "sub"] localSubject
    let app := firstField raw ["app_id", "appId", "azp"]
    let hasApp := app.any Json.truthy
    let isDefaultLocal := subject = localSubject && !hasApp
    let roles ← tupleField p raw "roles"
      (if isDefaultLocal then standard.roles else if hasApp then ["app_service"] else ["member"])
    let scopes ← tupleField p raw "scopes" standard.scopes
    let groups ← tupleField p raw "groups" (if isDefaultLocal then standard.groups else [])
    let asText := fun value : Option Json => value.map (Json.strText p.repr)
    .ok
      { principal :=
          { subject
            tenantId := textField p raw ["tenant_id", "tenantId", "tenant"] "asg"
            identityId := asText (firstField raw ["identity_id", "identityId"])
            email := asText (raw.get? "email")
            appId := asText app
            groups, roles, scopes
            authenticated := if raw.has "authenticated" then raw.truthy "authenticated" else true
            disabled := raw.truthy "disabled" }
        displayName := asText (firstField raw ["display_name", "displayName", "name"]) }

/-- `hash_secret`. -/
def hashSecret (value : String) : String := p.sha256Text value

/-- A call of `mint_capmesh_token`, with what `secrets`, `new_id` and `expires_in` give it. -/
structure MintCall where
  signIn : SignIn
  secret : String
  sessionId : String
  expiresAt : String
  now : String
  metadata : Dict := []

namespace MintCall

variable (call : MintCall)

/-- The token. -/
def token : String := "cm_" ++ call.secret

/-- The dictionary that is stored: `principal.to_dict()` with the identity, authenticated. -/
def principalDict : Dict :=
  match call.signIn.toDict with
  | .obj fields =>
      (Dict.set fields "identityId" (.str (call.signIn.identityId p))).set "authenticated"
        (.bool true)
  | _ => []

/-- The row that is inserted. -/
def row : SessionRow where
  id := call.sessionId
  tenantId := p.tenantOr call.signIn.principal.tenantId
  tokenHash := hashSecret p call.token
  identityId := some (call.signIn.identityId p)
  subject := call.signIn.principal.subject
  principalJson := Json.canonicalFields (call.principalDict p)
  scopesJson := .arr (call.signIn.principal.scopes.map .str)
  expiresAt := call.expiresAt
  metadata := call.metadata

end MintCall

/-- What `mint_capmesh_token` returns. -/
structure MintedToken where
  sessionId : String
  tenantId : String
  bearerToken : String
  tokenType : String := "Bearer"
  expiresAt : String
  principal : Dict

/-- `mint_capmesh_token`. -/
def mintCapmeshToken (orgName : String) (state : SessionTables) (call : MintCall) :
    Except Failure (MintedToken × SessionTables) := do
  let directory ← state.directory.ensureIdentityForPrincipal p orgName call.now call.signIn
  let sessions ← constrained "capmesh_sessions" (state.sessions.insert? (call.row p))
  let tenant := p.tenantOr call.signIn.principal.tenantId
  let minted : MintedToken :=
    { sessionId := call.sessionId, tenantId := tenant, bearerToken := call.token
      expiresAt := call.expiresAt, principal := call.principalDict p }
  foreignKey (directory.tenants.any (·.id = tenant)) (minted, { state with directory, sessions })

/-- `bind_entra_group`. -/
def bindEntraGroup (bindings : Table EntraBinding) (binding : EntraBinding) :
    Except Failure (Table EntraBinding) :=
  constrained "entra_group_bindings" (bindings.upsert? EntraBinding.key binding fun old =>
    { old with
      entraGroupName := binding.entraGroupName
      meshGroupName := binding.meshGroupName
      meshRole := binding.meshRole })

/-- `remove_entra_binding`. -/
def removeEntraBinding (bindings : Table EntraBinding)
    (entraTenantId entraGroupId tenant : String) : Table EntraBinding :=
  bindings.filter fun binding => !(binding.entraTenantId = entraTenantId &&
    binding.entraGroupId = entraGroupId && binding.tenantId = tenant)

/-- `resolve_entra_groups_to_mesh_groups`. -/
def resolveEntraGroups (bindings : Table EntraBinding) (groups : List String) (tenant : String) :
    List String :=
  (bindings.rows.filter fun binding =>
    binding.tenantId = tenant && groups.contains binding.entraGroupId).map (·.meshGroupName)

/-- The groups of a principal and those bound to them; the order of a set is not kept. -/
def extendGroups (bindings : Table EntraBinding) (groups : List String) (tenant : String) :
    List String :=
  let mesh := resolveEntraGroups bindings groups tenant
  if mesh.isEmpty then groups else (groups ++ mesh).eraseDups

/-- The dictionary of a session, with the columns that override it. -/
def SessionRow.dict (row : SessionRow) : Dict :=
  let raw := row.principalJson
  let identity :=
    if present row.identityId then row.identityId.map Json.str else raw.get? "identityId"
  (((raw.set "identityId" (identity.getD .null)).set "tenantId" (.str row.tenantId)).set "scopes"
    row.scopesJson).set "authenticated" (.bool true)

/-- Whether a session is the one of a token, and in force. -/
def SessionRow.answers (row : SessionRow) (token now : String) : Bool :=
  row.tokenHash = hashSecret p token && row.revokedAt.isNone && now < row.expiresAt

/-- `principal_from_bearer`. -/
def principalFromBearer (localSubject : String) (state : SessionTables) (token : Option String)
    (now : String) : Except Failure (Option SignIn) :=
  match token.filter (· ≠ "") with
  | none => .ok none
  | some token =>
      match state.sessions.find? (·.answers p token now) with
      | none => .ok none
      | some row => do
          let signIn ← principalFromDict p localSubject row.dict
          let principal := signIn.principal
          .ok (some { signIn with
            principal := { principal with
              groups := extendGroups state.bindings principal.groups
                (p.tenantOr principal.tenantId) } })

/-- The arguments of `revoke_capmesh_session`, and the clock. -/
structure LogoutCall where
  principal : Principal
  sessionId : Option String := none
  token : Option String := none
  timestamp : String
  deriving DecidableEq, Repr

namespace LogoutCall

variable (call : LogoutCall)

/-- Whether a call is about a session, in force or not. -/
def covers (row : SessionRow) : Bool :=
  row.tenantId = p.tenantOr call.principal.tenantId &&
    if present call.sessionId then some row.id = call.sessionId
    else if present call.token then some row.tokenHash = call.token.map (hashSecret p)
    else row.subject = call.principal.subject

/-- Whether the statement of a call selects a session: the one by subject asks that it is in
force. -/
def selects (row : SessionRow) : Bool :=
  call.covers p row && (present call.sessionId || present call.token || row.revokedAt.isNone)

/-- A session as a call leaves it. -/
def left (row : SessionRow) : SessionRow :=
  if call.selects p row then { row with revokedAt := some call.timestamp } else row

theorem left_conflict (a b : SessionRow)
    (h : Constrained.Conflict (call.left p a) (call.left p b)) : Constrained.Conflict a b := by
  unfold left at h
  split at h <;> split at h <;> exact h

end LogoutCall

/-- `revoke_capmesh_session`: the target it returns, and the sessions. -/
def revokeCapmeshSession (sessions : Table SessionRow) (call : LogoutCall) :
    String × Table SessionRow :=
  (if present call.sessionId then call.sessionId.getD ""
    else if present call.token then "token" else call.principal.subject,
    sessions.map (call.left p) (call.left_conflict p))

/-- The value of `sessionId` as a statement takes it: a number is compared by its text, and a list
or a dictionary cannot be bound. -/
def sessionArgument (value : Option Json) : Except Failure (Option String) :=
  match value.filter Json.truthy with
  | none => .ok none
  | some (.arr _) | some (.obj _) => .error (.runtime "Error binding parameter")
  | some (.bool _) => .ok (some "1")
  | some value => .ok (some value.toStr)

/-- A request that may end sessions: a call of `revoke_capmesh_session`, or of
`dispatch_system_capability`. -/
inductive LogoutRequest where
  | direct (call : LogoutCall)
  | dispatched (principal : Principal) (name : String) (args : Dict) (timestamp : String)

namespace LogoutRequest

/-- Who makes a request. -/
def principal : LogoutRequest → Principal
  | .direct call => call.principal
  | .dispatched principal _ _ _ => principal

/-- The call of `revoke_capmesh_session` that a request reaches, if any. -/
def reaches : LogoutRequest → Except Failure (Option LogoutCall)
  | .direct call => .ok (some call)
  | .dispatched principal name args timestamp => do
      match ← dispatchArgs p name args with
      | .revokeCapmeshSession =>
          let sessionId ← sessionArgument (args.get? "sessionId")
          .ok (some { principal, sessionId, timestamp })
      | _ => .ok none

end LogoutRequest

/-- The sessions as a request leaves them. -/
def logout (sessions : Table SessionRow) (request : LogoutRequest) : Table SessionRow :=
  match request.reaches p with
  | .ok (some call) => (revokeCapmeshSession p sessions call).2
  | _ => sessions

/-- The principal may manage its tenant. -/
def ManagesTenant (ctx : AccessContext) (principal : Principal) : Prop :=
  (evaluateAccess p ctx
    { principal, right := "manage"
      resourceUri := some ("tenant:" ++ p.tenantOr principal.tenantId) }).allowed = true

/-- A request changes `revoked_at` of sessions of its caller alone, unless the caller may manage the
tenant. -/
def Authorised (ctx : AccessContext) (sessions : Table SessionRow) (request : LogoutRequest) :
    Prop :=
  ManagesTenant p ctx request.principal ∨ ∀ before ∈ sessions, ∀ after ∈ logout p sessions request,
    after.id = before.id → after.revokedAt ≠ before.revokedAt →
      before.subject = request.principal.subject

/-- The session of the tenant that a call names by its id, else by its token. -/
def LogoutCall.named (sessions : Table SessionRow) (call : LogoutCall) : Option SessionRow :=
  if present call.sessionId || present call.token then sessions.find? (call.covers p) else none

/-- The session a request names, if it names one, belongs to the caller, or was ended in this very
second. -/
def NamesOwn (sessions : Table SessionRow) (request : LogoutRequest) : Prop :=
  ∀ call row, request.reaches p = .ok (some call) → call.named p sessions = some row →
    row.subject = request.principal.subject ∨ row.revokedAt = some call.timestamp

end

section

variable {p : Platform} {sessions : Table SessionRow} {call : LogoutCall} {row : SessionRow}

@[simp] theorem LogoutCall.left_id : (call.left p row).id = row.id := by
  unfold LogoutCall.left
  split <;> rfl

theorem LogoutCall.left_revoked_at :
    (call.left p row).revokedAt = if call.selects p row then some call.timestamp
      else row.revokedAt := by
  unfold LogoutCall.left
  split <;> rfl

theorem LogoutCall.named_iff (h : present call.sessionId = true ∨ present call.token = true) :
    call.named p sessions = some row ↔ row ∈ sessions ∧ call.selects p row = true := by
  have hgiven : (present call.sessionId || present call.token) = true := by simpa using h
  have hselects : ∀ x, call.selects p x = call.covers p x := by
    intro x
    simp [LogoutCall.selects, hgiven]
  have hkey : ∀ x y, call.covers p x = true → call.covers p y = true →
      Constrained.Conflict x y := by
    intro x y hx hy
    simp only [LogoutCall.covers, Bool.and_eq_true] at hx hy
    by_cases hid : present call.sessionId = true
    · simp only [hid, if_true, decide_eq_true_eq] at hx hy
      exact .inl (Option.some.inj (hx.2.trans hy.2.symm))
    · have htoken := h.resolve_left hid
      simp only [hid, htoken, if_true, if_false, Bool.false_eq_true, decide_eq_true_eq] at hx hy
      exact .inr (Option.some.inj (hx.2.trans hy.2.symm))
  unfold LogoutCall.named
  rw [if_pos hgiven, hselects]
  constructor
  · exact Table.find?_some
  · intro ⟨hrow, hcovers⟩
    exact Table.find?_eq_some hrow hcovers fun y _ hy => hkey y row hy hcovers

theorem mem_logout_sessions {after : SessionRow} (hafter : after ∈ (revokeCapmeshSession p sessions
    call).2) (hrow : row ∈ sessions) (hid : after.id = row.id) : after = call.left p row := by
  obtain ⟨before, hbefore, rfl⟩ := List.mem_map.mp hafter
  rw [LogoutCall.left_id] at hid
  rw [Table.eq_of_conflict hbefore hrow (.inl hid)]

/-- A call that names no session ends those of its caller. -/
theorem LogoutCall.selects_own (h : ¬ (present call.sessionId = true ∨ present call.token = true))
    (hselects : call.selects p row = true) : row.subject = call.principal.subject := by
  rw [not_or] at h
  simp only [LogoutCall.selects, LogoutCall.covers, h.1, h.2, if_false, Bool.false_eq_true,
    Bool.and_eq_true, decide_eq_true_eq] at hselects
  exact hselects.1.2

theorem LogoutRequest.reaches_principal {request : LogoutRequest}
    (h : request.reaches p = .ok (some call)) : call.principal = request.principal := by
  cases request with
  | direct direct =>
      cases h
      rfl
  | dispatched principal name args timestamp =>
      obtain ⟨operation, -, h⟩ := bind_eq_ok h
      cases operation with
      | revokeCapmeshSession =>
          obtain ⟨sessionId, -, h⟩ := bind_eq_ok h
          cases h
          rfl
      | _ => cases h

theorem logout_cases {request : LogoutRequest} {after : SessionRow}
    (hafter : after ∈ logout p sessions request) (hrow : row ∈ sessions)
    (hid : after.id = row.id) :
    after = row ∨ ∃ call, request.reaches p = .ok (some call) ∧ after = call.left p row := by
  unfold logout at hafter
  split at hafter
  · rename_i call hreaches
    exact .inr ⟨call, hreaches, mem_logout_sessions hafter hrow hid⟩
  · exact .inl (Table.eq_of_conflict hafter hrow (.inl hid))

end

/-- A request ends only sessions of its caller exactly when the caller may manage the tenant, or
the session it names by an id or a token, if any, is the caller's own or was ended in this very
second. -/
theorem session_revocation_iff (p : Platform) (ctx : AccessContext) (sessions : Table SessionRow)
    (request : LogoutRequest) :
    Authorised p ctx sessions request ↔
      ManagesTenant p ctx request.principal ∨ NamesOwn p sessions request := by
  refine or_congr_right ⟨fun h call row hreaches hnamed => ?_, fun h => ?_⟩
  · have hgiven : present call.sessionId = true ∨ present call.token = true := by
      by_contra hnone
      have hfalse : (present call.sessionId || present call.token) = false := by simpa using hnone
      simp [LogoutCall.named, hfalse] at hnamed
    obtain ⟨hrow, hselects⟩ := (LogoutCall.named_iff hgiven).mp hnamed
    have hafter : call.left p row ∈ logout p sessions request := by
      unfold logout
      rw [hreaches]
      exact List.mem_map_of_mem hrow
    by_cases hsame : row.revokedAt = some call.timestamp
    · exact .inr hsame
    · refine .inl (h row hrow _ hafter LogoutCall.left_id ?_)
      rw [LogoutCall.left_revoked_at, if_pos hselects]
      exact fun heq => hsame heq.symm
  · intro before hbefore after hafter hid hchanged
    obtain rfl | ⟨call, hreaches, rfl⟩ := logout_cases hafter hbefore hid
    · exact absurd rfl hchanged
    · have hselects : call.selects p before = true := by
        by_contra hnot
        exact hchanged (by rw [LogoutCall.left_revoked_at, if_neg hnot])
      by_cases hgiven : present call.sessionId = true ∨ present call.token = true
      · obtain hown | hsame := h call before hreaches
          ((LogoutCall.named_iff hgiven).mpr ⟨hbefore, hselects⟩)
        · exact hown
        · rw [LogoutCall.left_revoked_at, if_pos hselects] at hchanged
          exact absurd hsame.symm hchanged
      · rw [LogoutCall.selects_own hgiven hselects, LogoutRequest.reaches_principal hreaches]

/-- A session of alice. -/
def aliceSession : SessionRow where
  id := "cms_1"
  tenantId := "asg"
  tokenHash := "hash"
  identityId := some "idn_alice"
  subject := "alice"
  principalJson := []
  scopesJson := .arr []
  expiresAt := "2026-02-01T00:00:00Z"

/-- Dave, who manages nothing, calls the system capability with the id of alice's session. -/
def daveLogsAliceOut : LogoutRequest :=
  .dispatched { subject := "dave", tenantId := "asg" } "system.auth"
    [("action", .str "logout"), ("sessionId", .str "cms_1")] "2026-01-01 00:00:00"

/-- Alice's session is ended. -/
theorem session_revocation_counterexample :
    ¬ ∀ (p : Platform) (ctx : AccessContext) (sessions : Table SessionRow)
      (request : LogoutRequest), Authorised p ctx sessions request := by
  intro hclaim
  cases hclaim .sample ⟨Database.empty, { stores := [], namespaces := [], organizations := [] },
    fun _ _ => none, "2026-01-01T00:00:00Z"⟩ ⟨[aliceSession], List.pairwise_singleton _ _⟩
    daveLogsAliceOut with
  | inl hmanages =>
      revert hmanages
      unfold ManagesTenant
      decide +kernel
  | inr hown =>
      have hafter : { aliceSession with revokedAt := some "2026-01-01 00:00:00" } ∈
          (logout .sample ⟨[aliceSession], List.pairwise_singleton _ _⟩ daveLogsAliceOut).rows := by
        decide +kernel
      have hsubject := hown aliceSession List.mem_cons_self _ hafter rfl (by decide)
      revert hsubject
      decide

end Capmesh
