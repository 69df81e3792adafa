import Capmesh.Access.OrgCache
import Capmesh.Authority.Sessions

/-!
# Reading a session back

What `principal_from_bearer` makes of the token that `mint_capmesh_token` returned, after any other
calls. The session is kept with all that was stored of it, and only a revocation or its expiry ends
it; `bearer_round_trip_iff` says which principals then come back as they were minted.
-/

namespace Capmesh

open Python Relational Execution

section

variable (p : Platform)

/-- A call that writes the sessions or the bindings. -/
inductive SessionCall where
  | mint (call : MintCall)
  | revoke (call : LogoutCall)
  | bind (binding : EntraBinding)
  | unbind (entraTenantId entraGroupId tenant : String)

/-- One call; one that fails changes nothing. -/
def sessionStep (orgName : String) (state : SessionTables) : SessionCall → SessionTables
  | .mint call =>
      match mintCapmeshToken p orgName state call with
      | .ok (_, after) => after
      | .error _ => state
  | .revoke call => { state with sessions := (revokeCapmeshSession p state.sessions call).2 }
  | .bind binding =>
      match bindEntraGroup state.bindings binding with
      | .ok bindings => { state with bindings }
      | .error _ => state
  | .unbind entraTenantId entraGroupId tenant =>
      { state with
        bindings := removeEntraBinding state.bindings entraTenantId entraGroupId tenant }

/-- A call revokes a session, or revoked it again. -/
def SessionCall.revokes (call : SessionCall) (row : SessionRow) : Bool :=
  match call with
  | .revoke call => call.covers p row
  | _ => false

/-- What a session gives back: the principal it was minted for in every field a decision reads, with
its identity, and with the mesh groups bound to its groups. -/
structure ComesBack (signIn : SignIn) (bindings : Table EntraBinding) (loaded : Principal) :
    Prop where
  subject : loaded.subject = signIn.principal.subject
  tenantId : loaded.tenantId = signIn.principal.tenantId
  email : loaded.email = signIn.principal.email
  appId : loaded.appId = signIn.principal.appId
  roles : loaded.roles = signIn.principal.roles
  scopes : loaded.scopes = signIn.principal.scopes
  disabled : loaded.disabled = signIn.principal.disabled
  stepUp : loaded.stepUpAuthenticated = signIn.principal.stepUpAuthenticated
  identityId : loaded.identityId = some (signIn.identityId p)
  groups : ∀ group, group ∈ loaded.groups ↔ group ∈ signIn.principal.groups ∨
    ∃ binding ∈ bindings, binding.tenantId = signIn.principal.tenantId ∧
      binding.entraGroupId ∈ signIn.principal.groups ∧ binding.meshGroupName = group

end

section

variable {p : Platform} {orgName localSubject token now : String} {row : SessionRow}
variable {state : SessionTables} {data : Dict}

theorem session_step_keeps (p : Platform) (orgName : String) (call : SessionCall)
    (hrow : row ∈ state.sessions) : ∃ revokedAt,
      { row with revokedAt } ∈ (sessionStep p orgName state call).sessions ∧
        (revokedAt.isSome = true ↔ row.revokedAt.isSome = true ∨ call.revokes p row = true) := by
  have hsame : ∀ state', state'.sessions = state.sessions → call.revokes p row = false →
      ∃ revokedAt, { row with revokedAt } ∈ (state' : SessionTables).sessions ∧
        (revokedAt.isSome = true ↔ row.revokedAt.isSome = true ∨ call.revokes p row = true) := by
    intro state' hsessions hrevokes
    refine ⟨row.revokedAt, ?_, by simp [hrevokes]⟩
    rw [hsessions]
    exact hrow
  cases call with
  | mint call =>
      dsimp only [sessionStep]
      cases hmint : mintCapmeshToken p orgName state call with
      | error failure => exact hsame _ rfl rfl
      | ok result =>
          obtain ⟨directory, -, hmint⟩ := bind_eq_ok hmint
          obtain ⟨sessions, hsessions, hmint⟩ := bind_eq_ok hmint
          obtain ⟨-, rfl⟩ := StoreTables.foreign_key_ok hmint
          exact ⟨row.revokedAt,
            (Table.mem_insert? (constrained_ok hsessions) row).mpr (.inl hrow),
            by simp [SessionCall.revokes]⟩
  | revoke call =>
      refine ⟨(call.left p row).revokedAt, ?_, ?_⟩
      · have hleft : { row with revokedAt := (call.left p row).revokedAt } = call.left p row := by
          unfold LogoutCall.left
          split <;> rfl
        rw [hleft]
        exact List.mem_map_of_mem hrow
      · rw [LogoutCall.left_revoked_at]
        unfold SessionCall.revokes LogoutCall.selects
        cases hcovers : call.covers p row with
        | false => simp [hcovers]
        | true =>
            cases hrevoked : row.revokedAt with
            | none => simp [hcovers]
            | some timestamp =>
                simp only [hcovers, Bool.true_and]
                split <;> simp
  | bind binding =>
      dsimp only [sessionStep]
      cases bindEntraGroup state.bindings binding with
      | error failure => exact hsame _ rfl rfl
      | ok bindings => exact hsame _ rfl rfl
  | unbind entraTenantId entraGroupId tenant => exact hsame _ rfl rfl

/-- A session is kept by any calls, and revoked exactly when it was, or one of them is a revocation
of it. -/
theorem session_run_keeps (p : Platform) (orgName : String) (calls : List SessionCall)
    (hrow : row ∈ state.sessions) : ∃ revokedAt,
      { row with revokedAt } ∈ (run (sessionStep p orgName) state calls).sessions ∧
        (revokedAt.isSome = true ↔ row.revokedAt.isSome = true ∨
          ∃ call ∈ calls, call.revokes p row = true) := by
  induction calls generalizing state row with
  | nil => exact ⟨row.revokedAt, hrow, by simp⟩
  | cons call calls ih =>
      obtain ⟨next, hnext, hrevoked⟩ := session_step_keeps p orgName call hrow
      obtain ⟨last, hlast, hlater⟩ := ih hnext
      refine ⟨last, hlast, ?_⟩
      rw [hlater]
      show next.isSome = true ∨ (∃ other ∈ calls, other.revokes p row = true) ↔ _
      rw [hrevoked]
      simp [or_assoc]

theorem find_session (hrow : row ∈ state.sessions) (htoken : row.tokenHash = hashSecret p token) :
    state.sessions.find? (·.answers p token now) =
      if row.revokedAt.isSome = true ∨ row.expiresAt ≤ now then none else some row := by
  have hsame : ∀ other ∈ state.sessions, other.answers p token now = true → other = row := by
    intro other hother hanswers
    simp only [SessionRow.answers, Bool.and_eq_true, decide_eq_true_eq] at hanswers
    exact Table.eq_of_conflict hother hrow (.inr (hanswers.1.1.trans htoken.symm))
  have hanswers : row.answers p token now = true ↔
      ¬ (row.revokedAt.isSome = true ∨ row.expiresAt ≤ now) := by
    cases hrevoked : row.revokedAt <;> simp [SessionRow.answers, htoken, hrevoked]
  split
  · rename_i hended
    cases hfind : state.sessions.find? (·.answers p token now) with
    | none => rfl
    | some other =>
        obtain ⟨hother, hinForce⟩ := Table.find?_some hfind
        rw [hsame other hother hinForce] at hinForce
        exact absurd hended (hanswers.mp hinForce)
  · rename_i hlasts
    exact Table.find?_eq_some hrow (hanswers.mpr hlasts) fun other hother hinForce =>
      .inl (congrArg SessionRow.id (hsame other hother hinForce))

variable {call : MintCall} {key : String}

/-- A text that may be `None`, as JSON. -/
def jsonText (value : Option String) : Json := (value.map Json.str).getD .null

/-- The dictionary that is stored for a session. -/
theorem principal_dict_eq : call.principalDict p =
    [("subject", .str call.signIn.principal.subject),
      ("tenantId", .str call.signIn.principal.tenantId),
      ("identityId", .str (call.signIn.identityId p)),
      ("email", jsonText call.signIn.principal.email),
      ("displayName", jsonText call.signIn.displayName),
      ("appId", jsonText call.signIn.principal.appId),
      ("groups", .arr (call.signIn.principal.groups.map .str)),
      ("roles", .arr (call.signIn.principal.roles.map .str)),
      ("scopes", .arr (call.signIn.principal.scopes.map .str)),
      ("authenticated", .bool true), ("disabled", .bool call.signIn.principal.disabled)] := by
  simp [MintCall.principalDict, SignIn.toDict, Dict.set, Dict.has, jsonText]

theorem minted_json (p : Platform) (call : MintCall) :
    (call.row p).principalJson = Json.canonicalFields (call.principalDict p) := by
  dsimp only [MintCall.row]

/-- A field of the dictionary of a minted session that no column overrides. -/
theorem minted_get (hkey : key ∉ ["identityId", "tenantId", "scopes", "authenticated"]) :
    (call.row p).dict.get? key = ((call.principalDict p).get? key).map Json.canonical := by
  simp only [List.mem_cons, List.not_mem_nil, or_false, not_or] at hkey
  obtain ⟨hidentity, htenant, hscopes, hauthenticated⟩ := hkey
  unfold SessionRow.dict
  rw [Dict.get?_set_of_ne _ _ (Ne.symm hauthenticated), Dict.get?_set_of_ne _ _ (Ne.symm hscopes),
    Dict.get?_set_of_ne _ _ (Ne.symm htenant), Dict.get?_set_of_ne _ _ (Ne.symm hidentity),
    minted_json, Dict.get?_canonical_fields]

theorem minted_columns (p : Platform) (call : MintCall) :
    (call.row p).dict.get? "identityId" = some (.str (call.signIn.identityId p)) ∧
      (call.row p).dict.get? "tenantId" =
        some (.str (p.tenantOr call.signIn.principal.tenantId)) ∧
      (call.row p).dict.get? "scopes" = some (.arr (call.signIn.principal.scopes.map .str)) ∧
      (call.row p).dict.get? "authenticated" = some (.bool true) := by
  unfold SessionRow.dict
  refine ⟨?_, ?_, ?_, ?_⟩
  · have hdict : Dict.get? (call.principalDict p) "identityId" =
        some (.str (call.signIn.identityId p)) := by
      simp [principal_dict_eq, Dict.get?]
    have hstored : Dict.get? (call.row p).principalJson "identityId" =
        some (.str (call.signIn.identityId p)) := by
      rw [minted_json, Dict.get?_canonical_fields, hdict]
      rfl
    rw [Dict.get?_set_of_ne _ _ (by decide), Dict.get?_set_of_ne _ _ (by decide),
      Dict.get?_set_of_ne _ _ (by decide), hstored]
    have hidentity : ((if present (call.row p).identityId = true then
        (call.row p).identityId.map Json.str else some (.str (call.signIn.identityId p))).getD
          .null) = .str (call.signIn.identityId p) := by
      split <;> rfl
    rw [hidentity, Dict.get?_set _ _ (by simp)]
  · rw [Dict.get?_set_of_ne _ _ (by decide), Dict.get?_set_of_ne _ _ (by decide),
      Dict.get?_set _ _ (by simp)]
    rfl
  · rw [Dict.get?_set_of_ne _ _ (by decide), Dict.get?_set _ _ (by simp [MintCall.row])]
    rfl
  · rw [Dict.get?_set _ _ (by simp)]

theorem text_tuple_texts (texts : List String) :
    textTuple p (.arr (texts.map .str)) = .ok texts := by
  have hsame : (texts.map Json.str).map (Json.strText p.repr) = texts := by
    rw [List.map_map]
    exact List.map_id'' (fun _ => rfl) texts
  exact congrArg Except.ok hsame

theorem has_of_get {value : Json} (h : data.get? key = some value) : data.has key = true := by
  unfold Dict.get? at h
  cases hfind : data.find? (fun field => field.1 = key) with
  | none => simp [hfind] at h
  | some field =>
      have hkey := List.find?_some hfind
      exact List.any_eq_true.mpr ⟨field, List.mem_of_find?_eq_some hfind, hkey⟩

theorem option_texts (value : Option String) :
    Option.map (Json.strText p.repr) (value.map Json.str) = value := by
  cases value <;> rfl

/-- An empty text is lost where a field is read by `or`. -/
theorem first_field_text {first last : String} {value : Option String}
    (hfirst : data.get? first = none) (hkey : data.get? key = value.map .str)
    (hlast : data.get? last = none) :
    (firstField data [first, key, last]).map (Json.strText p.repr) = value.filter (· ≠ "") := by
  unfold firstField firstField firstField Dict.truthy
  rw [hfirst, hkey, hlast]
  cases value with
  | none => rfl
  | some text =>
      by_cases hempty : text = ""
      · simp [hempty, Json.truthy, Option.filter]
      · simp [hempty, Json.truthy, Json.strText, Option.filter]

theorem first_field_skip {first : String} {keys : List String} (h : data.get? first = none) :
    firstField data (first :: key :: keys) = firstField data (key :: keys) := by
  show (if data.truthy first = true then data.get? first else firstField data (key :: keys)) = _
  simp [Dict.truthy, h]

/-- A text that is not empty is found under its own key. -/
theorem text_field_eq {text default : String} {keys : List String}
    (hkey : data.get? key = some (.str text)) (htext : text ≠ "") :
    textField p data (key :: keys) default = text := by
  have htruthy : (Json.str text).truthy = true := by simpa [Json.truthy] using htext
  have hfirst : firstField data (key :: keys) = some (.str text) := by
    cases keys with
    | nil => exact hkey
    | cons other keys =>
        unfold firstField Dict.truthy
        simp only [hkey, htruthy, if_true]
  unfold textField
  simp only [hfirst, htruthy, if_true]
  rfl

/-- What `Principal.from_dict` makes of a minted session. -/
theorem principal_of_minted (hsubject : call.signIn.principal.subject ≠ "") :
    principalFromDict p localSubject (call.row p).dict = .ok
      { principal :=
          { call.signIn.principal with
            tenantId := p.tenantOr call.signIn.principal.tenantId
            identityId := some (call.signIn.identityId p)
            appId := call.signIn.principal.appId.filter (· ≠ "")
            authenticated := true
            stepUpAuthenticated := false }
        displayName := call.signIn.displayName.filter (· ≠ "") } := by
  obtain ⟨hidentity, htenant, hscopes, hauthenticated⟩ := minted_columns p call
  have hnone : ∀ key ∈ ["identity_id", "tenant_id", "app_id", "azp", "display_name", "name"],
      (call.row p).dict.get? key = none := by
    intro key hkey
    have hother : key ∉ ["identityId", "tenantId", "scopes", "authenticated"] := by
      revert key
      decide
    rw [minted_get hother, principal_dict_eq]
    simp only [List.mem_cons, List.not_mem_nil, or_false] at hkey
    obtain rfl | rfl | rfl | rfl | rfl | rfl := hkey <;> simp [Dict.get?]
  have hname : (call.row p).dict.get? "subject" = some (.str call.signIn.principal.subject) := by
    rw [minted_get (by decide), principal_dict_eq]
    simp [Dict.get?, Json.canonical]
  have hgroups : (call.row p).dict.get? "groups" =
      some (.arr (call.signIn.principal.groups.map .str)) := by
    rw [minted_get (by decide), principal_dict_eq]
    simp [Dict.get?, Json.canonical_texts]
  have hroles : (call.row p).dict.get? "roles" =
      some (.arr (call.signIn.principal.roles.map .str)) := by
    rw [minted_get (by decide), principal_dict_eq]
    simp [Dict.get?, Json.canonical_texts]
  have hdisabled : (call.row p).dict.get? "disabled" =
      some (.bool call.signIn.principal.disabled) := by
    rw [minted_get (by decide), principal_dict_eq]
    simp [Dict.get?, Json.canonical]
  have hemail : (call.row p).dict.get? "email" = call.signIn.principal.email.map .str := by
    rw [minted_get (by decide), principal_dict_eq]
    cases call.signIn.principal.email <;> simp [Dict.get?, jsonText, Json.canonical]
  have happ : (call.row p).dict.get? "appId" = call.signIn.principal.appId.map .str := by
    rw [minted_get (by decide), principal_dict_eq]
    cases call.signIn.principal.appId <;> simp [Dict.get?, jsonText, Json.canonical]
  have hdisplay : (call.row p).dict.get? "displayName" = call.signIn.displayName.map .str := by
    rw [minted_get (by decide), principal_dict_eq]
    cases call.signIn.displayName <;> simp [Dict.get?, jsonText, Json.canonical]
  have hthere := has_of_get hauthenticated
  have hnonempty : (call.row p).dict.isEmpty = false := by
    cases hdict : (call.row p).dict with
    | nil => simp [hdict, Dict.has] at hthere
    | cons => rfl
  have htenantNe := p.tenant_or_ne call.signIn.principal.tenantId
  have htenantField : textField p (call.row p).dict ["tenant_id", "tenantId", "tenant"] "asg" =
      p.tenantOr call.signIn.principal.tenantId := by
    have hskip : textField p (call.row p).dict ["tenant_id", "tenantId", "tenant"] "asg" =
        textField p (call.row p).dict ["tenantId", "tenant"] "asg" := by
      rw [textField, first_field_skip (hnone "tenant_id" (by decide)), ← textField]
    rw [hskip]
    exact text_field_eq htenant htenantNe
  have hidentityField : firstField (call.row p).dict ["identity_id", "identityId"] =
      some (.str (call.signIn.identityId p)) := by
    rw [first_field_skip (hnone "identity_id" (by decide))]
    exact hidentity
  unfold principalFromDict
  simp only [hnonempty, Bool.false_eq_true, if_false, tupleField, hscopes, hgroups, hroles, hemail,
    hthere, if_true, text_tuple_texts, option_texts, htenantField, hidentityField,
    text_field_eq hname hsubject,
    first_field_text (hnone "app_id" (by decide)) happ (hnone "azp" (by decide)),
    first_field_text (hnone "display_name" (by decide)) hdisplay (hnone "name" (by decide))]
  simp only [Dict.truthy, hauthenticated, hdisabled]
  rfl

end

section

variable {p : Platform} {bindings : Table EntraBinding}

/-- The groups of a principal with those bound to them. -/
theorem mem_extend_groups {groups : List String} {tenant group : String} :
    group ∈ extendGroups bindings groups tenant ↔ group ∈ groups ∨
      ∃ binding ∈ bindings, binding.tenantId = tenant ∧ binding.entraGroupId ∈ groups ∧
        binding.meshGroupName = group := by
  have hmesh : group ∈ resolveEntraGroups bindings groups tenant ↔
      ∃ binding ∈ bindings, binding.tenantId = tenant ∧ binding.entraGroupId ∈ groups ∧
        binding.meshGroupName = group := by
    simp only [resolveEntraGroups, List.mem_map, List.mem_filter, Bool.and_eq_true,
      decide_eq_true_eq, List.contains_eq_mem, Table.mem_rows, and_assoc]
  rw [← hmesh]
  unfold extendGroups
  dsimp only
  split
  · rename_i hnone
    have hempty : resolveEntraGroups bindings groups tenant = [] := List.isEmpty_iff.mp hnone
    simp [hempty]
  · simp

end

/-- What `mint_capmesh_token` leaves and returns. -/
theorem mint_ok {p : Platform} {orgName : String} {before after : SessionTables} {call : MintCall}
    {minted : MintedToken} (h : mintCapmeshToken p orgName before call = .ok (minted, after)) :
    call.row p ∈ after.sessions ∧ minted.bearerToken = call.token ∧
      minted.expiresAt = call.expiresAt := by
  obtain ⟨directory, -, h⟩ := bind_eq_ok h
  obtain ⟨sessions, hsessions, h⟩ := bind_eq_ok h
  obtain ⟨-, hresult⟩ := StoreTables.foreign_key_ok h
  cases hresult
  exact ⟨(Table.mem_insert? (constrained_ok hsessions) _).mpr (.inr rfl), rfl, rfl⟩

theorem dict_of_revoked (row : SessionRow) (revokedAt : Option String) :
    ({ row with revokedAt } : SessionRow).dict = row.dict := rfl

theorem bearer_none {p : Platform} {localSubject token now : String} {state : SessionTables}
    (htoken : token ≠ "") (h : state.sessions.find? (·.answers p token now) = none) :
    principalFromBearer p localSubject state (some token) now = .ok none := by
  unfold principalFromBearer
  simp only [Option.filter, htoken, ne_eq, not_false_eq_true, decide_true, if_true, h]

theorem bearer_some {p : Platform} {localSubject token now : String} {state : SessionTables}
    {row : SessionRow} {signIn : SignIn} (htoken : token ≠ "")
    (h : state.sessions.find? (·.answers p token now) = some row)
    (hdict : principalFromDict p localSubject row.dict = .ok signIn) :
    principalFromBearer p localSubject state (some token) now = .ok (some { signIn with
      principal := { signIn.principal with
        groups := extendGroups state.bindings signIn.principal.groups
          (p.tenantOr signIn.principal.tenantId) } }) := by
  unfold principalFromBearer
  simp only [Option.filter, htoken, ne_eq, not_false_eq_true, decide_true, if_true, h, hdict]
  rfl

/-- A minted principal that is read back. -/
def MintCall.loaded (p : Platform) (call : MintCall) (bindings : Table EntraBinding) :
    SignIn where
  principal :=
    { call.signIn.principal with
      tenantId := p.tenantOr call.signIn.principal.tenantId
      identityId := some (call.signIn.identityId p)
      appId := call.signIn.principal.appId.filter (· ≠ "")
      groups := extendGroups bindings call.signIn.principal.groups
        (p.tenantOr (p.tenantOr call.signIn.principal.tenantId))
      authenticated := true
      stepUpAuthenticated := false }
  displayName := call.signIn.displayName.filter (· ≠ "")

theorem comes_back_iff {p : Platform} {call : MintCall} {bindings : Table EntraBinding}
    (htenant : call.signIn.principal.tenantId ≠ "") :
    ComesBack p call.signIn bindings (call.loaded p bindings).principal ↔
      call.signIn.principal.stepUpAuthenticated = false ∧
        call.signIn.principal.appId ≠ some "" := by
  have hsame : p.tenantOr call.signIn.principal.tenantId = call.signIn.principal.tenantId :=
    or_else_of_ne _ htenant
  have happ : call.signIn.principal.appId.filter (· ≠ "") = call.signIn.principal.appId ↔
      call.signIn.principal.appId ≠ some "" := by
    cases call.signIn.principal.appId with
    | none => simp
    | some app => by_cases hempty : app = "" <;> simp [hempty, Option.filter]
  constructor
  · intro h
    exact ⟨h.stepUp.symm, happ.mp h.appId⟩
  · intro ⟨hstep, hid⟩
    refine ⟨rfl, hsame, rfl, happ.mpr hid, rfl, rfl, rfl, hstep.symm, rfl, fun group => ?_⟩
    show group ∈ extendGroups bindings call.signIn.principal.groups
      (p.tenantOr (p.tenantOr call.signIn.principal.tenantId)) ↔ _
    rw [hsame, hsame]
    exact mem_extend_groups

/-- The token of a minted session is refused exactly when a call since revoked the session or its
expiry has passed. Else it gives back a principal, which is the minted one, with its identity and
the mesh groups bound to its groups, exactly when the minted one was not stepped up and its app id
is not an empty text. -/
theorem bearer_round_trip_iff (p : Platform) (orgName localSubject : String)
    (before after : SessionTables) (call : MintCall) (minted : MintedToken)
    (hmint : mintCapmeshToken p orgName before call = .ok (minted, after))
    (hsubject : call.signIn.principal.subject ≠ "")
    (htenant : call.signIn.principal.tenantId ≠ "") (calls : List SessionCall) (now : String) :
    let later := run (sessionStep p orgName) after calls
    let ended := (∃ other ∈ calls, other.revokes p (call.row p) = true) ∨ minted.expiresAt ≤ now
    (principalFromBearer p localSubject later (some minted.bearerToken) now = .ok none ↔ ended) ∧
    (¬ ended → ∃ loaded : SignIn,
      principalFromBearer p localSubject later (some minted.bearerToken) now =
          .ok (some loaded) ∧
        (ComesBack p call.signIn later.bindings loaded.principal ↔
          call.signIn.principal.stepUpAuthenticated = false ∧
            call.signIn.principal.appId ≠ some "")) := by
  obtain ⟨hrow, htoken, hexpires⟩ := mint_ok hmint
  obtain ⟨revokedAt, hkept, hrevoked⟩ :=
    session_run_keeps p orgName calls hrow
  intro later ended
  have hended : (revokedAt.isSome = true ∨ call.expiresAt ≤ now) ↔ ended := by
    rw [hrevoked]
    simp [ended, hexpires, MintCall.row]
  have hfind : later.sessions.find? (·.answers p call.token now) =
      if revokedAt.isSome = true ∨ call.expiresAt ≤ now then none
      else some { call.row p with revokedAt } := find_session hkept rfl
  have hgiven : call.token ≠ "" := by simp [MintCall.token]
  have hloaded : principalFromBearer p localSubject later (some minted.bearerToken) now =
      if revokedAt.isSome = true ∨ call.expiresAt ≤ now then .ok none
      else .ok (some (call.loaded p later.bindings)) := by
    rw [htoken]
    split
    · rename_i h
      rw [if_pos h] at hfind
      exact bearer_none hgiven hfind
    · rename_i h
      rw [if_neg h] at hfind
      have hdict := (congrArg (principalFromDict p localSubject)
        (dict_of_revoked (call.row p) revokedAt)).trans (principal_of_minted hsubject)
      exact bearer_some hgiven hfind hdict
  rw [hloaded]
  constructor
  · split
    · rename_i h
      exact iff_of_true rfl (hended.mp h)
    · rename_i h
      exact iff_of_false (fun hnone => nomatch hnone) fun hend => h (hended.mpr hend)
  · intro hlasts
    rw [if_neg fun h => hlasts (hended.mp h)]
    exact ⟨_, rfl, comes_back_iff htenant⟩

/-- The tables of an office without sessions. -/
def sessionOffice : SessionTables := ⟨buildOffice.tables, .empty, .empty⟩

/-- The administrator signs in. -/
def adminSignsIn (steppedUp : Bool) : MintCall where
  signIn := { buildAdmin with
    principal := { buildAdmin.principal with stepUpAuthenticated := steppedUp } }
  secret := "secret"
  sessionId := "cms_1"
  expiresAt := "2026-02-01T00:00:00Z"
  now := "t0"

/-- A stepped-up administrator comes back without its step-up. -/
theorem bearer_round_trip_counterexample :
    ¬ ∀ (p : Platform) (orgName localSubject : String) (before after : SessionTables)
      (call : MintCall) (minted : MintedToken),
      mintCapmeshToken p orgName before call = .ok (minted, after) →
      call.signIn.principal.subject ≠ "" → call.signIn.principal.tenantId ≠ "" →
      ∀ (calls : List SessionCall) (now : String),
        let later := run (sessionStep p orgName) after calls
        let ended :=
          (∃ other ∈ calls, other.revokes p (call.row p) = true) ∨ minted.expiresAt ≤ now
        ¬ ended → ∃ loaded : SignIn,
          principalFromBearer p localSubject later (some minted.bearerToken) now =
              .ok (some loaded) ∧
            ComesBack p call.signIn later.bindings loaded.principal := by
  intro hclaim
  have hevaluates : ((mintCapmeshToken .sample "the company" sessionOffice
        (adminSignsIn true)).toOption.bind fun result =>
      (principalFromBearer .sample "admin@example.com" result.2 (some result.1.bearerToken)
        "2026-01-01T00:00:00Z").toOption.map fun loaded =>
          (loaded.map (·.principal.stepUpAuthenticated), result.1.expiresAt)) =
      some (some false, "2026-02-01T00:00:00Z") := by
    decide +kernel
  cases hmint : mintCapmeshToken .sample "the company" sessionOffice (adminSignsIn true) with
  | error failure => simp [hmint, Except.toOption] at hevaluates
  | ok result =>
      obtain ⟨minted, after⟩ := result
      have hexpires := (mint_ok hmint).2.2
      obtain ⟨loaded, hloaded, hback⟩ := hclaim _ _ "admin@example.com" _ _ _ _ hmint (by decide)
        (by decide) [] "2026-01-01T00:00:00Z" (by
          rw [hexpires]
          simp only [List.not_mem_nil, false_and, exists_false, false_or]
          decide)
      simp only [run] at hloaded
      simp only [hmint, hloaded, Except.toOption, Option.bind_some, Option.map_some, hback.stepUp,
        Option.some.injEq, Prod.mk.injEq] at hevaluates
      exact absurd hevaluates.1 (by decide)

/-- A member of a group of the directory signs in. -/
def memberSignsIn : MintCall :=
  { adminSignsIn false with
    signIn := { buildAdmin with principal := { buildAdmin.principal with groups := ["g-1"] } } }

/-- The office that knows the member. -/
def memberOffice : SessionTables :=
  { sessionOffice with
    directory := { buildOffice.tables with
      identities := ⟨[memberSignsIn.signIn.row .sample "t0"], List.pairwise_singleton _ _⟩ } }

/-- What is called while the session lasts: its group is bound, and another session is minted and
revoked. -/
def sessionMeanwhile : List SessionCall :=
  [.bind { id := "egb_1", entraTenantId := "t", entraGroupId := "g-1"
           meshGroupName := "engineering", boundAt := "t1" },
    .mint { memberSignsIn with secret := "other secret", sessionId := "cms_2", now := "t1" },
    .revoke { principal := buildAdmin.principal, sessionId := some "cms_2", timestamp := "t2" }]

/-- The member comes back as it was, in the mesh group that was bound since. -/
theorem bearer_round_trip_member : ∃ minted after loaded,
    mintCapmeshToken .sample "the company" memberOffice memberSignsIn = .ok (minted, after) ∧
      let later := run (sessionStep .sample "the company") after sessionMeanwhile
      principalFromBearer .sample "admin@example.com" later (some minted.bearerToken)
          "2026-01-01T00:00:00Z" = .ok (some loaded) ∧
        ComesBack .sample memberSignsIn.signIn later.bindings loaded.principal ∧
        "engineering" ∈ loaded.principal.groups := by
  have hevaluates : (mintCapmeshToken .sample "the company" memberOffice
      memberSignsIn).toOption.any (fun result =>
        (run (sessionStep .sample "the company") result.2 sessionMeanwhile).bindings.any
          fun binding => binding.tenantId = "asg" && binding.entraGroupId = "g-1" &&
            binding.meshGroupName = "engineering") = true := by
    decide +kernel
  obtain ⟨⟨minted, after⟩, hminted, hbound⟩ := (Option.any_eq_true _ _).mp hevaluates
  have hmint := to_option_eq_some hminted
  have hrevokes : ∀ other ∈ sessionMeanwhile,
      other.revokes .sample (memberSignsIn.row .sample) = false := by
    decide +kernel
  obtain ⟨loaded, hloaded, hback⟩ := (bearer_round_trip_iff .sample "the company"
    "admin@example.com" memberOffice after memberSignsIn minted hmint (by decide) (by decide)
    sessionMeanwhile "2026-01-01T00:00:00Z").2 (by
      rw [(mint_ok hmint).2.2]
      rintro (⟨other, hother, hrevoked⟩ | hexpired)
      · rw [hrevokes other hother] at hrevoked
        cases hrevoked
      · exact absurd hexpired (by decide))
  have hcomes := hback.mpr ⟨rfl, by decide⟩
  obtain ⟨binding, hbinding, hmatch⟩ := Table.any_iff.mp hbound
  simp only [Bool.and_eq_true, decide_eq_true_eq] at hmatch
  obtain ⟨⟨htenant, hgroup⟩, hname⟩ := hmatch
  exact ⟨minted, after, loaded, hmint, hloaded, hcomes, (hcomes.groups "engineering").mpr
    (.inr ⟨binding, hbinding, htenant, hgroup ▸ List.mem_singleton_self _, hname⟩)⟩

end Capmesh
