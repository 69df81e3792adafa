import Capmesh.Authority.Sessions

/-!
# Logins

The logins of `tokens.py` and their callers in `server.py`. A login is a row of `oauth_sessions`: it
is created pending, a callback or a poll completes it after an exchange with the identity provider,
and `oauth_session_status` hands the minted token to a poller. No call holds a lock from its read of
the row to its write, so each of them is a sequence of steps here, a step for each statement, and
what a call remembers in between is a value of `OauthCall`.
-/

namespace Capmesh

open Python Relational Execution

/-- `oauth_sessions.status`. -/
inductive OauthStatus where
  | pending | expired | failed | callbackReceived | completed
  deriving DecidableEq, Repr

/-- What the calls read and write in `oauth_sessions.metadata_json`. -/
structure OauthMetadata where
  codeVerifier : Option String := none
  deviceCode : Option String := none
  claims : Dict := []
  capmeshSessionId : Option String := none
  capmeshBearerToken : Option String := none
  capmeshTokenExpiresAt : Option String := none
  m365RefreshToken : Option String := none
  refreshTokenDelivered : Bool := false
  tokenDeliveryExpiresAt : Option String := none
  callbackError : Option String := none
  codeReceived : Bool := false
  deriving DecidableEq

/-- A row of `oauth_sessions`. -/
structure OauthSession where
  id : String
  tenantId : String
  flow : String
  state : String
  codeChallenge : String
  codeVerifierHash : String
  redirectUri : String
  scope : String
  nonce : String
  status : OauthStatus := .pending
  metadata : OauthMetadata
  expiresAt : String
  completedAt : Option String := none
  deriving DecidableEq

/-- The primary key and `state`. -/
instance : Constrained OauthSession where
  Conflict a b := a.id = b.id ∨ a.state = b.state
  symm h := h.imp Eq.symm Eq.symm

/-- The columns an `UPDATE` of `oauth_sessions` sets. -/
structure OauthChange where
  status : Option OauthStatus := none
  metadata : Option OauthMetadata := none
  completedAt : Option String := none

/-- A row after an `UPDATE`. -/
def OauthChange.write (change : OauthChange) (row : OauthSession) : OauthSession :=
  { row with
    status := change.status.getD row.status
    metadata := change.metadata.getD row.metadata
    completedAt := change.completedAt.or row.completedAt }

/-- `UPDATE oauth_sessions SET … WHERE id = ?`. -/
def updateOauth (rows : Table OauthSession) (id : String) (change : OauthChange) :
    Table OauthSession :=
  rows.map (fun row => if row.id = id then change.write row else row) fun a b h => by
    split at h <;> split at h <;> exact h

/-- The deployment of the logins: the S256 challenge of a verifier, `expires_in` of the delivery
lifetime, the registered Entra client, `int` of a text or of a float, and the verdict of
`TokenValidator`, which computes with floats. -/
structure OauthHost where
  orgName : String
  challenge : String → String
  expiresIn : String → String
  expires_in_ne : ∀ now, expiresIn now ≠ ""
  clientId : String
  readInt : String → Option Int
  validates : Dict → Int → Bool

/-- What `secrets`, `new_id` and `expires_in` give `create_oauth_session`. -/
structure OauthDraw where
  id : String
  state : String
  nonce : String
  nonce_ne : nonce ≠ ""
  verifier : String
  expiresAt : String

/-- The arguments of `create_oauth_session`. -/
structure OauthRequest where
  tenantId : String
  flow : String
  redirectUri : String
  scope : String

/-- What the identity provider answered to an exchange: the claims of the verified token, the
principal made of them, and the refresh token. -/
structure OauthLogin where
  claims : Dict
  signIn : SignIn
  refreshToken : Option String := none

/-- Who completes a login: the callback of Entra, the poll of a device code, the callback of
Google. -/
inductive OauthVia where
  | callback | device | google
  deriving DecidableEq, Repr

/-- `_trusted_ms_issuers`. -/
def trustedMsIssuers (tid : String) : List String :=
  ["https://login.microsoftonline.com/" ++ tid ++ "/v2.0", "https://sts.windows.net/" ++ tid ++ "/"]

/-- `sanitize_claims`. -/
def sanitizeClaims (claims : Dict) : Dict :=
  claims.filter fun field => ["aud", "iss", "tid", "oid", "name", "preferred_username", "upn",
    "email", "roles", "groups"].contains field.1

section

variable (p : Platform) (host : OauthHost)

/-- The row `create_oauth_session` inserts. -/
def OauthRequest.row (request : OauthRequest) (draw : OauthDraw) : OauthSession where
  id := draw.id
  tenantId := request.tenantId
  flow := request.flow
  state := draw.state
  codeChallenge := host.challenge draw.verifier
  codeVerifierHash := hashSecret p draw.verifier
  redirectUri := request.redirectUri
  scope := request.scope
  nonce := draw.nonce
  metadata := { codeVerifier := some draw.verifier }
  expiresAt := draw.expiresAt

/-- `create_oauth_session`. -/
def createOauthSession (tables : SessionTables) (rows : Table OauthSession)
    (request : OauthRequest) (draw : OauthDraw) : Except Failure (Table OauthSession) := do
  let rows ← constrained "oauth_sessions" (rows.insert? (request.row p host draw))
  foreignKey (tables.directory.tenants.any (·.id = request.tenantId)) rows

/-- `validate_oauth_callback`, from its read on: the change it writes, and whether it fails. -/
def validateOauthCallback (row : OauthSession) (code : Bool) (error : Option String)
    (now : String) : Option OauthChange :=
  if row.status ≠ .pending then none
  else if row.expiresAt ≤ now then some { status := some .expired }
  else
    some
      { status := some (if present error then .failed else .callbackReceived)
        metadata := some { row.metadata with callbackError := error, codeReceived := code }
        completedAt := some now }

/-- `complete_oauth_callback` before the exchange: the stored verifier is the one whose digest was
stored. -/
def holdsVerifier (row : OauthSession) : Bool :=
  match row.metadata.codeVerifier with
  | some verifier => verifier ≠ "" && hashSecret p verifier = row.codeVerifierHash
  | none => false

/-- `poll_oauth_session` before the exchange. -/
def awaitsDevice (row : OauthSession) : Bool :=
  row.flow = "device_code" && row.status = .pending && present row.metadata.deviceCode

/-- `int(claims.get("exp") or 0)`. -/
def claimedExpiry (claims : Dict) : Except Failure Int :=
  match claims.get? "exp" with
  | some (.int moment) => .ok moment
  | some (.bool flag) => .ok (if flag then 1 else 0)
  | some (.str text) =>
      if text = "" then .ok 0
      else (host.readInt text).elim (.error (.value "invalid literal for int()")) .ok
  | some (.float literal) =>
      (host.readInt literal).elim (.error (.value "cannot convert float to integer")) .ok
  | some value =>
      if value.truthy then .error (.runtime "int() argument must be a string or a number")
      else .ok 0
  | none => .ok 0

/-- The checks `complete_oauth_session` makes of the claims. The one of the stored verifier is not
among them: it ends in an exception that is dropped. -/
def checkClaims (row : OauthSession) (claims : Dict) (clock : Int) : Except Failure Unit := do
  let tid := textField p claims ["tid"] ""
  let issuer := if claims.has "iss" then (claims.get? "iss").getD .null else .str ""
  let own := "https://login.microsoftonline.com/" ++ tid ++ "/v2.0"
  if tid = "" then .error (.value "ID token did not contain a tenant id.")
  if !((trustedMsIssuers tid).any fun trusted => issuer == .str trusted) then
    .error (.value ("ID token issuer '" ++ Json.strText p.repr issuer ++
      "' did not match the resolved tenant issuer '" ++ own ++ "'."))
  if host.clientId ≠ "" && claims.get? "aud" ≠ some (.str host.clientId) then
    .error (.value "ID token audience did not match the configured client id.")
  if row.nonce ≠ "" && claims.truthy "nonce" && claims.get? "nonce" ≠ some (.str row.nonce) then
    .error (.value "ID token nonce did not match the OAuth session.")
  let expiry ← claimedExpiry host claims
  if expiry ≠ 0 && expiry ≤ clock then .error (.value "ID token is expired.")
  if !host.validates claims clock then
    .error (.value "ID token claim validation failed.")

/-- `complete_oauth_session`: the document that is stored with the minted token. -/
def OauthMetadata.complete365 (metadata : OauthMetadata) (login : OauthLogin)
    (token : MintedToken) (now : String) : OauthMetadata :=
  { metadata with
    codeVerifier := none
    claims := sanitizeClaims login.claims
    capmeshSessionId := some token.sessionId
    capmeshBearerToken := some token.bearerToken
    capmeshTokenExpiresAt := some token.expiresAt
    refreshTokenDelivered := false
    tokenDeliveryExpiresAt := some (host.expiresIn now)
    m365RefreshToken :=
      if present login.refreshToken then login.refreshToken else metadata.m365RefreshToken }

/-- `complete_google_session`: the document that is stored with the minted token. -/
def OauthMetadata.completeGoogle (metadata : OauthMetadata) (login : OauthLogin)
    (token : MintedToken) (now : String) : OauthMetadata :=
  { metadata with
    codeVerifier := none
    claims := sanitizeClaims login.claims
    capmeshSessionId := some token.sessionId
    capmeshBearerToken := some token.bearerToken
    capmeshTokenExpiresAt := some token.expiresAt
    tokenDeliveryExpiresAt := some (host.expiresIn now) }

/-- The document a completion stores. -/
def OauthVia.document (via : OauthVia) (metadata : OauthMetadata) (login : OauthLogin)
    (token : MintedToken) (now : String) : OauthMetadata :=
  match via with
  | .google => metadata.completeGoogle host login token now
  | _ => metadata.complete365 host login token now

/-- The call of `mint_capmesh_token` a completion makes. -/
def OauthLogin.mintCall (login : OauthLogin) (via : OauthVia) (row : OauthSession)
    (secret sessionId expiresAt now : String) : MintCall where
  signIn := login.signIn
  secret := secret
  sessionId := sessionId
  expiresAt := expiresAt
  now := now
  metadata := [("source", .str (if via = .google then "google" else "m365")),
    ("oauthSessionId", .str row.id)]

/-- What `oauth_session_status` returns. -/
structure OauthPayload where
  id : String
  tenantId : String
  flow : String
  status : OauthStatus
  expiresAt : String
  completedAt : Option String
  principal : Dict
  capmeshSession : Option (String × Option String)
  bearerToken : Option String := none
  m365RefreshToken : Option String := none
  refreshTokenDelivered : Bool := false
  tokenDeliveryExpired : Bool := false

/-- Whether the delivery deadline of a row has passed. -/
def OauthSession.isLate (row : OauthSession) (now : String) : Bool :=
  match row.metadata.tokenDeliveryExpiresAt with
  | some deadline => deadline ≠ "" && deadline ≤ now
  | none => false

/-- The payload of a row without its tokens. -/
def OauthSession.payload (row : OauthSession) : OauthPayload where
  id := row.id
  tenantId := row.tenantId
  flow := row.flow
  status := row.status
  expiresAt := row.expiresAt
  completedAt := row.completedAt
  principal := row.metadata.claims
  capmeshSession :=
    if present row.metadata.capmeshSessionId then
      row.metadata.capmeshSessionId.map (·, row.metadata.capmeshTokenExpiresAt)
    else none

/-- `oauth_session_status`, from its read on: the payload, and the document it writes. -/
def oauthSessionStatus (row : OauthSession) (consumeTokens : Bool) (now : String) :
    OauthPayload × Option OauthMetadata :=
  if consumeTokens && row.status = .completed then
    let metadata := { row.metadata with capmeshBearerToken := none, m365RefreshToken := none }
    if row.isLate now then
      ({ row.payload with tokenDeliveryExpired := true }, some metadata)
    else
      let delivered := present row.metadata.m365RefreshToken
      ({ row.payload with
          bearerToken := row.metadata.capmeshBearerToken
          m365RefreshToken := row.metadata.m365RefreshToken
          refreshTokenDelivered := delivered },
        some { metadata with refreshTokenDelivered := delivered })
  else (row.payload, none)

end

/-- What a request remembers between two of its statements. A request is named by a number. -/
inductive OauthCall where
  | idle
  /-- `start_device_code_login`, waiting for a device code. -/
  | starting (id : String)
  /-- `validate_oauth_callback` after its read. -/
  | validating (row : OauthSession) (code : Bool) (error : Option String)
  /-- A completion after its caller's read, waiting for the identity provider. -/
  | exchanging (via : OauthVia) (first : OauthSession)
  /-- A completion after its own read and its checks. -/
  | accepted (via : OauthVia) (first row : OauthSession) (login : OauthLogin)
  /-- A completion that has minted its token. -/
  | minted (via : OauthVia) (row : OauthSession) (login : OauthLogin) (token : MintedToken)
  /-- `oauth_session_status` after its read. -/
  | reading (row : OauthSession) (consumeTokens : Bool)

/-- A session that was minted: for which login, as it was stored, and what it was minted on. -/
structure OauthMint where
  via : OauthVia
  stored : Option OauthSession
  row : OauthSession
  login : OauthLogin
  now : String

/-- A token that was handed out: the login, the moment, and the deadline that was read. -/
structure OauthReply where
  via : Option OauthVia := none
  id : String
  token : String
  now : String
  deadline : Option String

/-- The tables, the requests under way, and what they have minted and handed out. -/
structure OauthState where
  tables : SessionTables
  rows : Table OauthSession
  calls : Nat → OauthCall
  mints : List OauthMint := []
  replies : List OauthReply := []

/-- One step of a request. -/
inductive OauthAction where
  | create (call : Nat) (request : OauthRequest) (draw : OauthDraw)
  | device (call : Nat) (deviceCode : Option String)
  | validateRead (call : Nat) (state : String) (code : Bool) (error : Option String)
  | validateWrite (call : Nat) (now : String)
  | callbackRead (call : Nat) (state : String)
  | googleRead (call : Nat) (state : String)
  | pollRead (call : Nat) (key : String)
  | giveUp (call : Nat)
  | completeRead (call : Nat) (login : OauthLogin) (clock : Int)
  | mint (call : Nat) (secret sessionId expiresAt now : String)
  | finish (call : Nat) (now : String)
  | statusRead (call : Nat) (key : String) (consumeTokens : Bool)
  | statusWrite (call : Nat) (now : String)

namespace OauthState

/-- A request goes on. -/
def goesOn (state : OauthState) (call : Nat) (next : OauthCall) : OauthState :=
  { state with calls := fun other => if other = call then next else state.calls other }

/-- The row of a state text. -/
def ofState (state : OauthState) (text : String) : Option OauthSession :=
  state.rows.find? (·.state = text)

/-- The row of an id or of a state text. -/
def ofKey (state : OauthState) (key : String) : Option OauthSession :=
  state.rows.find? fun row => row.id = key || row.state = key

/-- The row of an id. -/
def stored (state : OauthState) (id : String) : Option OauthSession :=
  state.rows.find? (·.id = id)

end OauthState

section

variable (p : Platform) (host : OauthHost)

/-- One step; one that fails, or that its request does not take now, changes nothing. -/
def oauthStep (state : OauthState) : OauthAction → OauthState
  | .create call request draw =>
      match state.calls call, createOauthSession p host state.tables state.rows request draw with
      | .idle, .ok rows =>
          if request.flow = "device_code" then
            if host.clientId = "" then state
            else { state with rows }.goesOn call (.starting draw.id)
          else { state with rows }
      | _, _ => state
  | .device call deviceCode =>
      match state.calls call with
      | .starting id =>
          let rows := updateOauth state.rows id { metadata := some { deviceCode } }
          { state with rows }.goesOn call .idle
      | _ => state
  | .validateRead call text code error =>
      match state.calls call, state.ofState text with
      | .idle, some row => state.goesOn call (.validating row code error)
      | _, _ => state
  | .validateWrite call now =>
      match state.calls call with
      | .validating row code error =>
          match validateOauthCallback row code error now with
          | some change =>
              { state with rows := updateOauth state.rows row.id change }.goesOn call .idle
          | none => state.goesOn call .idle
      | _ => state
  | .callbackRead call text =>
      match state.calls call, state.ofState text with
      | .idle, some row =>
          -- without a client the callback is only noted
          if host.clientId = "" then state.goesOn call (.validating row true none)
          else if holdsVerifier p row then state.goesOn call (.exchanging .callback row) else state
      | _, _ => state
  | .googleRead call text =>
      match state.calls call, state.ofState text with
      | .idle, some row =>
          if row.status = .pending then state.goesOn call (.exchanging .google row) else state
      | _, _ => state
  | .pollRead call key =>
      match state.calls call, state.ofKey key with
      | .idle, some row =>
          if awaitsDevice row && host.clientId ≠ "" then
            state.goesOn call (.exchanging .device row)
          else state
      | _, _ => state
  | .giveUp call => state.goesOn call .idle
  | .completeRead call login clock =>
      match state.calls call with
      | .exchanging via first =>
          match state.ofState first.state with
          | some row =>
              if via = .google || (checkClaims p host row login.claims clock).isOk then
                state.goesOn call (.accepted via first row login)
              else state.goesOn call .idle
          | none => state.goesOn call .idle
      | _ => state
  | .mint call secret sessionId expiresAt now =>
      match state.calls call with
      | .accepted via _ row login =>
          match mintCapmeshToken p host.orgName state.tables
              (login.mintCall via row secret sessionId expiresAt now) with
          | .ok (token, tables) =>
              let mint : OauthMint := { via, stored := state.stored row.id, row, login, now }
              { state with tables, mints := state.mints ++ [mint] }.goesOn call
                (.minted via row login token)
          | .error _ => state.goesOn call .idle
      | _ => state
  | .finish call now =>
      match state.calls call with
      | .minted via row login token =>
          let metadata := via.document host row.metadata login token now
          let rows := updateOauth state.rows row.id
            { status := some .completed, metadata := some metadata, completedAt := some now }
          let reply : OauthReply :=
            { via := some .google, id := row.id, token := token.bearerToken, now := now,
              deadline := some (host.expiresIn now) }
          let replies := if via = .google then state.replies ++ [reply] else state.replies
          { state with rows, replies }.goesOn call .idle
      | _ => state
  | .statusRead call key consumeTokens =>
      match state.calls call, state.ofKey key with
      | .idle, some row => state.goesOn call (.reading row consumeTokens)
      | _, _ => state
  | .statusWrite call now =>
      match state.calls call with
      | .reading row consumeTokens =>
          let (payload, document) := oauthSessionStatus row consumeTokens now
          let rows := match document with
            | some metadata => updateOauth state.rows row.id { metadata := some metadata }
            | none => state.rows
          let replies := match payload.bearerToken with
            | some token =>
                let deadline := row.metadata.tokenDeliveryExpiresAt
                let reply : OauthReply := { id := row.id, token := token, now := now, deadline }
                state.replies ++ [reply]
            | none => state.replies
          { state with rows, replies }.goesOn call .idle
      | _ => state

/-- The read a completion begins with. -/
def OauthVia.read (via : OauthVia) (call : Nat) (key : String) : OauthAction :=
  match via with
  | .callback => .callbackRead call key
  | .google => .googleRead call key
  | .device => .pollRead call key

/-- What the caller of a completion checks of the row it read. -/
def OauthVia.begins (via : OauthVia) (row : OauthSession) : Bool :=
  match via with
  | .callback => holdsVerifier p row
  | .google => row.status = .pending
  | .device => awaitsDevice row

/-- What a step does, by the state it is taken in. -/
inductive OauthEffect (state : OauthState) : OauthAction → OauthState → Prop where
  | kept (action : OauthAction) : OauthEffect state action state
  | ended {action : OauthAction} {call : Nat}
      (hmint : ∀ via row login token, state.calls call ≠ .minted via row login token) :
      OauthEffect state action (state.goesOn call .idle)
  | stopped (call : Nat) : OauthEffect state (.giveUp call) (state.goesOn call .idle)
  | created {call : Nat} {request : OauthRequest} {draw : OauthDraw} {rows : Table OauthSession}
      {next : OauthCall} (hidle : state.calls call = .idle)
      (hrows : state.rows.insert? (request.row p host draw) = some rows)
      (hnext : next = .idle ∨ next = .starting draw.id) :
      OauthEffect state (.create call request draw) ({ state with rows }.goesOn call next)
  | deviceStored {call : Nat} {deviceCode : Option String} {id : String}
      (hcall : state.calls call = .starting id) :
      OauthEffect state (.device call deviceCode)
        ({ state with
          rows := updateOauth state.rows id { metadata := some { deviceCode } } }.goesOn call .idle)
  | remembered {action : OauthAction} {call : Nat} {row : OauthSession} {next : OauthCall}
      (hidle : state.calls call = .idle) (hrow : row ∈ state.rows)
      (hnext : (∃ code error, next = .validating row code error) ∨
        ∃ consumeTokens, next = .reading row consumeTokens) :
      OauthEffect state action (state.goesOn call next)
  | began {via : OauthVia} {call : Nat} {key : String} {row : OauthSession}
      (hidle : state.calls call = .idle) (hrow : row ∈ state.rows)
      (hkey : via ≠ .device → state.ofState key = some row) (hbegins : via.begins p row = true) :
      OauthEffect state (via.read call key) (state.goesOn call (.exchanging via row))
  | validated {call : Nat} {now : String} {row : OauthSession} {code : Bool}
      {error : Option String} {change : OauthChange}
      (hcall : state.calls call = .validating row code error)
      (hchange : validateOauthCallback row code error now = some change) :
      OauthEffect state (.validateWrite call now)
        ({ state with rows := updateOauth state.rows row.id change }.goesOn call .idle)
  | accepted {call : Nat} {login : OauthLogin} {clock : Int} {via : OauthVia}
      {first row : OauthSession} (hcall : state.calls call = .exchanging via first)
      (hrow : row ∈ state.rows) (hstate : row.state = first.state)
      (hclaims : via = .google ∨ (checkClaims p host row login.claims clock).isOk = true) :
      OauthEffect state (.completeRead call login clock)
        (state.goesOn call (.accepted via first row login))
  | minted {call : Nat} {secret sessionId expiresAt now : String} {via : OauthVia}
      {first row : OauthSession} {login : OauthLogin} {token : MintedToken}
      {tables : SessionTables} (hcall : state.calls call = .accepted via first row login)
      (hmint : mintCapmeshToken p host.orgName state.tables
        (login.mintCall via row secret sessionId expiresAt now) = .ok (token, tables)) :
      OauthEffect state (.mint call secret sessionId expiresAt now)
        ({ state with
          tables
          mints := state.mints ++
            [OauthMint.mk via (state.stored row.id) row login now] }.goesOn call
          (.minted via row login token))
  | finished {call : Nat} {now : String} {via : OauthVia} {row : OauthSession}
      {login : OauthLogin} {token : MintedToken} {replies : List OauthReply}
      (hcall : state.calls call = .minted via row login token)
      (hreplies : replies = state.replies ∨ via = .google ∧ replies = state.replies ++
        [OauthReply.mk (some .google) row.id token.bearerToken now (some (host.expiresIn now))]) :
      OauthEffect state (.finish call now)
        ({ state with
          rows := updateOauth state.rows row.id
            { status := some .completed
              metadata := some (via.document host row.metadata login token now)
              completedAt := some now }
          replies }.goesOn call .idle)
  | delivered {call : Nat} {now : String} {row : OauthSession} {metadata : OauthMetadata}
      {replies : List OauthReply} (hcall : state.calls call = .reading row true)
      (hstatus : row.status = .completed)
      (hmetadata : metadata.capmeshBearerToken = none ∧
        metadata.codeVerifier = row.metadata.codeVerifier)
      (hreplies : replies = state.replies ∨ ∃ token, row.isLate now = false ∧
        row.metadata.capmeshBearerToken = some token ∧ replies = state.replies ++
        [OauthReply.mk none row.id token now row.metadata.tokenDeliveryExpiresAt]) :
      OauthEffect state (.statusWrite call now)
        ({ state with
          rows := updateOauth state.rows row.id { metadata := some metadata }
          replies }.goesOn call .idle)

end

section

variable {p : Platform} {host : OauthHost} {state : OauthState} {row : OauthSession}

namespace OauthState

theorem mem_of_state {text : String} (h : state.ofState text = some row) :
    row ∈ state.rows ∧ row.state = text := by
  obtain ⟨hrow, htext⟩ := Table.find?_some h
  exact ⟨hrow, of_decide_eq_true htext⟩

theorem mem_of_key {key : String} (h : state.ofKey key = some row) : row ∈ state.rows :=
  (Table.find?_some h).1

theorem mem_stored {id : String} (h : state.stored id = some row) :
    row ∈ state.rows ∧ row.id = id := by
  obtain ⟨hrow, hid⟩ := Table.find?_some h
  exact ⟨hrow, of_decide_eq_true hid⟩

@[simp] theorem goes_on_rows (call : Nat) (next : OauthCall) :
    (state.goesOn call next).rows = state.rows := rfl

@[simp] theorem goes_on_tables (call : Nat) (next : OauthCall) :
    (state.goesOn call next).tables = state.tables := rfl

@[simp] theorem goes_on_mints (call : Nat) (next : OauthCall) :
    (state.goesOn call next).mints = state.mints := rfl

@[simp] theorem goes_on_replies (call : Nat) (next : OauthCall) :
    (state.goesOn call next).replies = state.replies := rfl

/-- A request that went on is where it went; the others are where they were. -/
theorem goes_on_calls {call other : Nat} {next now : OauthCall}
    (h : (state.goesOn call next).calls other = now) :
    other = call ∧ now = next ∨ other ≠ call ∧ state.calls other = now := by
  unfold goesOn at h
  dsimp only at h
  split at h
  · exact .inl ⟨‹_›, h.symm⟩
  · exact .inr ⟨‹_›, h⟩

end OauthState

/-- A row after an `UPDATE` is one that was there, changed if it has the id. -/
theorem mem_update_oauth {rows : Table OauthSession} {id : String} {change : OauthChange} :
    row ∈ updateOauth rows id change ↔
      ∃ old ∈ rows, row = if old.id = id then change.write old else old :=
  (Table.mem_map _ row).trans (by simp only [eq_comm])

theorem oauth_session_status_completed (hstatus : row.status = .completed) (now : String) :
    ∃ metadata, (oauthSessionStatus row true now).2 = some metadata ∧
      metadata.capmeshBearerToken = none ∧ metadata.codeVerifier = row.metadata.codeVerifier ∧
      (oauthSessionStatus row true now).1.bearerToken =
        if row.isLate now then none else row.metadata.capmeshBearerToken := by
  unfold oauthSessionStatus
  rw [hstatus]
  cases hlate : row.isLate now with
  | false => exact ⟨_, rfl, rfl, rfl, rfl⟩
  | true => exact ⟨_, rfl, rfl, rfl, rfl⟩

/-- A status read that consumes nothing, or finds no completed login, writes nothing. -/
theorem oauth_session_status_rest {consumeTokens : Bool}
    (h : ¬ (consumeTokens = true ∧ row.status = .completed)) (now : String) :
    oauthSessionStatus row consumeTokens now = (row.payload, none) :=
  if_neg (by simpa using h)

theorem oauth_step_effect (p : Platform) (host : OauthHost) (state : OauthState)
    (action : OauthAction) : OauthEffect p host state action (oauthStep p host state action) := by
  have hended : ∀ (action : OauthAction) (call : Nat) (now : OauthCall), state.calls call = now →
      (∀ via row login token, now ≠ .minted via row login token) →
      OauthEffect p host state action (state.goesOn call .idle) := fun _ _ _ hcall hne =>
    .ended fun via row login token hmint => hne via row login token (hcall.symm.trans hmint)
  cases action with
  | create call request draw =>
      simp only [oauthStep]
      split
      · rename_i rows hidle hcreate
        obtain ⟨inserted, hinserted, hcreate⟩ := bind_eq_ok hcreate
        obtain ⟨-, rfl⟩ := StoreTables.foreign_key_ok hcreate
        have hrows := constrained_ok hinserted
        split
        · split
          · exact .kept _
          · exact .created hidle hrows (.inr rfl)
        · have hsame : ({ state with rows }.goesOn call .idle : OauthState) =
              { state with rows } := by
            unfold OauthState.goesOn
            simp only [OauthState.mk.injEq, true_and, and_true]
            funext other
            split
            · rw [‹other = call›, hidle]
            · rfl
          rw [← hsame]
          exact .created hidle hrows (.inl rfl)
      · exact .kept _
  | device call deviceCode =>
      simp only [oauthStep]
      split
      · exact .deviceStored ‹_›
      · exact .kept _
  | validateRead call text code error =>
      simp only [oauthStep]
      split
      · rename_i row hidle hfind
        exact .remembered hidle (OauthState.mem_of_state hfind).1 (.inl ⟨_, _, rfl⟩)
      · exact .kept _
  | validateWrite call now =>
      simp only [oauthStep]
      split
      · rename_i row code error hcall
        split
        · exact .validated hcall ‹_›
        · exact hended _ call _ hcall (by simp)
      · exact .kept _
  | callbackRead call text =>
      simp only [oauthStep]
      split
      · rename_i row hidle hfind
        have hrow := (OauthState.mem_of_state hfind).1
        split
        · exact .remembered hidle hrow (.inl ⟨_, _, rfl⟩)
        · split
          · have hbegan := @OauthEffect.began p host state .callback call text row hidle hrow
              (fun _ => hfind)
            exact hbegan ‹_›
          · exact .kept _
      · exact .kept _
  | googleRead call text =>
      simp only [oauthStep]
      split
      · rename_i row hidle hfind
        split
        · have hbegan := @OauthEffect.began p host state .google call text row hidle
            (OauthState.mem_of_state hfind).1 (fun _ => hfind)
          exact hbegan (decide_eq_true ‹_›)
        · exact .kept _
      · exact .kept _
  | pollRead call key =>
      simp only [oauthStep]
      split
      · rename_i row hidle hfind
        split
        · have hbegan := @OauthEffect.began p host state .device call key row hidle
            (OauthState.mem_of_key hfind) (fun h => absurd rfl h)
          exact hbegan (Bool.and_eq_true_iff.mp ‹_›).1
        · exact .kept _
      · exact .kept _
  | giveUp call => exact .stopped call
  | completeRead call login clock =>
      simp only [oauthStep]
      split
      · rename_i via first hcall
        split
        · rename_i row hfind
          obtain ⟨hrow, hstate⟩ := OauthState.mem_of_state hfind
          split
          · rename_i hclaims
            exact .accepted hcall hrow hstate (by simpa using hclaims)
          · exact hended _ call _ hcall (by simp)
        · exact hended _ call _ hcall (by simp)
      · exact .kept _
  | mint call secret sessionId expiresAt now =>
      simp only [oauthStep]
      split
      · rename_i via first row login hcall
        split
        · exact .minted hcall ‹_›
        · exact hended _ call _ hcall (by simp)
      · exact .kept _
  | finish call now =>
      simp only [oauthStep]
      split
      · rename_i via row login token hcall
        refine .finished hcall ?_
        split
        · exact .inr ⟨‹_›, rfl⟩
        · exact .inl rfl
      · exact .kept _
  | statusRead call key consumeTokens =>
      simp only [oauthStep]
      split
      · rename_i row hidle hfind
        exact .remembered hidle (OauthState.mem_of_key hfind) (.inr ⟨_, rfl⟩)
      · exact .kept _
  | statusWrite call now =>
      simp only [oauthStep]
      split
      · rename_i row consumeTokens hcall
        by_cases hwrites : consumeTokens = true ∧ row.status = .completed
        · obtain ⟨rfl, hstatus⟩ := hwrites
          obtain ⟨metadata, hdocument, htoken, hverifier, hpayload⟩ :=
            oauth_session_status_completed hstatus now
          simp only [hdocument, hpayload]
          refine .delivered hcall hstatus ⟨htoken, hverifier⟩ ?_
          cases hlate : row.isLate now with
          | true => exact .inl rfl
          | false =>
              cases hbearer : row.metadata.capmeshBearerToken with
              | none => exact .inl rfl
              | some token => exact .inr ⟨token, rfl, rfl, rfl⟩
        · rw [oauth_session_status_rest hwrites]
          exact hended _ call _ hcall (by simp)
      · exact .kept _

end

end Capmesh
