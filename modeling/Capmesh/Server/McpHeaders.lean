import Capmesh.Model.Platform

/-!
# The headers of an MCP request

`validate_mcp_http_headers` of `server.py`: the origin, the protocol version, the content type, and
the accept header of a request to `/mcp`. A version that only `streamable_http.py` supports ends the
checks. `headers_gate_iff` says for which requests the answer "no error" means that all four headers
are as they should be.
-/

namespace Capmesh

open Python

/-- What `urllib.parse.urlparse` finds in a URL. -/
structure ParsedUrl where
  scheme : String
  netloc : String
  path : String
  params : String
  query : String
  fragment : String
  username : Option String
  password : Option String
  deriving DecidableEq, Repr

/-- What the gate reads beside the request: `urlparse`, which raises on a malformed host, and
`CAPMESH_ALLOWED_ORIGINS`. -/
structure OriginPolicy where
  urlparse : String → Except Failure ParsedUrl
  allowedOrigins : Option String

/-- `split_header`. -/
def splitHeader (p : Platform) (value : Option String) : List String :=
  if present value then
    ((splitOn ',' (value.getD "").toList).map fun item => p.stripSpace (String.ofList item)).filter
      (· ≠ "")
  else []

/-- `_normalized_origin`. -/
def normalizedOrigin (p : Platform) (policy : OriginPolicy) (value : String) :
    Except Failure (Option String) := do
  let parsed ← policy.urlparse value
  if !(["http", "https"].contains parsed.scheme) || parsed.netloc = "" || present parsed.username ||
      present parsed.password then
    return none
  if !(["", "/"].contains parsed.path) || parsed.params ≠ "" || parsed.query ≠ "" ||
      parsed.fragment ≠ "" then
    return none
  return some (p.lower parsed.scheme ++ "://" ++ p.lower parsed.netloc)

/-- `allowed_mcp_origins`. -/
def allowedMcpOrigins (p : Platform) (policy : OriginPolicy) (baseUrl : String) :
    Except Failure (List String) := do
  let origins ← (baseUrl :: splitHeader p policy.allowedOrigins).mapM (normalizedOrigin p policy)
  return origins.filterMap id

/-- `SUPPORTED_MCP_PROTOCOL_VERSIONS` of `server.py`. -/
def supportedMcpProtocolVersions : List String := ["2025-11-25", "2025-06-18", "2025-03-26"]

/-- `SUPPORTED_PROTOCOL_VERSIONS` of `streamable_http.py`. -/
def streamVersions : List String := ["2026-01-25", "2025-06-18", "2024-11-05"]

/-- The headers of a request, and the URL of the service. -/
structure McpHeaders where
  origin : Option String
  protocolVersion : Option String
  baseUrl : String
  contentType : Option String := none
  accept : Option String := none

/-- An answer of the gate: the HTTP status, the code and the message. -/
structure HeaderError where
  status : Nat
  code : String
  message : String
  deriving DecidableEq, Repr

/-- The media type of a content type: what stands before its parameters, in lower case. -/
def mediaType (p : Platform) (contentType : String) : String :=
  p.lower (p.stripSpace (partition ';' contentType).1)

/-- Whether an accept header names JSON. -/
def namesJson (p : Platform) (accept : String) : Bool :=
  contains (p.lower accept).toList "application/json".toList

/-- The checks of the content type and of the accept header. -/
def validateMedia (p : Platform) (headers : McpHeaders) : Option HeaderError :=
  if headers.contentType.any (mediaType p · ≠ "application/json") then
    some ⟨415, "UNSUPPORTED_CONTENT_TYPE", "MCP POST requests must use application/json."⟩
  else if headers.accept.any (!namesJson p ·) then
    some ⟨406, "UNSUPPORTED_ACCEPT", "This stateless MCP endpoint returns application/json."⟩
  else none

/-- The check of the origin. -/
def validateOrigin (p : Platform) (policy : OriginPolicy) (headers : McpHeaders) :
    Except Failure (Option HeaderError) := do
  let forbidden : HeaderError :=
    ⟨403, "INVALID_ORIGIN", "Origin is not allowed for this MCP resource."⟩
  if present headers.origin then
    match ← normalizedOrigin p policy (headers.origin.getD "") with
    | none => return some forbidden
    | some normalized =>
        let allowed ← allowedMcpOrigins p policy headers.baseUrl
        return if allowed.contains normalized then none else some forbidden
  else return none

/-- `validate_mcp_http_headers`. -/
def validateMcpHttpHeaders (p : Platform) (policy : OriginPolicy) (headers : McpHeaders) :
    Except Failure (Option HeaderError) := do
  match ← validateOrigin p policy headers with
  | some forbidden => return some forbidden
  | none =>
      let version := headers.protocolVersion.getD ""
      if version ≠ "" && !supportedMcpProtocolVersions.contains version then
        -- The versions of the other module are not checked any further.
        if streamVersions.contains version then return none
        else return some ⟨400, "UNSUPPORTED_PROTOCOL_VERSION", "Unsupported MCP protocol version."⟩
      else return validateMedia p headers

/-- The origin is absent, or its normal form is an allowed origin. -/
def OriginAllowed (p : Platform) (policy : OriginPolicy) (headers : McpHeaders) : Prop :=
  headers.origin.getD "" = "" ∨ ∃ normalized allowed,
    normalizedOrigin p policy (headers.origin.getD "") = .ok (some normalized) ∧
    allowedMcpOrigins p policy headers.baseUrl = .ok allowed ∧ normalized ∈ allowed

/-- The version is absent, or one of the two modules supports it. -/
def VersionSupported (headers : McpHeaders) : Prop :=
  headers.protocolVersion.getD "" = "" ∨
    headers.protocolVersion.getD "" ∈ supportedMcpProtocolVersions ++ streamVersions

/-- The content type is absent or JSON, and the accept header is absent or names JSON. -/
def MediaJson (p : Platform) (headers : McpHeaders) : Prop :=
  (∀ contentType, headers.contentType = some contentType →
    mediaType p contentType = "application/json") ∧
  ∀ accept, headers.accept = some accept → namesJson p accept = true

/-- The version is supported by `streamable_http.py` alone. -/
def StreamOnly (headers : McpHeaders) : Prop :=
  headers.protocolVersion.getD "" ∈ streamVersions ∧
    headers.protocolVersion.getD "" ∉ supportedMcpProtocolVersions

section

variable {p : Platform} {policy : OriginPolicy} {headers : McpHeaders}

theorem present_iff (text : Option String) : present text = true ↔ text.getD "" ≠ "" := by
  cases text <;> simp [present]

/-- The check of the origin passes exactly an allowed one. -/
theorem validate_origin_iff :
    validateOrigin p policy headers = .ok none ↔ OriginAllowed p policy headers := by
  unfold validateOrigin OriginAllowed
  dsimp only
  by_cases horigin : present headers.origin = true
  · have hne := (present_iff headers.origin).mp horigin
    rw [if_pos horigin]
    cases hnormal : normalizedOrigin p policy (headers.origin.getD "") with
    | error failure => simp [bind, Except.bind, hne]
    | ok normal =>
        cases normal with
        | none => simp [bind, Except.bind, pure, Except.pure, hne]
        | some normalized =>
            cases hallowed : allowedMcpOrigins p policy headers.baseUrl with
            | error failure => simp [bind, Except.bind, hne]
            | ok allowed => simp [bind, Except.bind, pure, Except.pure, hne]
  · have habsent : headers.origin.getD "" = "" := by
      simpa using fun hne => horigin ((present_iff headers.origin).mpr hne)
    rw [if_neg horigin]
    simp [habsent, pure, Except.pure]

/-- The checks of the two media headers pass exactly JSON. -/
theorem validate_media_iff : validateMedia p headers = none ↔ MediaJson p headers := by
  unfold validateMedia MediaJson
  cases headers.contentType with
  | none => cases headers.accept <;> simp
  | some contentType =>
      by_cases hjson : mediaType p contentType = "application/json"
      · cases headers.accept <;> simp [hjson]
      · simp [hjson]

/-- The gate reports no error exactly when the origin is allowed and either the version is one of
the other module alone, or it is absent or supported here and the media headers are JSON. -/
theorem validate_headers_iff : validateMcpHttpHeaders p policy headers = .ok none ↔
    OriginAllowed p policy headers ∧ (StreamOnly headers ∨
      (headers.protocolVersion.getD "" = "" ∨
        headers.protocolVersion.getD "" ∈ supportedMcpProtocolVersions) ∧ MediaJson p headers) := by
  rw [← validate_origin_iff, ← validate_media_iff]
  unfold validateMcpHttpHeaders StreamOnly
  generalize headers.protocolVersion.getD "" = version
  cases validateOrigin p policy headers with
  | error failure => simp [bind, Except.bind]
  | ok outcome =>
      cases outcome with
      | some forbidden => simp [bind, Except.bind, pure, Except.pure]
      | none =>
          by_cases hempty : version = ""
          · have hnot : version ∉ streamVersions := by rw [hempty]; decide
            simp [bind, Except.bind, pure, Except.pure, hempty, hempty ▸ hnot]
          · by_cases hhere : version ∈ supportedMcpProtocolVersions
            · simp [bind, Except.bind, pure, Except.pure, hempty, hhere]
            · by_cases hstream : version ∈ streamVersions <;>
                simp [bind, Except.bind, pure, Except.pure, hempty, hhere, hstream]

/-- **The header gate.** "No error" means that the four headers are as they should be, exactly
unless the version is one of the other module alone and a media header is not JSON. -/
theorem headers_gate_iff (p : Platform) (policy : OriginPolicy) (headers : McpHeaders) :
    (validateMcpHttpHeaders p policy headers = .ok none →
      OriginAllowed p policy headers ∧ VersionSupported headers ∧ MediaJson p headers) ↔
    (OriginAllowed p policy headers → StreamOnly headers → MediaJson p headers) := by
  rw [validate_headers_iff]
  constructor
  · intro hgate horigin hstream
    exact (hgate ⟨horigin, .inl hstream⟩).2.2
  · rintro hmedia ⟨horigin, hstream | ⟨hversion, hjson⟩⟩
    · exact ⟨horigin, .inr (List.mem_append_right _ hstream.1), hmedia horigin hstream⟩
    · exact ⟨horigin, hversion.imp_right (List.mem_append_left _), hjson⟩

end

/-- A version of the other module lets a request with another content type pass. -/
theorem headers_gate_counterexample :
    ¬ ∀ (p : Platform) (policy : OriginPolicy) (headers : McpHeaders),
      validateMcpHttpHeaders p policy headers = .ok none →
      OriginAllowed p policy headers ∧ VersionSupported headers ∧ MediaJson p headers := by
  intro hclaim
  let headers : McpHeaders :=
    { origin := none, protocolVersion := some "2024-11-05", baseUrl := "https://capmesh.example.com"
      contentType := some "text/plain" }
  have hjson := (hclaim .sample ⟨fun _ => .error (.value ""), none⟩ headers rfl).2.2.1 _ rfl
  exact absurd hjson (by decide +kernel)

end Capmesh
