import Capmesh.Python.Runtime

/-!
# Deployment configuration

The environment variables the catalog reads at start-up, beside the standard
library it runs on. Every definition of the model takes a `Platform`, so a result
holds under every configuration. An empty default tenant is not a configuration:
`tenant_id or DEFAULT_TENANT` would not name a tenant.
-/

namespace Capmesh

/-- The configuration of one deployment (`utils.py`, `governance.py`, `manifest.py`). -/
structure Platform extends Python.Runtime where
  /-- `CAPMESH_DEFAULT_TENANT`. -/
  defaultTenant : String
  default_tenant_ne : defaultTenant ≠ ""
  /-- `CAPMESH_DEFAULT_USER_SUBJECT`. -/
  defaultUserSubject : String
  /-- `CAPMESH_DEFAULT_ORG_SLUG`. -/
  defaultOrgSlug : String
  /-- Whether `CAPMESH_ENVIRONMENT` names production. -/
  production : Bool
  /-- `CAPMESH_STRICT_COLLISIONS`. -/
  strictCollisions : Bool

namespace Platform

variable (p : Platform)

/-- `stable_id(prefix, *parts)`: the first 24 digits of the digest of the joined parts. -/
def stableId (tag : String) (parts : List String) : String :=
  tag ++ "_" ++ String.ofList
    ((p.sha256Text (Python.join (String.ofList [Char.ofNat 31]) parts)).toList.take 24)

/-- `tenant_id or DEFAULT_TENANT`. -/
def tenantOr (tenant : String) : String := Python.orElse tenant p.defaultTenant

/-- A tenant resolved against the default is never empty. -/
theorem tenant_or_ne (tenant : String) : p.tenantOr tenant ≠ "" :=
  Python.or_else_ne tenant p.default_tenant_ne

/-- Resolving a tenant twice is resolving it once. -/
@[simp] theorem tenant_or_tenant_or (tenant : String) :
    p.tenantOr (p.tenantOr tenant) = p.tenantOr tenant :=
  Python.or_else_of_ne _ (p.tenant_or_ne tenant)

end Platform

/-- A development deployment on the ASCII tables, for running closed examples. It knows no
digest: an example that needs one names it. -/
def Platform.ascii (sha256 : List UInt8 → String) : Platform where
  chars := .ascii
  nfkc text := text
  sha256
  decodeUtf8 data := String.ofList (data.map fun byte => Char.ofNat byte.toNat)
  reSearch _ _ := none
  repr text := "'" ++ text ++ "'"
  normalizePath path := Python.orElse path "/"
  normalizePath_idem path := Python.or_else_of_ne _ (Python.or_else_ne path (by decide))
  normalizePath_ne path := Python.or_else_ne path (by decide)
  defaultTenant := "asg"
  default_tenant_ne := by decide
  defaultUserSubject := "capmesh"
  defaultOrgSlug := "asg"
  production := false
  strictCollisions := false

/-- SHA-256 on the texts that name the default stores and namespaces of the tenant `asg`. -/
def sampleDigests : List (String × String) :=
  [("asg\x1fcapmesh", "8a771be063fbef53149d218bfee655b32eb2816f2924a7eca7b433359d0e01df"),
    ("asg\x1fuser_private\x1fidn_8a771be063fbef53149d218b",
      "48d2b68f46c6d9b34ba0ea9a1101c1ab3cc0d36a60e90c7bfb4fc121aebab381"),
    ("asg\x1fstore_48d2b68f46c6d9b34ba0ea9a\x1fpersonal",
      "8f6d8e25d84545287c54eb637874b49268e1cf3fb6dda41ebbc0e2330f2d479b"),
    ("asg\x1forg\x1fasg", "a9f0c2e05abea15e4cbf0af03b8d4b5e5c3b5b98a275d33aef9dbee371afa255"),
    ("asg\x1fstore_a9f0c2e05abea15e4cbf0af0\x1fshared",
      "965997254c5bc620b3096ea349b4c3519057c33914b90fb675a04bda8c8bbfc6"),
    ("asg\x1fall_users\x1fall",
      "e907be4900e94d7bb38ed2ab6d426eff55c4f01c79e142131a928c9740662032"),
    ("asg\x1fstore_e907be4900e94d7bb38ed2ab\x1feveryone",
      "a985e6a43d15f154764ef1da60d0ef86b5977e01c47050e8c63417f05570d110")]

/-- The development deployment of the closed examples. -/
def Platform.sample : Platform := .ascii fun content =>
  ((sampleDigests.find? fun entry => entry.1.toUTF8.data.toList = content).map (·.2)).getD ""

/-- Failures of the catalog's operations, with the exception's text. -/
inductive Failure where
  /-- `sqlite3.IntegrityError`: a uniqueness or check constraint. -/
  | integrity (text : String)
  /-- `ValueError` and its subclasses. -/
  | value (text : String)
  /-- `PermissionError`. -/
  | permission (text : String)
  /-- `RuntimeError` and its subclasses. -/
  | runtime (text : String)
  /-- `QuarantineError`. -/
  | quarantine (text : String)
  /-- `QuarantineReleaseBlocked`. -/
  | releaseBlocked (text : String)
  /-- `OSError` and its subclasses. -/
  | os (text : String)
  deriving DecidableEq, Repr

/-- How `json.loads` ends. -/
inductive JsonOutcome where
  | value (json : Python.Json)
  | decodeError
  | failed (failure : Failure)

/-- Lift a table statement that may break a constraint. -/
def constrained {α : Type} (table : String) : Option α → Except Failure α
  | some result => .ok result
  | none => .error (.integrity ("UNIQUE constraint failed: " ++ table))

/-- Peel the first computation off a sequence that succeeded. -/
theorem bind_eq_ok {ε α β : Type} {first : Except ε α} {next : α → Except ε β} {result : β}
    (h : first >>= next = .ok result) :
    ∃ value, first = .ok value ∧ next value = .ok result := by
  cases first with
  | error failure => cases h
  | ok value => exact ⟨value, rfl, h⟩

/-- A mapped computation that succeeded mapped a success. -/
theorem map_eq_ok {ε α β : Type} {first : Except ε α} {f : α → β} {result : β}
    (h : f <$> first = .ok result) : ∃ value, first = .ok value ∧ f value = result := by
  cases first with
  | error failure => cases h
  | ok value => exact ⟨value, rfl, Except.ok.inj h⟩

theorem to_option_eq_some {ε α : Type} {outcome : Except ε α} {result : α}
    (h : outcome.toOption = some result) : outcome = .ok result := by
  cases outcome with
  | error failure => cases h
  | ok value =>
      cases h
      rfl

theorem constrained_ok {α : Type} {table : String} {attempt : Option α} {result : α}
    (h : constrained table attempt = .ok result) : attempt = some result := by
  cases attempt with
  | none => cases h
  | some value =>
      cases h
      rfl

end Capmesh
