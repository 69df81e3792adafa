import Capmesh.Registry.Delegation

/-!
# Requests to the tools

What the tools of `router.py` share: the scope check, `resolve_capability`, the questions that
`auth.py` puts to `evaluate_access`, and the arguments of a request as a tool reads them. A request
carries what its access checks read beside the catalog.
-/

namespace Capmesh

open Python Relational

/-- The scopes `require_scope` takes for another. -/
def scopeEquivalents (scope : String) : List String :=
  if scope = "cap:search" then ["cap.discover", "cap.discover:*"]
  else if scope = "cap:load" then ["cap.load", "cap.load:*"]
  else if scope = "cap:delegate" then ["cap.delegate", "cap.delegate:*"]
  else if scope = "cap:report" then ["cap.audit", "cap.audit:*"]
  else if scope = "cap:call" then ["cap.call", "cap.call:*"]
  else []

/-- The test of `require_scope`. -/
def Principal.hasScope (principal : Principal) (scope : String) : Bool :=
  principal.scopes.contains scope || principal.scopes.contains "cap:*" ||
    (scopeEquivalents scope).any principal.scopes.contains

/-- The answer of a tool without its scope. -/
def missingScope (scope : String) : ToolError :=
  ⟨"INSUFFICIENT_SCOPE", "Missing required scope: " ++ scope⟩

/-- The answer of a tool that does not find its capability. -/
def capabilityNotFound : ToolError :=
  ⟨"CAPABILITY_NOT_FOUND", "Capability not found. Run cap.search first."⟩

/-- The answer of a tool to a refused access. -/
def accessForbidden (access : Access) : ToolError :=
  ⟨"FORBIDDEN", orElse access.reason "Capability not authorized."⟩

/-- One request to a tool. -/
structure ToolRequest where
  params : Dict
  principal : Principal
  directory : Directory
  orgCache : String → String → Option (Option String)
  now : String
  displayName : Option String := none

namespace ToolRequest

variable (p : Platform) (request : ToolRequest) (db : Database)

/-- What an access check of the request reads. -/
def context : AccessContext := ⟨db, request.directory, request.orgCache, request.now⟩

/-- `resolve_capability`. -/
def resolveCapability : Option Capability :=
  let name := fieldOr request.params "uri" (fieldOr request.params "name" "")
  if name = "" then none else getCapability db name

/-- `can_load`, with a connection. -/
def canLoad (right : String) (cap : Capability) : Access :=
  evaluateAccess p (request.context db)
    { principal := request.principal, right, capability := some cap }

/-- `can_discover`: whether the capability is shown, and whether as a locked stub. -/
def canDiscover (cap : Capability) : Bool × Bool :=
  if cap.discoveryMode = .hidden && !(request.canLoad p db "load" cap).allowed then (false, false)
  else if (request.canLoad p db "load" cap).allowed then (true, false)
  else if cap.discoveryMode = .locked then (true, true)
  else (false, false)

/-- `bool(params.get("dryRun", True))`. -/
def dryRun : Bool := (request.params.lookup "dryRun").all Json.truthy

/-- `bool(params.get("confirm", False))`. -/
def confirm : Bool := (request.params.lookup "confirm").any Json.truthy

/-- `params.get("args") or {}`. -/
def args : Json :=
  match Dict.get? request.params "args" with
  | some value => if value.truthy then value else .obj []
  | none => .obj []

end ToolRequest

end Capmesh
