import Capmesh.Registry.Records

/-!
# Routing and sending a task

`model_router.py` and `dispatch_task`. The routing of an envelope picks the model tier and its
backend, the request is built from the envelope and the routing, and the gateway's answer becomes a
result that says completed or failed: `dispatchTask` does not raise once the request is built.
-/

namespace Capmesh

open Python

/-- `MODEL_TIERS`, the cheapest first. -/
inductive ModelTier where
  | qwenWorker | qwenDirector | glm | opus
  deriving DecidableEq, Repr

namespace ModelTier

/-- The name of a tier. -/
def text : ModelTier → String
  | .qwenWorker => "qwen-worker"
  | .qwenDirector => "qwen-director"
  | .glm => "glm"
  | .opus => "opus"

/-- `MODEL_TIERS.index`. -/
def index : ModelTier → Nat
  | .qwenWorker => 0
  | .qwenDirector => 1
  | .glm => 2
  | .opus => 3

/-- The tier of a name in `MODEL_TIERS`. -/
def parse (name : String) : Option ModelTier :=
  [qwenWorker, qwenDirector, glm, opus].find? (·.text = name)

/-- `_backend_for`. -/
def backend : ModelTier → String
  | .qwenWorker => "asgcode-build"
  | .qwenDirector => "asgcode-build"
  | .glm => "bolde-exec"
  | .opus => "codex-exec"

/-- `RISK_TIER_TO_MODEL`. -/
def ofRisk (riskTier : String) : ModelTier :=
  if riskTier = "medium" then .qwenDirector
  else if riskTier = "high" then .glm
  else if riskTier = "critical" then .opus
  else .qwenWorker

end ModelTier

/-- `COMPLEXITY_KEYWORDS`. -/
def complexityKeywords : List (ModelTier × List String) :=
  [(.qwenDirector, ["synthesize", "review", "verify", "validate", "audit", "analyze", "summarize"]),
    (.glm, ["refactor", "architecture", "design", "security", "adversarial", "migrate",
      "optimize"]),
    (.opus, ["legal", "financial", "irreversible", "compliance", "board", "investor"])]

/-- The arguments of `route_model` that it reads. -/
structure RouteRequest where
  riskTier : String := "low"
  mutating : Bool := false
  task : String := ""
  metadata : Dict := []
  override : Option String := none

/-- A tier with the rationale so far. -/
abbrev Routed := ModelTier × String

/-- Raise the tier to one, where it is lower. -/
def Routed.atLeast (routed : Routed) (tier : ModelTier) (rationale : String) : Routed :=
  (if routed.1.index < tier.index then tier else routed.1, routed.2 ++ rationale)

/-- The turn of the keyword loop of `route_model`. -/
def Routed.bump (taskLower : String) (routed : Routed) (entry : ModelTier × List String) : Routed :=
  if entry.2.any (fun word => contains taskLower.toList word.toList) &&
      routed.1.index < entry.1.index then
    (entry.1, routed.2 ++ "; keyword bump -> " ++ entry.1.text)
  else routed

/-- What `route_model` returns. -/
def routing (tier : ModelTier) (rationale : String) : Dict :=
  [("modelTier", .str tier.text), ("rationale", .str rationale), ("backend", .str tier.backend)]

/-- `route_model`. -/
def routeModel (p : Platform) (request : RouteRequest) : Dict :=
  match request.override.bind ModelTier.parse with
  | some tier => routing tier ("explicit override: " ++ tier.text)
  | none =>
      let tier := ModelTier.ofRisk request.riskTier
      let start : Routed := (tier, "risk_tier=" ++ request.riskTier ++ " -> " ++ tier.text)
      let bumped := complexityKeywords.foldl (Routed.bump (p.lower request.task)) start
      let written :=
        if request.mutating && bumped.1.index < ModelTier.qwenDirector.index then
          (ModelTier.qwenDirector, bumped.2 ++ "; mutating -> qwen-director")
        else bumped
      let frontier :=
        if Dict.truthy request.metadata "requiresFrontier" then
          Routed.atLeast written .glm "; requiresFrontier -> glm"
        else written
      let cloud :=
        if Dict.truthy request.metadata "requiresCloud" then
          Routed.atLeast frontier .opus "; requiresCloud -> opus"
        else frontier
      routing cloud.1 cloud.2

/-- `str(data.get(key) or default)`. -/
def fieldOr (data : Dict) (key default : String) : String :=
  if data.truthy key then ((data.get? key).getD .null).toStr else default

/-- The request that `dispatch_task` sends to the gateway. -/
structure GatewayRequest where
  tool : String
  arguments : Dict
  backend : String
  modelTier : String
  taskId : String
  deriving DecidableEq

/-- `BACKEND_TOOLS`. -/
def backendTool (backend : String) : String :=
  if backend = "bolde-exec" ∨ backend = "codex-exec" then "codex_exec" else "asgcode_workflow_go"

/-- The request of an envelope. An envelope, or a routing in it, that is no object raises before
anything is sent. -/
def gatewayRequest (p : Platform) : Json → Option GatewayRequest
  | .obj envelope =>
      let task := fieldOr envelope "task" ""
      let taskId := fieldOr envelope "taskId" ""
      let routed : Option Dict :=
        match Dict.get? envelope "modelRouting" with
        | none => some (routeModel p { riskTier := "medium", task })
        | some (.obj fields) => some fields
        | some _ => none
      routed.map fun routed =>
        let backend := fieldOr routed "backend" "asgcode-build"
        let arguments : Dict :=
          if backend = "asgcode-build" then
            [("objective", .str task), ("evidence", .bool true), ("synthesize", .bool true)]
          else if backend = "bolde-exec" then
            [("prompt", .str ("Task: " ++ task ++ "\nAgent: " ++ fieldOr envelope "agentUri" "" ++
              "\nTask ID: " ++ taskId))]
          else [("prompt", .str task)]
        { tool := backendTool backend, arguments, backend
          modelTier := fieldOr routed "modelTier" "qwen-worker", taskId }
  | _ => none

/-- What the gateway answers: an object, or an exception with its text. -/
inductive GatewayReply where
  | response (data : Dict)
  | unreachable (text : String)
  | raised (text : String)

/-- The status of a dispatch. -/
inductive DispatchStatus where
  | completed | failed
  deriving DecidableEq, Repr

/-- What `dispatch_task` returns. -/
structure DispatchResult where
  status : DispatchStatus
  backend : String
  modelTier : String
  result : Option Json := none
  error : Option String := none
  taskId : String
  dispatchedAt : Option String := none
  deriving DecidableEq

/-- `dispatch_task`, once its request was answered. -/
def dispatchTask (request : GatewayRequest) (now : String) : GatewayReply → DispatchResult
  | .response data =>
      if Dict.has data "error" then
        { status := .failed, backend := request.backend, modelTier := request.modelTier
          error := some ((Dict.get? data "error").getD .null).toStr, taskId := request.taskId }
      else
        { status := .completed, backend := request.backend, modelTier := request.modelTier
          result := some ((data.lookup "result").getD (.obj [])), taskId := request.taskId
          dispatchedAt := some now }
  | .unreachable text =>
      { status := .failed, backend := request.backend, modelTier := request.modelTier
        error := some ("Gateway unreachable: " ++ text), taskId := request.taskId }
  | .raised text =>
      { status := .failed, backend := request.backend, modelTier := request.modelTier
        error := some text, taskId := request.taskId }

/-- A result as the object that is stored. -/
def DispatchResult.json (result : DispatchResult) : Json :=
  let head : Dict :=
    [("status", .str (if result.status = .completed then "completed" else "failed")),
      ("backend", .str result.backend), ("modelTier", .str result.modelTier)]
  let detail : Dict :=
    match result.error with
    | some text => [("error", .str text)]
    | none => [("result", result.result.getD (.obj []))]
  let time : Dict := (result.dispatchedAt.map fun now => ("dispatchedAt", .str now)).toList
  .obj (head ++ detail ++ [("taskId", .str result.taskId)] ++ time)

end Capmesh
