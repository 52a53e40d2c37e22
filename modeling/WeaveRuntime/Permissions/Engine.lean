/-
The permission engine (permissions/engine.py and permissions/models.py):
rules, the policies they are layered in, the snapshot of a request they
are matched against, and the decision of a tool call.

A request carries a payload, and the snapshot is computed from it.
`evaluate` keeps a payload of its own, into which it puts the update of a
pending hook again, and that is the one it returns with its decision.

`PermissionTrace` records what an evaluation did besides returning: the
snapshots the policy stack was applied to and the payloads a host was
asked about. The details of a decision, which only explain it, are left
out.
-/
import WeaveRuntime.Definitions
import WeaveRuntime.Python.Fnmatch
import WeaveRuntime.Tools.Callables

namespace WeaveRuntime.Permissions

open Lib
open Definitions (PermissionMode)
open Python (fnmatch)
open Tools

-- ============== models

inductive PermissionTarget where
  | tool
  | skill
  | agent
  | host
  deriving DecidableEq, Repr

def PermissionTarget.value : PermissionTarget → String
  | .tool => "tool"
  | .skill => "skill"
  | .agent => "agent"
  | .host => "host"

structure PermissionRequestMatchSnapshot where
  target : PermissionTarget
  name : String
  candidateNames : List String
  scopes : List String
  riskLevel : Option ToolRiskLevel
  operation : Option String
  readOnly : Option Bool
  tags : List String
  deriving DecidableEq, Repr

structure PermissionRule where
  selector : String
  behavior : PermissionBehavior
  target : Option PermissionTarget := none
  message : Option String := none
  scopes : List String := []
  riskLevels : List ToolRiskLevel := []
  operations : List String := []
  tags : List String := []
  readOnly : Option Bool := none

structure PermissionPolicy where
  rules : List PermissionRule := []
  fallbackBehavior : Option PermissionBehavior := none
  fallbackMessage : Option String := none

structure PermissionContext where
  mode : PermissionMode := .default
  rules : List PermissionRule := []
  policies : List PermissionPolicy := []
  policyScopes : List String := []

/-- What a request says: the definition is the one the tool path puts into
its metadata. -/
structure PermissionRequest where
  sessionId : String
  turnId : Option String
  target : PermissionTarget
  name : String
  payload : ToolInput
  definition : Option Tool

structure PermissionOutcome where
  behavior : PermissionBehavior
  message : Option String := none
  updatedInput : Option ToolInput := none

def coercePermissionOutcome : Option PermissionOutcome → PermissionOutcome
  | none => { behavior := .allow }
  | some outcome => outcome

def PermissionOutcome.toDecision (outcome : PermissionOutcome) :
    PermissionDecision where
  behavior := outcome.behavior
  message := outcome.message
  updatedInput := outcome.updatedInput

def PermissionOutcome.ofDecision (decision : PermissionDecision) :
    PermissionOutcome where
  behavior := decision.behavior
  message := decision.message
  updatedInput := decision.updatedInput

/-- The part of a hook result the engine reads. -/
structure HookEffect where
  updatedInput : Option ToolInput := none
  continueExecution : Bool := true

/-- What the engine reads of the context of a call, each value as the text
it stands for. -/
structure RuntimeContext where
  sessionId : String
  turnId : Option String := none
  permissionContext : Option PermissionContext := none
  metadataScopes : List String := []
  agentName : Option String := none
  querySource : Option String := none
  spawnMode : Option String := none
  delegationDepth : Option String := none

-- ============ matching

def matchesSelector (candidates : List String) (selector : String) : Bool :=
  if selector = "*" then true
  else if selector.toList.any fun c => c ∈ ['*', '?', '[', ']'] then
    candidates.any fun candidate => fnmatch candidate selector
  else
    candidates.any fun candidate => candidate = selector

def PermissionRule.matches (rule : PermissionRule)
    (request : PermissionRequest)
    (snapshot : PermissionRequestMatchSnapshot) : Bool :=
  (match rule.target with
    | some target => target = request.target
    | none => true)
  && matchesSelector snapshot.candidateNames rule.selector
  && (rule.scopes.isEmpty
    || rule.scopes.any fun scope => matchesSelector snapshot.scopes scope)
  && (rule.riskLevels.isEmpty
    || (match snapshot.riskLevel with
      | some level => level ∈ rule.riskLevels
      | none => false))
  && (rule.operations.isEmpty
    || (match snapshot.operation with
      | some operation =>
        rule.operations.any fun pattern => fnmatch operation pattern
      | none => false))
  && (rule.tags.isEmpty
    || rule.tags.any fun tag => matchesSelector snapshot.tags tag)
  && (match rule.readOnly with
    | some readOnly => snapshot.readOnly = some readOnly
    | none => true)

/-- `_evaluate_policy`: the decision of a layer, with its message. The last
rule that matches wins. -/
def evaluatePolicy (policy : PermissionPolicy) (request : PermissionRequest)
    (snapshot : PermissionRequestMatchSnapshot) :
    Option (PermissionBehavior × Option String) :=
  match policy.rules.reverse.find? fun rule =>
      rule.matches request snapshot with
  | some winner => some (winner.behavior, winner.message)
  | none =>
    policy.fallbackBehavior.map fun behavior =>
      (behavior, policy.fallbackMessage)

def resolvedPolicies (context : PermissionContext) :
    List PermissionPolicy :=
  if context.rules = [] then context.policies
  else context.policies ++ [{ rules := context.rules }]

/-- `_apply_policy_stack`: the last layer that decides wins. -/
def applyPolicyStack (context : PermissionContext)
    (request : PermissionRequest)
    (snapshot : PermissionRequestMatchSnapshot) (payload : ToolInput)
    (baseOutcome : PermissionOutcome) : PermissionOutcome :=
  match (resolvedPolicies context).reverse.findSome? fun policy =>
      evaluatePolicy policy request snapshot with
  | none => { baseOutcome with updatedInput := some payload }
  | some (behavior, message) =>
    { behavior := behavior
      message :=
        if message = none ∧ behavior = baseOutcome.behavior then
          baseOutcome.message
        else message
      updatedInput := some payload }

-- ============ snapshot

/-- The scopes a request has whatever its payload is. -/
def contextScopes (request : PermissionRequest)
    (permissionContext : PermissionContext) (context : RuntimeContext) :
    List String :=
  [request.target.value, "target:" ++ request.target.value, "session",
    "session:" ++ request.sessionId, "name:" ++ request.name]
  ++ (request.turnId.map fun turn => ["turn", "turn:" ++ turn]).getD []
  ++ permissionContext.policyScopes ++ context.metadataScopes
  ++ (context.agentName.map fun name => "agent:" ++ name).toList
  ++ (context.querySource.map fun source => "query:" ++ source).toList
  ++ (context.spawnMode.map fun mode => "spawn:" ++ mode).toList
  ++ (context.delegationDepth.map fun depth =>
      ["delegation-depth:" ++ depth,
        if depth ≠ "0" then "delegated" else "root"]).getD []

/-- `tuple(sorted(set(scopes)))`. -/
def sortedScopes (scopes : List String) : List String :=
  scopes.dedup.mergeSort fun a b => decide (a ≤ b)

def buildRequestSnapshot (request : PermissionRequest)
    (permissionContext : PermissionContext) (context : RuntimeContext) :
    Except String PermissionRequestMatchSnapshot := do
  let scopes := contextScopes request permissionContext context
  match request.target, request.definition with
  | .tool, some definition =>
    let readOnly ← (executionSemantics definition).isReadOnly
      request.payload
    let classifierInput ←
      (executionSemantics definition).toClassifierInput request.payload
    let targets := (classifierInput.map fun input =>
      input.targetPaths.map (fun path => "path:" ++ path)
        ++ input.targetUrls.map fun url => "url:" ++ url).getD []
    return { target := request.target
             name := request.name
             candidateNames := (request.name :: definition.aliases).eraseDups
             scopes := sortedScopes (scopes ++ targets)
             riskLevel := classifierInput.map (·.riskLevel)
             operation := classifierInput.map (·.operation)
             readOnly := some readOnly
             tags := (classifierInput.map (·.tags)).getD [] }
  | _, _ =>
    return { target := request.target
             name := request.name
             candidateNames := [request.name]
             scopes := sortedScopes scopes
             riskLevel := none
             operation := none
             readOnly := none
             tags := [] }

-- ========== evaluation

/-- What an evaluation did: the snapshots the policy stack was applied to,
and the payloads a host was asked about. -/
structure PermissionTrace where
  snapshots : List PermissionRequestMatchSnapshot := []
  asked : List ToolInput := []
  deriving Repr

structure PermissionEngine where
  defaultMode : PermissionMode := .default
  defaultRules : List PermissionRule := []
  defaultPolicies : List PermissionPolicy := []
  /-- `host_runtime.request_permission`, where there is one. -/
  requestPermission :
    Option (ToolInput → Except String (Option PermissionOutcome)) := none

namespace PermissionEngine

variable (engine : PermissionEngine)

def resolveContext : Option PermissionContext → PermissionContext
  | some context =>
    { context with
      rules := if context.rules = [] then engine.defaultRules
        else context.rules
      policies := engine.defaultPolicies ++ context.policies }
  | none =>
    { mode := engine.defaultMode, rules := engine.defaultRules
      policies := engine.defaultPolicies }

/-- The end of `evaluate`, where the policy stack leaves it at asking. -/
def askHost (mode : PermissionMode) (outcome : PermissionOutcome)
    (payload : ToolInput) :
    Method PermissionTrace String PermissionOutcome :=
  if mode = .bubble then
    pure { behavior := .ask
           message := orDefault outcome.message
             "Permission request bubbled to caller"
           updatedInput := some payload }
  else
    match engine.requestPermission with
    | none =>
      pure { behavior := .deny
             message := orDefault outcome.message "Permission required"
             updatedInput := some payload }
    | some request => do
      Method.write fun trace =>
        { trace with asked := trace.asked ++ [payload] }
      let hostOutcome ← Method.lift (request payload)
      let resolved := coercePermissionOutcome hostOutcome
      pure { behavior := resolved.behavior
             message := resolved.message
             updatedInput := some (resolved.updatedInput.getD payload) }

/-- `evaluate`, past the snapshot. -/
def decideRequest (permissionContext : PermissionContext)
    (request : PermissionRequest) (payload : ToolInput)
    (snapshot : PermissionRequestMatchSnapshot)
    (baseOutcome : PermissionOutcome) :
    Method PermissionTrace String PermissionOutcome := do
  if permissionContext.mode = .bypassPermissions then
    pure { behavior := .allow, updatedInput := some payload }
  else
    Method.write fun trace =>
      { trace with snapshots := trace.snapshots ++ [snapshot] }
    let outcome := applyPolicyStack permissionContext request snapshot payload
      baseOutcome
    if outcome.behavior = .ask ∧ permissionContext.mode = .dontAsk then
      pure { behavior := .deny
             message := orDefault outcome.message
               "Interactive permission prompts are disabled"
             updatedInput := some payload }
    else if outcome.behavior ≠ .ask then
      pure outcome
    else
      engine.askHost permissionContext.mode outcome payload

/-- The payload `evaluate` starts from: what the decision so far or the
request has, and in its place what a pending hook has. -/
def startPayload (request : PermissionRequest) (outcome : PermissionOutcome)
    (hookResult : Option HookEffect) : ToolInput :=
  (hookResult.bind HookEffect.updatedInput).getD
    (orInput outcome.updatedInput request.payload)

def evaluate (request : PermissionRequest)
    (requestContext : Option PermissionContext)
    (initialDecision : PermissionOutcome) (hookResult : Option HookEffect)
    (context : RuntimeContext) :
    Method PermissionTrace String PermissionOutcome := do
  let permissionContext := engine.resolveContext requestContext
  let payload := startPayload request initialDecision hookResult
  if hookResult.any fun hook => !hook.continueExecution then
    pure { behavior := .deny
           message := "Execution blocked by runtime hook"
           updatedInput := some payload }
  else
    let snapshot ← Method.lift
      (buildRequestSnapshot request permissionContext context)
    engine.decideRequest permissionContext request payload snapshot initialDecision

def toolRequest (definition : Tool) (toolInput : ToolInput)
    (context : RuntimeContext) : PermissionRequest where
  sessionId := context.sessionId
  turnId := context.turnId
  target := .tool
  name := definition.name
  payload := toolInput
  definition := some definition

def authorize (definition : Tool) (toolInput : ToolInput)
    (decision : PermissionDecision) (pendingHookEffect : Option HookEffect)
    (context : RuntimeContext) :
    Method PermissionTrace String PermissionDecision := do
  let outcome ← engine.evaluate (toolRequest definition toolInput context)
    context.permissionContext (.ofDecision decision) pendingHookEffect
    context
  pure outcome.toDecision

end PermissionEngine

end WeaveRuntime.Permissions
