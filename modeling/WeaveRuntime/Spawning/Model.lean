/-
Child executions: how an agent or a skill starts another one.

A call into the runtime carries a metadata mapping. Where it is made from
inside an execution, that mapping is the runtime context of the execution,
and the depth of the delegation travels in it under one key.
`withChildDelegationDepth` reads the depth of the caller and puts the
child's in its place; `buildExecutionSpec` reads it back into the spec, and
`buildRuntimeContext` writes the spec's over whatever the metadata had.

The executions of a runtime form a tree, grown by the actions of
`spawning`. What a nested call is given depends on where its parent is: an
execution that runs gives its runtime context, and one whose prompt was
taken as a route gives the call that the route stands for.
-/
import WeaveRuntime.Definitions
import WeaveRuntime.Lib.Dict
import WeaveRuntime.Lib.Method
import WeaveRuntime.Lib.System
import WeaveRuntime.Python.Value

namespace WeaveRuntime.Spawning

open Definitions (PermissionMode IsolationMode)
open Lib
open Lib.Method
open Python

/-- A metadata mapping; an object that the code passes on unread is known
by its text. -/
abbrev Metadata := Dict String PyVal

def updated (base : Metadata) (update : List (String × PyVal)) : Metadata :=
  update.foldl (fun d e => d.insert e.1 e.2) base

/-- `mapping.get(key)`, of a mapping of the user's. -/
def itemOf (items : List (PyKey × PyVal)) (key other : String) : PyVal :=
  ((lookupKey items key).or (lookupKey items other)).getD .none

def optionalText (text : Option String) : PyVal := (text.map .str).getD .none

-- ============== policy

inductive ChildResultProjectionMode where
  | summary | detailed
  deriving DecidableEq

structure DelegationPolicy where
  maxDepth : Nat
  childResultProjection : ChildResultProjectionMode
  summaryMaxChars : Nat

def defaultDelegationMaxDepth : Nat := 1

def defaultChildSummaryMaxChars : Nat := 2000

/-- What `int(str(value).strip())` gives, where it is asked for. -/
def coerceInt : PyVal → Option Int
  | .none => none
  | .bool _ => none
  | value => parseInt (pyStrip (pyStr value))

def coerceNonNegativeInt (value : PyVal) (default : Nat) : Nat :=
  ((coerceInt value).map Int.toNat).getD default

def coercePositiveInt (value : PyVal) (default : Nat) : Nat :=
  match coerceInt value with
  | some resolved => if 0 < resolved then resolved.toNat else default
  | none => default

/-- The words of a projection. No other character's lower case is a letter
of theirs. -/
def detailedWords : List String :=
  ["detailed", "detail", "messages", "full", "legacy"]

def summaryWords : List String :=
  ["summary", "summary_first", "summary-only", "summary_only"]

def coerceChildResultProjection (rawPolicy : List (PyKey × PyVal)) :
    ChildResultProjectionMode :=
  let explicit :=
    match itemOf rawPolicy "child_result_projection" "result_projection" with
    | .none => (lookupKey rawPolicy "projection").getD .none
    | value => value
  let normalized := (pyStrip (pyStr explicit)).toLower
  let included := ((lookupKey rawPolicy "include_child_messages").or
    ((lookupKey rawPolicy "include_messages").or
      (lookupKey rawPolicy "detailed_child_results"))).getD .none
  let fallback : ChildResultProjectionMode :=
    match included with
    | .bool true => .detailed
    | _ => .summary
  match explicit with
  | .none => fallback
  | _ =>
    if normalized ∈ detailedWords then .detailed
    else if normalized ∈ summaryWords then .summary
    else fallback

def resolveDelegationPolicy (metadata : Metadata) : DelegationPolicy :=
  let rawPolicy :=
    match metadata.get? "delegation" with
    | some (.dict items) => items
    | _ => []
  { maxDepth := coerceNonNegativeInt
      (itemOf rawPolicy "max_depth" "max_child_depth")
      defaultDelegationMaxDepth
    childResultProjection := coerceChildResultProjection rawPolicy
    summaryMaxChars := coercePositiveInt
      (itemOf rawPolicy "summary_max_chars" "summary_max_length")
      defaultChildSummaryMaxChars }

def delegationDepthFromMetadata (metadata : Metadata) : Nat :=
  coerceNonNegativeInt
    (((metadata.get? "delegation_depth").or
      (metadata.get? "child_delegation_depth")).getD .none) 0

-- ========= invocations

inductive SpawnMode where
  | sync | background | fork | teammate
  deriving DecidableEq

def SpawnMode.value : SpawnMode → String
  | .sync => "sync"
  | .background => "background"
  | .fork => "fork"
  | .teammate => "teammate"

/-- What a call to start something raises. -/
inductive SpawnError where
  | keyError (name : String)
  | permissionError (message : String)
  | valueError
  | delegation (currentDepth attemptedDepth maxDepth : Nat)
    (childLabel querySource spawnMode : Option String)
  deriving DecidableEq

def SpawnError.message : SpawnError → String
  | .keyError name => Python.reprStr name
  | .permissionError message => message
  | .valueError => "not enough values to unpack (expected 2, got 1)"
  | .delegation current attempted bound label _ _ =>
    "delegation_depth_exceeded: delegation depth " ++ toString current
      ++ " has reached max_depth " ++ toString bound
      ++ "; cannot spawn child depth " ++ toString attempted
      ++ match orText label none with
        | some label => " for '" ++ label ++ "'"
        | none => ""

/-- An agent, as far as its start depends on it. -/
structure AgentDefinition where
  name : String
  background : Bool
  deriving DecidableEq

/-- A skill, as far as its start depends on it. -/
structure SkillDefinition where
  name : String
  forks : Bool
  agent : Option String
  model : Option String
  effort : PyVal
  hooks : PyVal

/-- What the runtime is assembled with. -/
structure Services where
  metadata : Metadata
  agentRegistry : Dict String AgentDefinition
  skillRegistry : Dict String SkillDefinition

def Services.resolveAgent (services : Services) (name : String) :
    Except SpawnError AgentDefinition :=
  orRaise (services.agentRegistry.get? name) (.keyError name)

structure AgentInvocation where
  agentName : String
  prompt : String
  sessionId : String
  background : Bool := false
  querySource : Option String := none
  spawnMode : Option SpawnMode := none
  parentRunId : Option String := none
  parentTurnId : Option String := none
  requestedModelRoute : Option String := none
  requestedModel : Option String := none
  requestedEffort : PyVal := .none
  requestedPermissionMode : Option PermissionMode := none
  requestedIsolation : Option IsolationMode := none
  maxTurns : Option Int := none
  metadata : Metadata

def textAt (metadata : Metadata) (key : String) : Option String :=
  coerceOptionalString ((metadata.get? key).getD .none)

def AgentInvocation.requestsChildExecution (invocation : AgentInvocation) :
    Bool :=
  invocation.parentRunId.isSome || invocation.parentTurnId.isSome
    || (textAt invocation.metadata "run_id").isSome
    || invocation.querySource == some "agent_tool"
    || invocation.querySource == some "skill_fork"
    || invocation.querySource == some "compat_agent_route"

def enforceChildDelegationAllowed (runtimeMetadata executionMetadata :
      Metadata) (childLabel querySource spawnMode : Option String) :
    Except SpawnError Nat :=
  let policy := resolveDelegationPolicy runtimeMetadata
  let currentDepth := delegationDepthFromMetadata executionMetadata
  let attemptedDepth := currentDepth + 1
  if policy.maxDepth ≤ currentDepth then
    .error (.delegation currentDepth attemptedDepth policy.maxDepth
      childLabel querySource spawnMode)
  else .ok attemptedDepth

def AgentInvocation.withDepth (invocation : AgentInvocation)
    (childDepth : Nat) : AgentInvocation :=
  { invocation with
    metadata :=
      invocation.metadata.insert "delegation_depth" (.int childDepth) }

def Services.withChildDelegationDepth (services : Services)
    (invocation : AgentInvocation) : Except SpawnError AgentInvocation :=
  if invocation.requestsChildExecution then do
    let childDepth ← enforceChildDelegationAllowed services.metadata
      invocation.metadata (some invocation.agentName) invocation.querySource
      (invocation.spawnMode.map SpawnMode.value)
    return invocation.withDepth childDepth
  else return invocation

-- ============== a spec

structure AgentExecutionSpec where
  runId : UuidHex
  parentRunId : Option String
  sessionId : String
  parentTurnId : Option String
  turnId : UuidHex
  agentName : String
  spawnMode : SpawnMode
  querySource : String
  prompt : String
  delegationDepth : Nat
  baseSystemPrompt : String
  requestedModelRoute : Option String
  requestedModel : Option String
  requestedEffort : PyVal
  requestedPermissionMode : Option PermissionMode
  requestedIsolation : Option IsolationMode
  maxTurns : Option Int
  background : Bool
  metadata : Metadata

/-- The ids that are drawn for a spec, and for the hooks of a skill. -/
structure FreshIds where
  runId : UuidHex
  turnId : UuidHex
  hookId : UuidHex

def resolveSpawnMode (invocation : AgentInvocation)
    (agent : AgentDefinition) (querySource : Option String) : SpawnMode :=
  match invocation.spawnMode with
  | some mode => mode
  | none =>
    if invocation.background || agent.background then .background
    else if querySource == some "skill_fork"
        || invocation.metadata.contains "skill_hook_owner" then .fork
    else .sync

def defaultQuerySource (invocation : AgentInvocation)
    (spawnMode : SpawnMode) : String :=
  if spawnMode = .background then "background_agent"
  else if spawnMode = .fork
      || invocation.metadata.contains "skill_hook_owner" then "skill_fork"
  else if ((invocation.metadata.get? "compat_route").getD .none).truthy then
    "compat_agent_route"
  else "agent_invocation"

def buildExecutionSpec (ids : FreshIds) (invocation : AgentInvocation)
    (agent : AgentDefinition) : AgentExecutionSpec :=
  let metadata := invocation.metadata
  let explicit := orText invocation.querySource
    (textAt metadata "query_source")
  let spawnMode := resolveSpawnMode invocation agent explicit
  { runId := ids.runId
    parentRunId := orText invocation.parentRunId (textAt metadata "run_id")
    sessionId := invocation.sessionId
    parentTurnId := orText invocation.parentTurnId
      (textAt metadata "turn_id")
    turnId := ids.turnId
    agentName := agent.name
    spawnMode := spawnMode
    querySource := explicit.getD (defaultQuerySource invocation spawnMode)
    prompt := invocation.prompt
    delegationDepth := delegationDepthFromMetadata metadata
    baseSystemPrompt := (textAt metadata "system_prompt").getD ""
    requestedModelRoute := orText invocation.requestedModelRoute
      (textAt metadata "requested_model_route")
    requestedModel := orText invocation.requestedModel
      (textAt metadata "requested_model")
    requestedEffort :=
      match invocation.requestedEffort with
      | .none => (metadata.get? "requested_effort").getD .none
      | effort => effort
    requestedPermissionMode := invocation.requestedPermissionMode
    requestedIsolation := invocation.requestedIsolation
    maxTurns := invocation.maxTurns
    background := spawnMode = .background
    metadata := metadata }

/-- What a run settles before its turn: the route of the model, the policy
and the isolation lease, as the runtime context shows them. -/
structure RunSettings where
  resolvedModelRoute : Option String
  providerName : Option String
  resolvedCapabilities : PyVal
  providerContextWindowProfiles : PyVal
  routeContextWindowPolicy : PyVal
  invocationMode : PyVal
  requestedPermissionMode : PyVal
  requestedIsolation : PyVal
  permissionContext : PyVal
  executionPolicyState : PyVal
  isolation : PyVal

/-- The entries of `_build_runtime_context` besides the metadata. -/
def runtimeContextEntries (spec : AgentExecutionSpec)
    (settings : RunSettings) : List (String × PyVal) :=
  [("agent_name", .str spec.agentName),
    ("background", .bool spec.background),
    ("run_id", .str spec.runId.text),
    ("parent_run_id", optionalText spec.parentRunId),
    ("session_id", .str spec.sessionId),
    ("turn_id", .str spec.turnId.text),
    ("parent_turn_id", optionalText spec.parentTurnId),
    ("spawn_mode", .str spec.spawnMode.value),
    ("query_source", .str spec.querySource),
    ("delegation_depth", .int spec.delegationDepth),
    ("requested_model_route", optionalText spec.requestedModelRoute),
    ("requested_model", optionalText spec.requestedModel),
    ("requested_effort", spec.requestedEffort),
    ("resolved_model_route", optionalText settings.resolvedModelRoute),
    ("provider_name", optionalText settings.providerName),
    ("resolved_capabilities", settings.resolvedCapabilities),
    ("provider_context_window_profiles",
      settings.providerContextWindowProfiles),
    ("route_context_window_policy", settings.routeContextWindowPolicy),
    ("invocation_mode", settings.invocationMode),
    ("requested_permission_mode", settings.requestedPermissionMode),
    ("requested_isolation", settings.requestedIsolation),
    ("max_turns", (spec.maxTurns.map .int).getD .none),
    ("permission_context", settings.permissionContext),
    ("execution_policy_state", settings.executionPolicyState),
    ("isolation", settings.isolation)]

def buildRuntimeContext (spec : AgentExecutionSpec)
    (settings : RunSettings) : Metadata :=
  updated spec.metadata (runtimeContextEntries spec settings)

-- ============== routes

/-- `text.split(" ", 1)`, where there is a space. -/
def splitOnce : List Char → Option (List Char × List Char)
  | [] => none
  | c :: cs =>
    if c = ' ' then some ([], cs)
    else (splitOnce cs).map fun e => (c :: e.1, e.2)

inductive CompatRoute where
  | none
  | tool
  | skill (skillName : String)
  | agent (agentName prompt : String)
  /-- no prompt after the name of the agent -/
  | malformed
  deriving DecidableEq

/-- What follows a word at the start of a text. -/
def afterWord (word : String) (text : List Char) : Option (List Char) :=
  if word.toList.isPrefixOf text then some (text.drop word.length) else none

/-- How `_try_compat_route` reads a prompt. -/
def compatRoute (prompt : String) : CompatRoute :=
  let stripped := (pyStrip prompt).toList
  match afterWord "/tool " stripped, afterWord "/skill " stripped,
    afterWord "/agent " stripped with
  | some _, _, _ => .tool
  | _, some remainder, _ =>
    .skill (String.ofList
      ((remainder.dropWhile isPySpace).takeWhile fun c => !isPySpace c))
  | _, _, some remainder =>
    match splitOnce remainder with
    | some (agentName, rest) =>
      .agent (String.ofList agentName) (String.ofList rest)
    | Option.none => .malformed
  | _, _, _ => .none

/-- A call of `SkillExecutor.execute`. -/
structure SkillCall where
  skillName : String
  sessionId : String
  turnId : Option String
  parentRunId : Option String
  runtimeMetadata : Metadata

/-- The nested call that a route stands for. -/
inductive RoutedCall where
  | agent (invocation : AgentInvocation)
  | skill (call : SkillCall)

/-- `_try_compat_route`, up to the call it makes; a tool route starts no
execution. -/
def tryCompatRoute (invocation : AgentInvocation)
    (spec : AgentExecutionSpec) :
    Except SpawnError (Option (Option RoutedCall)) :=
  match compatRoute invocation.prompt with
  | .none => .ok none
  | .tool => .ok (some none)
  | .malformed => .error .valueError
  | .skill skillName => .ok (some (some (.skill
      { skillName := skillName
        sessionId := invocation.sessionId
        turnId := some spec.turnId.text
        parentRunId := some spec.runId.text
        runtimeMetadata := invocation.metadata })))
  | .agent agentName prompt => .ok (some (some (.agent
      { agentName := agentName
        prompt := prompt
        sessionId := invocation.sessionId
        querySource := some "compat_agent_route"
        parentRunId := some spec.runId.text
        parentTurnId := some spec.turnId.text
        metadata :=
          invocation.metadata.insert "compat_route" (.bool true) })))

-- ============ the tree

inductive Stage where
  /-- handed to the execution service, or submitted as a job -/
  | dispatched
  /-- in its turn, with the context that nested calls are given -/
  | running (runtimeContext : Metadata)
  /-- its prompt was a route, and this call is to be made for it -/
  | routed (call : RoutedCall)
  | ended

structure Execution where
  parent : Option Nat
  spec : AgentExecutionSpec
  stage : Stage

/-- The executions there are, in the order in which they were started. -/
structure Tree where
  executions : List Execution

/-- A call that starts executions. -/
abbrev SpawnMethod := Method Tree SpawnError

/-- An execution is started. -/
def enter (execution : Execution) : SpawnMethod Unit :=
  write fun s => ⟨s.executions ++ [execution]⟩

def dispatch (parent : Option Nat) (invocation : AgentInvocation)
    (agent : AgentDefinition) (spec : AgentExecutionSpec) :
    SpawnMethod Unit :=
  if agent.name = "main-router" then do
    match ← lift (tryCompatRoute invocation spec) with
    | none => enter ⟨parent, spec, .dispatched⟩
    | some none => enter ⟨parent, spec, .ended⟩
    | some (some call) => enter ⟨parent, spec, .routed call⟩
  else enter ⟨parent, spec, .dispatched⟩

def invoke (services : Services) (ids : FreshIds) (parent : Option Nat)
    (invocation : AgentInvocation) : SpawnMethod Unit := do
  let agent ← lift (services.resolveAgent invocation.agentName)
  let invocation ← lift (services.withChildDelegationDepth invocation)
  dispatch parent invocation agent (buildExecutionSpec ids invocation agent)

def prepareExecution (services : Services) (ids : FreshIds)
    (invocation : AgentInvocation) :
    Except SpawnError (AgentDefinition × AgentExecutionSpec) := do
  let agent ← services.resolveAgent invocation.agentName
  let invocation ← services.withChildDelegationDepth invocation
  return (agent, buildExecutionSpec ids invocation agent)

/-- `prepare_execution`, and `dispatch_prepared` with the invocation that
was prepared. -/
def invokePrepared (services : Services) (ids : FreshIds)
    (parent : Option Nat) (invocation : AgentInvocation) :
    SpawnMethod Unit := do
  let prepared ← lift (prepareExecution services ids invocation)
  dispatch parent invocation prepared.1 prepared.2

/-- What `_authorize_skill` and `_expand_skill_content` come to, after the
policy check. -/
inductive SkillPreparation where
  | refused (error : SpawnError)
  | expanded (prompt : String) (permissionContext policyState policyTrace :
      PyVal)

def forkInvocation (ids : FreshIds) (skill : SkillDefinition)
    (call : SkillCall) (prompt : String) (permissionContext policyState
      policyTrace : PyVal) : AgentInvocation where
  agentName := (orText skill.agent none).getD "general-purpose"
  prompt := prompt
  sessionId := call.sessionId
  querySource := some "skill_fork"
  spawnMode := some .fork
  parentRunId := call.parentRunId
  parentTurnId := call.turnId
  requestedModel := skill.model
  requestedEffort := skill.effort
  metadata := updated .empty
    [("permission_context", permissionContext),
      ("execution_policy_state", policyState),
      ("delegation_depth",
        .int (delegationDepthFromMetadata call.runtimeMetadata)),
      ("skill_hooks", skill.hooks),
      ("skill_hook_owner",
        .str ("skill:" ++ skill.name ++ ":" ++ ids.hookId.text)),
      ("skill_policy_trace", policyTrace)]

def execute (services : Services) (ids : FreshIds) (parent : Option Nat)
    (call : SkillCall) (preparation : SkillPreparation) :
    SpawnMethod Unit := do
  let skill ← lift (orRaise (services.skillRegistry.get? call.skillName)
    (.keyError call.skillName))
  match preparation with
  | .refused error => raise error
  | .expanded prompt permissionContext policyState policyTrace =>
    if skill.forks then
      invoke services ids parent (forkInvocation ids skill call prompt
        permissionContext policyState policyTrace)
    else pure ()

-- ========== the system

/-- A call that is made from inside an execution. -/
inductive NestedCall where
  | invoke (invocation : AgentInvocation)
  | prepared (invocation : AgentInvocation)
  | skill (call : SkillCall) (preparation : SkillPreparation)

def NestedCall.run (services : Services) (ids : FreshIds) (parent : Nat)
    (runtimeContext : Metadata) : NestedCall → SpawnMethod Unit
  | .invoke invocation =>
    Spawning.invoke services ids (some parent)
      { invocation with metadata := runtimeContext }
  | .prepared invocation =>
    invokePrepared services ids (some parent)
      { invocation with metadata := runtimeContext }
  | .skill call preparation =>
    execute services ids (some parent)
      { call with runtimeMetadata := runtimeContext } preparation

def RoutedCall.run (services : Services) (ids : FreshIds) (parent : Nat)
    (preparation : SkillPreparation) : RoutedCall → SpawnMethod Unit
  | .agent invocation => invoke services ids (some parent) invocation
  | .skill call => execute services ids (some parent) call preparation

inductive SpawnAction where
  /-- a turn of a session, with a spec of its own -/
  | session (spec : AgentExecutionSpec)
  /-- a host calls the runtime -/
  | host (ids : FreshIds) (invocation : AgentInvocation)
  | hostPrepared (ids : FreshIds) (invocation : AgentInvocation)
  /-- an execution that was dispatched gets to its turn -/
  | start (place : Nat) (settings : RunSettings)
  /-- a call from inside an execution that runs -/
  | nested (place : Nat) (ids : FreshIds) (call : NestedCall)
  /-- the call that a route stands for -/
  | follow (place : Nat) (ids : FreshIds) (preparation : SkillPreparation)
  | finish (place : Nat)

/-- The execution at a place gets to another stage. -/
def Tree.place (s : Tree) (place : Nat) (stage : Stage) : Tree :=
  ⟨s.executions.modify place fun e => { e with stage := stage }⟩

/-- One action; a call that raises keeps what was started before. -/
def Tree.step (services : Services) (s : Tree) :
    SpawnAction → Option Tree
  | .session spec => some ⟨s.executions ++ [⟨none, spec, .dispatched⟩]⟩
  | .host ids invocation =>
    some ((invoke services ids none invocation).run s).2
  | .hostPrepared ids invocation =>
    some ((invokePrepared services ids none invocation).run s).2
  | .start place settings =>
    match s.executions[place]? with
    | some ⟨_, spec, .dispatched⟩ =>
      some (s.place place (.running (buildRuntimeContext spec settings)))
    | _ => none
  | .nested place ids call =>
    match s.executions[place]? with
    | some ⟨_, _, .running runtimeContext⟩ =>
      some ((call.run services ids place runtimeContext).run s).2
    | _ => none
  | .follow place ids preparation =>
    match s.executions[place]? with
    | some ⟨_, _, .routed call⟩ =>
      some ((call.run services ids place preparation).run
        (s.place place .ended)).2
    | _ => none
  | .finish place => some (s.place place .ended)

/-- The executions of a runtime. -/
def spawning (services : Services) : System Tree SpawnAction where
  step := Tree.step services

end WeaveRuntime.Spawning
