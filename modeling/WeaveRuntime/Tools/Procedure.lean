/-
The two ways a tool call is executed.

`executeToolCall` (tool_runtime.py) does everything in one `try` block:
check the input against the schema, validate it, dispatch the pre-tool
hook, ask for permission, run the tool, dispatch the post-tool hook. What
any of these raises becomes an error result, after a dispatch of the
failure hook that is itself outside of any handler.

The resolved way does it in two halves. `resolveToolCall`
(tool_resolution.py) goes up to the permission and resolves the semantics
of the call; of all its steps only the schema check is inside a handler.
`runResolvedToolCall` (tool_runtime.py, `execute_resolved_tool_call`) runs
the tool, and `observeToolCall` is what the orchestrator does with a single
call, from its observation to its outcome.

A `CallLog` records what a call did besides returning: what the permission
service saw, and which definition was executed on which input.
-/
import WeaveRuntime.Permissions.Engine
import WeaveRuntime.Tools.Orchestration

namespace WeaveRuntime.Tools

open Lib
open Permissions (HookEffect PermissionTrace)

-- ============= context

/-- The services behind a call: the dispatches of its hooks, and the
permission service. -/
structure RuntimeServices where
  preToolUse : String → ToolInput → Except String HookEffect
  postToolUse : String → ToolInput → RawOutput → Except String HookEffect
  postToolUseFailure : String → ToolInput → String → Except String Unit
  authorize : Tool → ToolInput → PermissionDecision → HookEffect →
    Method PermissionTrace String PermissionDecision

/-- The context of a call that is not interrupted. -/
structure ToolContext where
  toolRegistry : Registries.ToolRegistry ToolCallables
  toolPool : List Tool := []
  runtimeServices : Option RuntimeServices := none
  permissionHandler :
    Option (Tool → ToolInput → PermissionDecision →
      Except String PermissionDecision) := none
  /-- `FileState.conflict_key`. -/
  conflictKey : String → Option String := some

structure CallLog where
  permissions : PermissionTrace := {}
  executed : List (Tool × ToolInput) := []

/-- What a method of the permission service does is part of the log. -/
def CallLog.permitted {α : Type} (m : Method PermissionTrace String α) :
    Method CallLog String α :=
  Method.within CallLog.permissions
    (fun log trace => { log with permissions := trace }) id m

/-- The permission handler of a context stands for a host. -/
def CallLog.askedHandler (toolInput : ToolInput) :
    Method CallLog String Unit :=
  CallLog.permitted (Method.write fun trace =>
    { trace with asked := trace.asked ++ [toolInput] })

def CallLog.invoked (definition : Tool) (toolInput : ToolInput) :
    Method CallLog String Unit :=
  Method.write fun log =>
    { log with executed := log.executed ++ [(definition, toolInput)] }

section Context

variable (context : ToolContext)

def dispatchPreToolUse (definition : Tool) (toolInput : ToolInput) :
    Except String HookEffect :=
  match context.runtimeServices with
  | none => .ok {}
  | some services => services.preToolUse definition.name toolInput

def dispatchPostToolUse (definition : Tool) (toolInput : ToolInput)
    (toolResult : RawOutput) : Except String HookEffect :=
  match context.runtimeServices with
  | none => .ok {}
  | some services =>
    services.postToolUse definition.name toolInput toolResult

def dispatchPostToolUseFailure (definition : Tool) (toolInput : ToolInput)
    (message : String) : Except String Unit :=
  match context.runtimeServices with
  | none => .ok ()
  | some services =>
    services.postToolUseFailure definition.name toolInput message

def toolAvailableInPool (name : String) (pool : List Tool) : Bool :=
  pool.any fun definition => definition.matches name

def gateDenies (name : String) : Bool :=
  !context.toolPool.isEmpty && !toolAvailableInPool name context.toolPool

inductive InputValidation where
  | invalid (message : Option String)
  | valid (toolInput : ToolInput)

def validateInput (definition : Tool) (toolInput : ToolInput) :
    Except String InputValidation :=
  match definition.body.validateInput with
  | none => .ok (.valid toolInput)
  | some validator => do
    let validation ← validator toolInput
    if !validation.valid then
      return .invalid validation.message
    return .valid (validation.updatedInput.getD toolInput)

def checkPermissions (definition : Tool) (toolInput : ToolInput) :
    Except String PermissionDecision :=
  match definition.body.checkPermissions with
  | none => .ok { behavior := .allow }
  | some checker => checker toolInput

-- ====== the direct way

section Direct

variable (definition : Tool) (callId : String)

def directResult (status : ToolCallStatus) (error : String) :
    ToolCallResult :=
  { callId := callId, toolName := definition.name, status := status
    error := .str error }

def executePermitted (decision : PermissionDecision)
    (toolInput : ToolInput) : Method CallLog String ToolCallResult :=
  if decision.behavior ≠ .allow then
    pure (directResult definition callId .denied
      (orDefault decision.message "Tool use denied"))
  else
    match definition.body.execute with
    | none =>
      pure (directResult definition callId .error
        ("Tool '" ++ definition.name ++ "' has no execution handler"))
    | some execute => do
      CallLog.invoked definition toolInput
      let rawOutput ← Method.lift (execute toolInput)
      let postToolHook ← Method.lift
        (dispatchPostToolUse context definition toolInput rawOutput)
      if !postToolHook.continueExecution then
        pure (directResult definition callId .denied
          "Tool result blocked by runtime hook")
      else
        pure (mapToolOutput definition.name callId rawOutput)

def executeChecked (hook : HookEffect) (toolInput : ToolInput) :
    Method CallLog String ToolCallResult := do
  let decision ← Method.lift (checkPermissions definition toolInput)
  let toolInput := orInput decision.updatedInput toolInput
  match context.runtimeServices with
  | some services => do
    let decision ← CallLog.permitted
      (services.authorize definition toolInput decision hook)
    executePermitted context definition callId decision
      (orInput decision.updatedInput toolInput)
  | none =>
    if decision.behavior = .ask then
      match context.permissionHandler with
      | none =>
        pure (directResult definition callId .denied
          (orDefault decision.message "Permission required"))
      | some permissionHandler => do
        CallLog.askedHandler toolInput
        let decision ← Method.lift
          (permissionHandler definition toolInput decision)
        executePermitted context definition callId decision
          (orInput decision.updatedInput toolInput)
    else
      executePermitted context definition callId decision toolInput

def executeBody (toolInput : ToolInput) :
    Method CallLog String ToolCallResult := do
  let toolInput ← Method.lift
    (definition.body.validateInputSchema toolInput)
  let validation ← Method.lift (validateInput definition toolInput)
  match validation with
  | .invalid message =>
    pure (directResult definition callId .error
      (orDefault message "Tool input validation failed"))
  | .valid toolInput => do
    let hook ← Method.lift
      (dispatchPreToolUse context definition toolInput)
    let toolInput := hook.updatedInput.getD toolInput
    if !hook.continueExecution then
      pure (directResult definition callId .denied
        "Tool use blocked by runtime hook")
    else
      executeChecked context definition callId hook toolInput

def executeToolCall (toolInput : ToolInput) :
    Method CallLog String ToolCallResult :=
  Method.tryExcept (executeBody context definition callId toolInput)
    fun message => do
      Method.lift
        (dispatchPostToolUseFailure context definition toolInput message)
      pure (directResult definition callId .error message)

end Direct

def runSingle (callId toolName : String) (toolInput : ToolInput) :
    Method CallLog String ToolCallResult :=
  match context.toolRegistry.get toolName with
  | none =>
    pure { callId := callId, toolName := toolName, status := .error
           error := .str ("Unknown tool: " ++ toolName) }
  | some definition =>
    if gateDenies context toolName then
      pure { callId := callId, toolName := toolName, status := .denied
             error := .str ("Tool '" ++ toolName
               ++ "' is not available in the current execution policy") }
    else
      executeToolCall context definition callId toolInput

-- ==== the resolved way

/-- A resolved call with the definition it refers to and the input it is
to be executed on. -/
structure PreparedCall extends ResolvedToolCall where
  definition : Option Tool
  executionInput : Option ToolInput

/-- The part of a definition the boundary reads. -/
def definitionRef (definition : Tool) : ToolDefinition where
  name := definition.name
  hasExecute := definition.body.execute.isSome
  interruptBehavior := definition.body.traits.interruptBehavior

section Resolved

variable (envelope : ToolCallEnvelope) (canonicalToolName : String)
  (definition : Tool)

/-- A resolution that finds no definition. -/
def unknownCall (canonicalToolName : Option String) : PreparedCall where
  envelope := envelope
  resolutionStatus := .invalid
  canonicalToolName := canonicalToolName
  toolDefinition := none
  resolvedSemantics := none
  permissionDecision := none
  schedulerLane := none
  replayIndex := envelope.sequenceIndex
  definition := none
  executionInput := none

def resolvedCall (status : ToolResolutionStatus)
    (semantics : Option ResolvedToolExecutionSemantics)
    (permission : Option ResolvedPermissionDecision)
    (executionInput : Option ToolInput) : PreparedCall where
  envelope := envelope
  resolutionStatus := status
  canonicalToolName := some canonicalToolName
  toolDefinition := some (definitionRef definition)
  resolvedSemantics := semantics
  permissionDecision := permission
  schedulerLane := none
  replayIndex := envelope.sequenceIndex
  definition := some definition
  executionInput := executionInput

def invalidCall : PreparedCall :=
  resolvedCall envelope canonicalToolName definition .invalid none none none

def deniedCall (status : ToolCallStatus) (message : String)
    (executionInput : Option ToolInput) : PreparedCall :=
  resolvedCall envelope canonicalToolName definition .denied none
    (some (.denied status message)) executionInput

def deniedStatus (behavior : PermissionBehavior) : ToolCallStatus :=
  if behavior = .ask then .cancelled else .denied

def resolvePermitted (decision : PermissionDecision)
    (toolInput : ToolInput) : Method CallLog String PreparedCall :=
  if decision.behavior ≠ .allow then
    pure (deniedCall envelope canonicalToolName definition
      (deniedStatus decision.behavior)
      (orDefault decision.message "Tool use denied") (some toolInput))
  else do
    let semantics ← Method.lift
      (resolveExecutionSemantics definition toolInput)
    pure (resolvedCall envelope canonicalToolName definition .executable
      (some semantics) (some .allowed) (some toolInput))

def resolveChecked (hook : HookEffect) (toolInput : ToolInput) :
    Method CallLog String PreparedCall := do
  let decision ← Method.lift (checkPermissions definition toolInput)
  let toolInput := orInput decision.updatedInput toolInput
  match context.runtimeServices with
  | some services => do
    let decision ← CallLog.permitted
      (services.authorize definition toolInput decision hook)
    resolvePermitted envelope canonicalToolName definition decision
      (orInput decision.updatedInput toolInput)
  | none =>
    if decision.behavior = .ask then
      match context.permissionHandler with
      | none =>
        resolvePermitted envelope canonicalToolName definition
          { behavior := .deny
            message := orDefault decision.message "Permission required"
            updatedInput := some toolInput } toolInput
      | some permissionHandler => do
        CallLog.askedHandler toolInput
        let decision ← Method.lift
          (permissionHandler definition toolInput decision)
        resolvePermitted envelope canonicalToolName definition decision
          (orInput decision.updatedInput toolInput)
    else
      resolvePermitted envelope canonicalToolName definition decision
        toolInput

/-- `resolve_tool_call` once the definition is found and the gate is
passed. -/
def resolveDefinition (toolInput : ToolInput) :
    Method CallLog String PreparedCall :=
  match definition.body.validateInputSchema toolInput with
  | .error _ => pure (invalidCall envelope canonicalToolName definition)
  | .ok toolInput => do
    let validation ← Method.lift (validateInput definition toolInput)
    match validation with
    | .invalid _ =>
      pure (invalidCall envelope canonicalToolName definition)
    | .valid toolInput => do
      let hook ← Method.lift
        (dispatchPreToolUse context definition toolInput)
      let toolInput := hook.updatedInput.getD toolInput
      if !hook.continueExecution then
        pure (deniedCall envelope canonicalToolName definition .denied
          "Tool use blocked by runtime hook" none)
      else
        resolveChecked context envelope canonicalToolName definition hook
          toolInput

def resolveAlias (pool : List Tool) (name : String) : Option String :=
  if pool.any fun definition => definition.name = name then some name
  else
    (pool.find? fun definition => definition.aliases.contains name).map
      (·.name)

def resolveCanonicalToolName (name : String) : Option String :=
  match context.toolRegistry.get name with
  | some definition => some definition.name
  | none => resolveAlias context.toolPool name

def resolveToolCall (toolInput : ToolInput) :
    Method CallLog String PreparedCall :=
  match resolveCanonicalToolName context envelope.rawToolName with
  | none => pure (unknownCall envelope none)
  | some canonicalToolName =>
    match context.toolRegistry.get canonicalToolName with
    | none => pure (unknownCall envelope (some canonicalToolName))
    | some definition =>
      if gateDenies context envelope.rawToolName then
        pure (deniedCall envelope canonicalToolName definition .denied
          ("Tool '" ++ envelope.rawToolName
            ++ "' is not available in the current execution policy")
          none)
      else
        resolveDefinition context envelope canonicalToolName definition
          toolInput

end Resolved

-- ===== its second half

def runResolvedBody (call : PreparedCall) (definition : Tool)
    (toolInput : ToolInput) : Method CallLog String ToolCallResult :=
  match definition.body.execute with
  | none =>
    pure (directResult definition call.toolUseId .error
      ("Tool '" ++ definition.name ++ "' has no execution handler"))
  | some execute => do
    CallLog.invoked definition toolInput
    let rawOutput ← Method.lift (execute toolInput)
    let postToolHook ← Method.lift
      (dispatchPostToolUse context definition toolInput rawOutput)
    if !postToolHook.continueExecution then
      pure (directResult definition call.toolUseId .denied
        "Tool result blocked by runtime hook")
    else
      pure (mapToolOutput definition.name call.toolUseId rawOutput)

def runResolvedToolCall (call : PreparedCall) :
    Method CallLog String ToolCallResult :=
  match call.definition with
  | none =>
    pure { callId := call.toolUseId, toolName := call.displayName
           status := .error
           error := .str "Resolved tool call is missing a definition" }
  | some definition =>
    let toolInput := call.executionInput.getD []
    Method.tryExcept (runResolvedBody context call definition toolInput)
      fun message => do
        Method.lift
          (dispatchPostToolUseFailure context definition toolInput message)
        pure (directResult definition call.toolUseId .error message)

/-- The task of `_run_scheduled_call`, of a call that waits for no other:
its outcome, or none where an exception leaves the task. -/
def runScheduledCall (call : PreparedCall) :
    Method CallLog String (Option ToolOutcome) :=
  Method.tryExcept
    (do
      let executed ← runResolvedToolCall context call
      pure (buildOutcome context.conflictKey call.toResolvedToolCall
        executed 0).1)
    fun _ => pure none

/-- `observe_tool_call` past the resolution, and the task it schedules. -/
def scheduleCall (call : PreparedCall) :
    Method CallLog String (Option ToolOutcome) :=
  match deriveLane context.conflictKey call.toResolvedToolCall with
  | none => Method.raise "conflict key"
  | some lane =>
    if call.resolutionStatus ≠ .executable then
      pure (some (syntheticOutcome
        { call.toResolvedToolCall with schedulerLane := lane } 0))
    else
      runScheduledCall context { call with schedulerLane := lane }

/-- `observe_tool_call` of a single call, and the task it schedules: the
outcome that is recorded, if one is. -/
def observeToolCall (envelope : ToolCallEnvelope) (toolInput : ToolInput) :
    Method CallLog String (Option ToolOutcome) := do
  let call ← resolveToolCall context envelope toolInput
  scheduleCall context call

end Context

end WeaveRuntime.Tools
