/-
The execution policy of a delegated run: the tools, skills, permissions,
memory and isolation that an agent or a skill starts out with, given those
of whoever starts it.

Both ways to set one up are here, for an agent (`resolveExecutionPolicy`)
and for a skill (`execute`), with their fallbacks for a caller that has no
policy of its own, and so is the gate in front of a tool call that reads
the pool the policy ended up with.

A delegation is one step from a policy to the next: its pools, its state
and its permission context are what the next one is resolved from. Chains
of delegations are the runs of `delegation`.
-/
import Mathlib.Data.List.Basic
import WeaveRuntime.Definitions
import WeaveRuntime.Lib.Dict
import WeaveRuntime.Lib.System
import WeaveRuntime.Python.Fnmatch
import WeaveRuntime.Python.Value

namespace WeaveRuntime.Delegation

open Definitions
open Lib (Dict System)
open Python (PyVal)

-- ========== registries

structure ToolRegistry where
  entries : Dict String ToolDefinition
  aliases : Dict String String
  named : ∀ name tool, entries.get? name = some tool → tool.name = name

def ToolRegistry.definitions (r : ToolRegistry) : List ToolDefinition :=
  r.entries.values

def ToolRegistry.get (r : ToolRegistry) (name : String) :
    Option ToolDefinition :=
  match r.entries.get? name with
  | some direct => some direct
  | none => (r.aliases.get? name).bind r.entries.get?

/-- The skills by name, with those that were switched off. -/
structure SkillRegistry where
  entries : Dict String SkillDefinition
  activationOverrides : Dict String Bool
  named : ∀ name skill, entries.get? name = some skill → skill.name = name

def SkillRegistry.get (r : SkillRegistry) (name : String) :
    Option SkillDefinition := r.entries.get? name

def SkillRegistry.resolveActive (r : SkillRegistry) : List SkillDefinition :=
  r.entries.values.filter fun s =>
    (r.activationOverrides.get? s.name).getD true

-- ============ policies

/-- The policy code passes rules, policy layers and metadata on unread. -/
structure PermissionContext where
  sessionId : String
  mode : PermissionMode := .default
  rules : List PyVal := []
  policies : List PyVal := []
  metadata : PyVal := .dict []

structure ExecutionPolicy where
  toolPool : List ToolDefinition
  skillPool : List SkillDefinition
  permissionContext : PermissionContext
  effectivePermissionPolicies : List PyVal := []
  memoryScope : Option MemoryScope := none
  isolationMode : IsolationMode := .none

def memoryOrder : MemoryScope → Nat
  | .local => 0
  | .project => 1
  | .user => 2

def isolationOrder : IsolationMode → Nat
  | .none => 0
  | .worktree => 1
  | .remote => 2

def narrowMemoryScope (parentScope requestedScope : Option MemoryScope) :
    Option MemoryScope :=
  match parentScope, requestedScope with
  | none, _ => requestedScope
  | some parent, none => some parent
  | some parent, some requested =>
    if memoryOrder parent ≤ memoryOrder requested then some parent
    else some requested

def narrowIsolationMode (parentMode requestedMode : Option IsolationMode) :
    IsolationMode :=
  let resolvedParent := parentMode.getD .none
  let resolvedRequested := requestedMode.getD .none
  if isolationOrder resolvedRequested ≤ isolationOrder resolvedParent then
    resolvedParent
  else resolvedRequested

def defaultPermissionModes : List PermissionMode :=
  [.default, .auto, .plan, .acceptEdits]

def narrowPermissionMode (parentMode : PermissionMode)
    (requestedMode : Option PermissionMode) : PermissionMode :=
  match requestedMode with
  | none => parentMode
  | some requested =>
    if parentMode = .bypassPermissions then requested
    else if parentMode ∈ defaultPermissionModes then
      if requested = .bypassPermissions then parentMode else requested
    else if parentMode = .bubble then
      if requested = .bubble ∨ requested = .dontAsk then requested
      else parentMode
    else if parentMode = .dontAsk then .dontAsk
    else if requested = parentMode then requested else parentMode

-- =============== pools

def matchesToolSelector (tool : ToolDefinition) (selector : String) : Bool :=
  if selector == "*" then true
  else if selector.toList.any fun c => ['*', '?', '[', ']'].contains c then
    (tool.name :: tool.aliases).any fun candidate =>
      Python.fnmatch candidate selector
  else tool.matches selector

/-- The tool is asked for and not ruled out; an empty list asks for all. -/
def selects (allowedTools disallowedTools : List String)
    (tool : ToolDefinition) : Bool :=
  (allowedTools.isEmpty || allowedTools.any (matchesToolSelector tool))
    && !disallowedTools.any (matchesToolSelector tool)

def byName (tools : List ToolDefinition) : Dict String ToolDefinition :=
  tools.foldl (fun d tool => d.insert tool.name tool) Dict.empty

def narrowToolPool (basePool : List ToolDefinition)
    (allowedTools disallowedTools : List String) : List ToolDefinition :=
  let selected := basePool.filter (selects allowedTools disallowedTools)
  (byName selected).values.mergeSort fun a b => decide (a.name ≤ b.name)

def resolveSkillPool (basePool : List SkillDefinition)
    (selectors : List String) : List SkillDefinition :=
  if selectors.isEmpty || selectors == ["*"] then basePool
  else basePool.filter fun skill => selectors.contains skill.name

def policyAllowsSkill (skillName : String) (pool : List SkillDefinition) :
    Bool := pool.any fun skill => skill.name == skillName

-- ============== agents

def resolveAgentExecutionPolicy (agent : AgentDefinition)
    (parentPolicy : Option ExecutionPolicy)
    (baseToolPool : List ToolDefinition)
    (baseSkillPool : List SkillDefinition)
    (permissionContext : PermissionContext) : ExecutionPolicy where
  toolPool := narrowToolPool baseToolPool agent.tools agent.disallowedTools
  skillPool := resolveSkillPool baseSkillPool agent.skills
  permissionContext :=
    { permissionContext with
      mode :=
        narrowPermissionMode permissionContext.mode agent.permissionMode }
  memoryScope :=
    narrowMemoryScope (parentPolicy.bind (·.memoryScope)) agent.memory
  isolationMode :=
    narrowIsolationMode (parentPolicy.map (·.isolationMode)) agent.isolation

/-- What resolution reads of the runtime. `resolvePolicies` is there where
the permission service is a `PermissionEngine`. -/
structure Services where
  toolRegistry : ToolRegistry
  skillRegistry : SkillRegistry
  resolvePolicies : Option (PermissionContext → List PyVal)

def withEffectivePermissionPolicies (services : Services)
    (policy : ExecutionPolicy) : ExecutionPolicy :=
  match services.resolvePolicies with
  | none => policy
  | some resolve =>
    { policy with
      effectivePermissionPolicies := resolve policy.permissionContext }

/-- The part of an invocation that carries the parent's policy. -/
structure AgentInvocation where
  sessionId : String
  parentToolPool : List ToolDefinition
  parentSkillPool : List SkillDefinition
  policyState : Option ExecutionPolicy
  permissionContext : Option PermissionContext

/-- What an execution spec asks for in the definition's place. -/
structure AgentExecutionSpec where
  requestedPermissionMode : Option PermissionMode
  requestedIsolation : Option IsolationMode

def applyExecutionOverrides (agent : AgentDefinition)
    (executionSpec : Option AgentExecutionSpec) : AgentDefinition :=
  match executionSpec with
  | none => agent
  | some spec =>
    { agent with
      permissionMode := spec.requestedPermissionMode.or agent.permissionMode
      isolation := spec.requestedIsolation.or agent.isolation }

/-- The pool the caller gives, unless it is empty. -/
def givenOr {α : Type} (given fallback : List α) : List α :=
  if given.isEmpty then fallback else given

def resolveExecutionPolicy (services : Services)
    (invocation : AgentInvocation) (agent : AgentDefinition)
    (executionSpec : Option AgentExecutionSpec) : ExecutionPolicy :=
  let policyAgent := applyExecutionOverrides agent executionSpec
  let parentPolicy := invocation.policyState
  let baseToolPool := givenOr invocation.parentToolPool
    (match parentPolicy with
    | some policy => policy.toolPool
    | none => services.toolRegistry.definitions)
  let baseSkillPool := givenOr invocation.parentSkillPool
    (match parentPolicy with
    | some policy => policy.skillPool
    | none => services.skillRegistry.resolveActive)
  let permissionContext := invocation.permissionContext.getD
    (match parentPolicy with
    | some policy => policy.permissionContext
    | none => { sessionId := invocation.sessionId })
  withEffectivePermissionPolicies services
    (resolveAgentExecutionPolicy policyAgent parentPolicy baseToolPool
      baseSkillPool permissionContext)

-- ============== skills

def resolveSkillExecutionPolicy (skill : SkillDefinition)
    (parentPolicy : Option ExecutionPolicy)
    (baseToolPool : List ToolDefinition)
    (baseSkillPool : List SkillDefinition)
    (permissionContext : PermissionContext) : ExecutionPolicy where
  toolPool := narrowToolPool baseToolPool skill.allowedTools []
  skillPool := baseSkillPool
  permissionContext := permissionContext
  memoryScope := parentPolicy.bind (·.memoryScope)
  isolationMode := (parentPolicy.map (·.isolationMode)).getD .none

inductive SkillRefusal where
  | unknown (name : String)
  | notAvailable (name : String)
  | denied (name : String)
  deriving DecidableEq, Repr

def SkillRefusal.message : SkillRefusal → String
  | .unknown name => name
  | .notAvailable name =>
    "Skill '" ++ name ++ "' is not available in the current execution policy"
  | .denied name => "Skill '" ++ name ++ "' was denied"

/-- `_resolve_skill`: in the pool first. -/
def resolveSkill (services : Services) (skillName : String)
    (availableSkills : List SkillDefinition) : Option SkillDefinition :=
  (availableSkills.find? fun skill => skill.name == skillName).or
    (services.skillRegistry.get skillName)

/-- The policy a skill runs under, up to the permission service's verdict:
`SkillExecutor.execute`. -/
def execute (services : Services) (invocation : AgentInvocation)
    (skillName : String) (authorized : Bool) :
    Except SkillRefusal ExecutionPolicy :=
  let parentPolicy := invocation.policyState
  let availableSkills := givenOr invocation.parentSkillPool
    (match parentPolicy with
    | some policy => policy.skillPool
    | none => services.skillRegistry.resolveActive)
  match resolveSkill services skillName availableSkills with
  | none => .error (.unknown skillName)
  | some skill =>
    if (parentPolicy.isSome || !invocation.parentSkillPool.isEmpty)
        && !policyAllowsSkill skill.name availableSkills then
      .error (.notAvailable skill.name)
    else
      let permissionContext := invocation.permissionContext.getD
        (match parentPolicy with
        | some policy => policy.permissionContext
        | none => { sessionId := invocation.sessionId })
      let baseToolPool := givenOr invocation.parentToolPool
        (match parentPolicy with
        | some policy => policy.toolPool
        | none => services.toolRegistry.definitions)
      let resolvedPolicy := withEffectivePermissionPolicies services
        (resolveSkillExecutionPolicy skill parentPolicy baseToolPool
          availableSkills permissionContext)
      if authorized then .ok resolvedPolicy else .error (.denied skill.name)

-- ========== tool calls

def toolAvailableInPool (requestedName : String)
    (pool : List ToolDefinition) : Bool :=
  pool.any fun tool => tool.matches requestedName

def catalogName (pool : List ToolDefinition) (name : String) :
    Option String :=
  if pool.any fun tool => tool.name == name then some name
  else (pool.find? fun tool => tool.aliases.contains name).map (·.name)

def canonicalToolName (services : Services) (policy : ExecutionPolicy)
    (name : String) : Option String :=
  match services.toolRegistry.get name with
  | some tool => some tool.name
  | none => catalogName policy.toolPool name

/-- The tool a call resolves to, past the gate of the policy:
`resolve_tool_call` up to the input checks. -/
def resolveToolCall (services : Services) (policy : ExecutionPolicy)
    (rawToolName : String) : Option ToolDefinition :=
  match (canonicalToolName services policy rawToolName).bind
      services.toolRegistry.get with
  | none => none
  | some definition =>
    if !policy.toolPool.isEmpty
        && !toolAvailableInPool rawToolName policy.toolPool then none
    else some definition

-- ============== chains

/-- One delegation: to an agent, or to a skill. -/
inductive ChildExecution where
  | agent (agent : AgentDefinition)
    (executionSpec : Option AgentExecutionSpec)
  | skill (name : String) (authorized : Bool)

/-- What a policy gives on: all of it. -/
def ExecutionPolicy.invocation (policy : ExecutionPolicy) :
    AgentInvocation where
  sessionId := policy.permissionContext.sessionId
  parentToolPool := policy.toolPool
  parentSkillPool := policy.skillPool
  policyState := some policy
  permissionContext := some policy.permissionContext

/-- The policy below this one; a refused skill has none. -/
def delegate (services : Services) (policy : ExecutionPolicy) :
    ChildExecution → Option ExecutionPolicy
  | .agent agent executionSpec =>
    some (resolveExecutionPolicy services policy.invocation agent
      executionSpec)
  | .skill name authorized =>
    (execute services policy.invocation name authorized).toOption

/-- Chains of delegations. -/
def delegation (services : Services) :
    System ExecutionPolicy ChildExecution where
  step := delegate services

end WeaveRuntime.Delegation
