/-
What a tool definition brings along (definitions.py): the schema check of
its input, its own checks, the resolvers of its execution semantics and
its executor.

All of it is the tool author's code, so each callable is an arbitrary
function of the input it is given, which may raise an ordinary exception;
the context a callable also gets is the same throughout a call. The schema
check is `validate_input_schema` on the schema of the definition.
-/
import WeaveRuntime.Lib.Method
import WeaveRuntime.Registries.ToolRegistry
import WeaveRuntime.Tools.Execution

namespace WeaveRuntime.Tools

open Python (PyKey PyVal)

abbrev ToolInput := List (PyKey × PyVal)

/-- `updated_input or tool_input`: an empty mapping does not count. -/
def orInput (updatedInput : Option ToolInput) (toolInput : ToolInput) :
    ToolInput :=
  match updatedInput with
  | some (entry :: entries) => entry :: entries
  | _ => toolInput

@[simp] theorem orInput_none (i : ToolInput) : orInput none i = i := rfl

@[simp] theorem orInput_empty (i : ToolInput) : orInput (some []) i = i := rfl

theorem orInput_of_ne {u : ToolInput} (h : u ≠ []) (i : ToolInput) :
    orInput (some u) i = u := by
  cases u with
  | nil => exact absurd rfl h
  | cons entry entries => rfl

structure ValidationOutcome where
  valid : Bool
  message : Option String := none
  updatedInput : Option ToolInput := none

inductive PermissionBehavior where
  | allow
  | deny
  | ask
  deriving DecidableEq, Repr

structure PermissionDecision where
  behavior : PermissionBehavior
  message : Option String := none
  updatedInput : Option ToolInput := none

inductive ToolRiskLevel where
  | read
  | write
  | exec
  | network
  | delegate
  deriving DecidableEq, Repr

structure RequestClassifierInput extends ToolClassifierInput where
  operation : String
  targetUrls : List String := []
  riskLevel : ToolRiskLevel := .read
  tags : List String := []

structure ToolTraits where
  readOnly : Bool := false
  concurrencySafe : Bool := false
  destructive : Bool := false
  interruptBehavior : InterruptBehavior := .block

structure ToolExecutionSemantics where
  isReadOnly : ToolInput → Except String Bool
  isConcurrencySafe : ToolInput → Except String Bool
  interruptBehavior : ToolInput → Except String InterruptBehavior
  failurePolicy : ToolInput → Except String ToolFailurePolicy
  renderToolUseMessage : ToolInput → Except String PyVal
  renderToolResultSummary : ToolInput → Except String PyVal
  toClassifierInput : ToolInput → Except String (Option RequestClassifierInput)

def ToolExecutionSemantics.fromTraits (traits : ToolTraits) :
    ToolExecutionSemantics where
  isReadOnly _ := .ok traits.readOnly
  isConcurrencySafe _ := .ok (traits.readOnly && traits.concurrencySafe)
  interruptBehavior _ := .ok traits.interruptBehavior
  failurePolicy _ := .ok
    { failureMode := if traits.destructive then .fatal else .reportOnly
      resultClassifier := .exceptionOnly
      cancelRunningSiblings := traits.destructive
      blockQueuedSiblings := traits.destructive
      abortModelStream := traits.destructive
      surfacedStatus := .error }
  renderToolUseMessage _ := .ok .none
  renderToolResultSummary _ := .ok .none
  toClassifierInput _ := .ok none

/-- The callables of a definition. -/
structure ToolCallables where
  validateInputSchema : ToolInput → Except String ToolInput
  validateInput : Option (ToolInput → Except String ValidationOutcome) :=
    none
  checkPermissions : Option (ToolInput → Except String PermissionDecision) :=
    none
  traits : ToolTraits := {}
  semantics : Option ToolExecutionSemantics := none
  execute : Option (ToolInput → Except String RawOutput) := none

abbrev Tool := Registries.ToolDefinition ToolCallables

def executionSemantics (definition : Tool) : ToolExecutionSemantics :=
  definition.body.semantics.getD (.fromTraits definition.body.traits)

def resolveExecutionSemantics (definition : Tool) (input : ToolInput) :
    Except String ResolvedToolExecutionSemantics := do
  let semantics := executionSemantics definition
  let readOnly ← semantics.isReadOnly input
  let concurrencySafe ← semantics.isConcurrencySafe input
  let interruptBehavior ← semantics.interruptBehavior input
  let failurePolicy ← semantics.failurePolicy input
  let _ ← semantics.renderToolUseMessage input
  let _ ← semantics.renderToolResultSummary input
  let classifierInput ← semantics.toClassifierInput input
  return { readOnly := readOnly
           concurrencySafe := concurrencySafe
           interruptBehavior := interruptBehavior
           failurePolicy := failurePolicy
           classifierInput :=
             classifierInput.map RequestClassifierInput.toToolClassifierInput }

end WeaveRuntime.Tools
