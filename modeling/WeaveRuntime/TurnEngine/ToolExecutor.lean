/-
The tool executor of an attempt, and how a route selects it.

The executor and the way the model is invoked are selected apart, from
the same capabilities: `selectToolExecutorTier` asks how tool calls come,
`selectInvocationMode` whether the model streams, and an override or the
route may set the mode to something else.

The three executors are one record with a tier: the full-streaming one
observes calls while they stream and, unless it is downgraded, ignores
the list `finalize` is given; the others observe that list.
-/
import WeaveRuntime.Tools.Orchestration
import WeaveRuntime.TurnEngine.Stream

namespace WeaveRuntime.TurnEngine

open Tools

inductive ToolExecutorTier where
  | fullStreaming | buffered | batch | none
  deriving DecidableEq, Repr

inductive ModelInvocationMode where
  | stream | bufferedCompletion
  deriving DecidableEq, Repr

structure NormalizedModelCapabilities where
  structuredToolCalls : Bool := true
  streamingToolCallDeltas : Bool := false
  toolCallFinalizeBoundary : Bool := false
  parseableToolCallsAfterMessage : Bool := true
  multipleToolCallsPerMessage : Bool := true
  abortSignalPassthrough : Bool := true
  supportsStreaming : Bool := true
  deriving DecidableEq, Repr

def selectToolExecutorTier (capabilities : NormalizedModelCapabilities) :
    ToolExecutorTier :=
  if capabilities.structuredToolCalls && capabilities.streamingToolCallDeltas
      && capabilities.toolCallFinalizeBoundary then .fullStreaming
  else if capabilities.structuredToolCalls then .buffered
  else if capabilities.parseableToolCallsAfterMessage then .batch
  else .none

def coerceInvocationMode : Option String → Option ModelInvocationMode
  | some text =>
    if text = "stream" then some .stream
    else if text = "buffered_completion" then some .bufferedCompletion
    else none
  | none => none

def selectInvocationMode (capabilities : NormalizedModelCapabilities) :
    ModelInvocationMode :=
  if capabilities.supportsStreaming then .stream else .bufferedCompletion

/-- The mode a request starts out with: the pending override's, the
route's, or the capabilities'. -/
def requestInvocationMode (override route : Option String)
    (capabilities : NormalizedModelCapabilities) : ModelInvocationMode :=
  ((coerceInvocationMode override).or (coerceInvocationMode route)).getD
    (selectInvocationMode capabilities)

/-- The mode once the hooks of the request have had their say: what the
merged override names is coerced, and a text that names no mode leaves the
request without one, which streams. -/
def effectiveInvocationMode (merged : Option String)
    (mode : ModelInvocationMode) : ModelInvocationMode :=
  match merged with
  | none => mode
  | some text => (coerceInvocationMode (some text)).getD .stream

/-- The executors, by their tier. -/
structure ToolExecutor where
  effectiveTier : ToolExecutorTier
  downgradeReason : Option String := none
  observedToolUseIds : List String := []
  orchestrator : OrchestratorState := {}

namespace ToolExecutor

def downgrade (executor : ToolExecutor) (tier : ToolExecutorTier)
    (reason : String) : ToolExecutor :=
  { executor with effectiveTier := tier, downgradeReason := some reason }

def settleTier (executor : ToolExecutor) (hasPendingToolUse : Bool) :
    ToolExecutor :=
  if hasPendingToolUse && executor.effectiveTier = .fullStreaming then
    executor.downgrade .buffered
      "stream ended without a safe pre-message_stop finalize boundary"
  else executor

/-- `_mark_observed`, where it gives true. -/
def markObserved (executor : ToolExecutor) (call : ToolCall) :
    ToolExecutor :=
  { executor with
    observedToolUseIds := executor.observedToolUseIds ++ [call.callId] }

end ToolExecutor

end WeaveRuntime.TurnEngine
