/-
One attempt of a turn, as a transition system.

The engine's coroutine and the tasks of the tool orchestrator share the
event loop, so an attempt is the state of both, and an action is one of
them going on up to its next await: the model gives an event or its
stream ends, a buffered completion returns, a call is observed or its
resolution comes back, a task moves, someone interrupts.

# The stages

`streaming` and `responding` are the two ways to invoke the model;
`failed` is the stretch between an exception of the stream and the
commit, where the error event is yielded. At `replaying` the attempt is
committed or discarded and the hooks run. `finalizing` is
`tool_executor.finalize`: observing what is left to observe (`queue`),
then waiting for the tasks. The engine has `left` the attempt when it
issues the next request or yields the terminal event; tasks of the
attempt that are still there go on.

# The abort signal

The signal is aborted by whatever interrupts the orchestrator's context,
with the same reason, and by anyone who holds its handle.
-/
import WeaveRuntime.TurnEngine.ToolExecutor
import WeaveRuntime.Lib.System

namespace WeaveRuntime.TurnEngine

open Lib Python Messages Tools

inductive Stage where
  | streaming
  | failed
  | responding
  | replaying
  | finalizing
  /-- What `finalize` returned, and the orchestrator with the replay
  committed. -/
  | finalized (outcomes : List ToolOutcome) (replayed : OrchestratorState)

structure Attempt where
  mode : ModelInvocationMode
  assistantMessageId : String
  executor : ToolExecutor
  stage : Stage
  stream : StreamAttemptState := {}
  /-- The calls that are still to be observed. -/
  queue : List ToolCall := []
  abortReason : Option String := none
  /-- `assistant_blocks`, `discarded_blocks`, `tool_calls`, `terminal`. -/
  result : StreamAttemptState.Finalized := {}
  /-- `pending_tool_use_closed_at_message_stop`, the local variable. -/
  pendingToolUseClosed : Bool := false
  left : Bool := false

inductive AttemptAction where
  | modelEvent (event : ModelStreamEvent) (uuid uuid' : String)
  | streamEnded (uuid : String)
  | streamRaised (message : String)
  | closeFailed (uuid : String)
  | responded (blocks : List ContentBlock) (messageId : Option String)
      (terminal : ModelTerminalMetadata)
  | responseRaised (message : String)
  | observeNext
  | resolved (resolution : Resolution) (conflictKey : String → Option String)
      (message : String)
  | resolveRaised (message : String)
  | tool (action : Tools.Action)
  | abort (reason : String)
  | replay
  | gathered
  | leave

/-- The actions by which the model call goes on or ends. -/
def AttemptAction.invokes : AttemptAction → Bool
  | .modelEvent _ _ _ | .streamEnded _ | .streamRaised _ | .closeFailed _
  | .responded _ _ _ | .responseRaised _ => true
  | _ => false

def abortReasonAllowsToolFinalize : Option String → Bool
  | some reason => reason.startsWith "tool_failure:"
  | none => false

/-- The event an exception of the model call is turned into. -/
def errorEvent (message : String) (abortReason : Option String) :
    ModelStreamEvent :=
  { eventType := .error
    payload := [(.str "error", .str message)]
    terminal := some
      { stopReason := some "error", error := some message
        abortReason := abortReason } }

/-- The actions of the orchestrator that are not part of observing a call:
its tasks move, its context is interrupted. -/
def taskAction : Tools.Action → Bool
  | .observeBegin _ _ _ | .observeResolved _ _ | .observeFailed => false
  | _ => true

/-- The engine's own `interrupt`: it reaches the attempt it is in. -/
def engineInterrupt : Tools.Action → Bool
  | .interrupt _ => true
  | _ => false

namespace Attempt

/-- The start of an attempt: the executor the capabilities select and the
mode of the request. -/
def init (capabilities : NormalizedModelCapabilities)
    (mode : ModelInvocationMode) (assistantMessageId : String) : Attempt :=
  { mode := mode
    assistantMessageId := assistantMessageId
    executor := { effectiveTier := selectToolExecutorTier capabilities }
    stage := if mode = .bufferedCompletion then .responding else .streaming }

abbrev orch (s : Attempt) : OrchestratorState := s.executor.orchestrator

def setOrchestrator (s : Attempt) (o : OrchestratorState) : Attempt :=
  { s with executor := { s.executor with orchestrator := o } }

/-- The engine waits for the model. -/
def awaitsModel (s : Attempt) : Bool :=
  !s.left && s.queue.isEmpty && s.orch.pending.isNone

def failStream (s : Attempt) (message : String) : Attempt :=
  { s with
    stream := ((StreamAttemptState.observe
      (errorEvent message s.abortReason) "" "").run s.stream).2
    queue := []
    stage := .failed }

/-- An exception of `observe_tool_call`, in the stream or in `finalize`. -/
def observeRaised (s : Attempt) (message : String) : Attempt :=
  match s.stage with
  | .finalizing => { s with left := true }
  | _ => s.failStream message

/-- The new tool calls that are observed while the model streams: none at
a message stop that closed an open tool use, and none but in the
full-streaming executor. -/
def streamedCalls (s : Attempt) (event : ModelStreamEvent)
    (stream : StreamAttemptState) : List ToolCall :=
  if event.eventType = .messageStop
      && stream.pendingToolUseClosedAtMessageStop then []
  else if s.executor.effectiveTier ≠ .fullStreaming then []
  else stream.newToolCalls

def takeEvent (s : Attempt) (event : ModelStreamEvent)
    (uuid uuid' : String) : Attempt :=
  match (StreamAttemptState.observe event uuid uuid').run s.stream with
  | (.error raised, stream) =>
    { s with stream := stream }.failStream raised.message
  | (.ok _, stream) =>
    if s.executor.effectiveTier = .none then { s with stream := stream }
    else { s with
      stream := stream.drained
      queue := s.streamedCalls event stream }

/-- The stream is over: what it came to is committed or discarded. What
`finalize` raises ends the turn. -/
def commit (s : Attempt) (pendingToolUseClosed : Bool) (uuid : String) :
    Attempt :=
  match s.stream.finalize s.abortReason
      (abortReasonAllowsToolFinalize s.abortReason) uuid with
  | .error _ => { s with left := true, stage := .replaying }
  | .ok result =>
    { s with
      result := result
      pendingToolUseClosed := pendingToolUseClosed
      stage := .replaying }

/-- A buffered completion failed. -/
def failResponse (s : Attempt) (message : String) : Attempt :=
  { s with
    result :=
      { terminal :=
          { stopReason := some "error", error := some message
            abortReason := s.abortReason } }
    stage := .replaying }

def completeBuffered (s : Attempt) (blocks : List ContentBlock)
    (messageId : Option String) (terminal : ModelTerminalMetadata) :
    Attempt :=
  let toolCalls := toolCallsFromMessage blocks
  if terminal.stopReason = some "tool_use" && toolCalls.isEmpty then
    s.failResponse ("Buffered completion returned stop_reason 'tool_use' "
      ++ "without ToolUseBlock content")
  else
    { s with
      result :=
        { committedBlocks := blocks, toolCalls := toolCalls
          terminal := terminal }
      assistantMessageId :=
        (textOr messageId (some s.assistantMessageId)).getD
          s.assistantMessageId
      stage := .replaying }

def observeNext (s : Attempt) : Option Attempt :=
  match s.queue with
  | [] => none
  | call :: rest =>
    if call.callId ∈ s.executor.observedToolUseIds then
      some { s with queue := rest }
    else
      (orchestrator.step s.orch (.observeBegin call.callId call.toolName
        s.assistantMessageId)).map fun o =>
          { s with
            queue := rest
            executor :=
              { s.executor.markObserved call with orchestrator := o } }

def signalAfter (s : Attempt) (o : OrchestratorState) :
    Tools.Action → Option String
  | .interrupt reason | .requestInterrupt reason => some reason
  | _ =>
    if o.interruptReason = s.orch.interruptReason then s.abortReason
    else o.interruptReason

/-- The attempt goes on to `finalize`: it has tool calls, an executor, and
no abort that forbids it. -/
def replays (s : Attempt) : Bool :=
  !s.result.toolCalls.isEmpty && s.executor.effectiveTier ≠ .none
    && !(s.abortReason.isSome
      && !abortReasonAllowsToolFinalize s.abortReason)

/-- The entry of `finalize`: the calls the executor will walk. -/
def beginFinalize (s : Attempt) : Attempt :=
  let executor := s.executor.settleTier s.pendingToolUseClosed
  { s with
    executor := executor
    queue :=
      if executor.effectiveTier = .fullStreaming then []
      else s.result.toolCalls
    stage := .finalizing }

/-- Calls are being observed. -/
def observing (s : Attempt) : Bool :=
  !s.left && match s.stage with
    | .streaming | .finalizing => true
    | _ => false

def step? (s : Attempt) : AttemptAction → Option Attempt
  | .modelEvent event uuid uuid' =>
    match s.stage with
    | .streaming =>
      if s.awaitsModel then some (s.takeEvent event uuid uuid') else none
    | _ => none
  | .streamEnded uuid =>
    match s.stage with
    | .streaming =>
      if s.awaitsModel then
        some (s.commit s.stream.pendingToolUseClosedAtMessageStop uuid)
      else none
    | _ => none
  | .streamRaised message =>
    match s.stage with
    | .streaming =>
      if s.awaitsModel then some (s.failStream message) else none
    | _ => none
  | .closeFailed uuid =>
    match s.stage with
    | .failed => if s.left then none else some (s.commit false uuid)
    | _ => none
  | .responded blocks messageId terminal =>
    match s.stage with
    | .responding =>
      if s.left then none
      else some (s.completeBuffered blocks messageId terminal)
    | _ => none
  | .responseRaised message =>
    match s.stage with
    | .responding =>
      if s.left then none else some (s.failResponse message)
    | _ => none
  | .observeNext =>
    if s.observing && s.orch.pending.isNone then s.observeNext else none
  | .resolved resolution conflictKey message =>
    match s.orch.pending with
    | none => none
    | some envelope =>
      if s.observing then
        (orchestrator.step s.orch
          (.observeResolved resolution conflictKey)).map fun o =>
            if (deriveLane conflictKey
                (resolution.resolvedCall envelope none)).isNone then
              (s.setOrchestrator o).observeRaised message
            else s.setOrchestrator o
      else none
  | .resolveRaised message =>
    if s.observing then
      (orchestrator.step s.orch .observeFailed).map fun o =>
        (s.setOrchestrator o).observeRaised message
    else none
  | .tool action =>
    match s.stage with
    | .finalized _ _ => none
    | _ =>
      if taskAction action && !(s.left && engineInterrupt action) then
        (orchestrator.step s.orch action).map fun o =>
          { s.setOrchestrator o with
            abortReason := s.signalAfter o action }
      else none
  | .abort reason => some { s with abortReason := some reason }
  | .replay =>
    match s.stage with
    | .replaying =>
      if !s.left && s.replays then some s.beginFinalize else none
    | _ => none
  | .gathered =>
    match s.stage with
    | .finalizing =>
      if !s.left && s.queue.isEmpty then
        (s.orch.finalize.toOption).map fun r =>
          { s with stage := .finalized r.1 r.2 }
      else none
    | _ => none
  | .leave =>
    match s.stage with
    | .replaying | .finalizing | .finalized _ _ =>
      if s.left then none else some { s with left := true }
    | _ => none

end Attempt

def attempt : System Attempt AttemptAction where
  step := Attempt.step?

-- ==== the follow-up message

def toolResultContent (outcomes : List ToolOutcome) : List ContentBlock :=
  (outcomes.insertionSort fun a b => a.replayIndex ≤ b.replayIndex).map
    fun o => .toolResult o.resultBlock.toolUseId
      (payloadOf o.resultBlock.content) o.resultBlock.isError

def toolResultId? : ContentBlock → Option String
  | .toolResult id _ _ => some id
  | _ => none

end WeaveRuntime.TurnEngine
