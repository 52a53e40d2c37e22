/-
The streaming tool orchestrator (tool_orchestration.py,
`StreamingToolOrchestrator`) as a transition system.

# One action, one piece of Python between two awaits

The event loop runs one task at a time and switches only at an `await`,
so each action below is what the code does from one suspension point to
the next:

- `observeBegin` / `observeResolved` / `observeFailed`:
  `observe_tool_call` up to the await of `resolve_tool_call`, the rest of
  it, and the exit in which resolving raises;
- `firstStep`: the first step of a scheduled call's task, up to the
  `gather` over the calls it waits for, or further when there are none;
- `resume`: the step after that `gather` has finished;
- `finish`: the step in which a running tool body comes back;
- `progress`, `interrupt`, `requestInterrupt`: a progress report of a
  tool, `interrupt()`, and an interrupt requested of the shared context.

Which resolution a call gets, what a tool body does and how the file
system resolves paths are the environment's choices, so the actions
carry them.

# Tasks

`scheduledTasks` is the dictionary of tasks in insertion order; a task is
named by its position, so `waitFor` is a list of positions. `cancelTask`
is `Task.cancel()`: a cancelled task that awaits a `gather` cancels the
unfinished children of the gather, which are the tasks it waits for. A
task cancelled before its first step is finished by that step, and its
coroutine body never runs.

A lifecycle event that does not fit raises; `Halt.raised` keeps that
apart from an action that is merely not enabled (`Halt.disabled`).
-/
import Mathlib.Data.List.Sort
import WeaveRuntime.Lib.Dict
import WeaveRuntime.Lib.System
import WeaveRuntime.Tools.Execution

namespace WeaveRuntime.Tools

open Lib

-- ===== scheduled tasks

inductive TaskPhase where
  | created
  | waiting
  | running
  | done
  deriving DecidableEq, Repr

/-- A task of `_run_scheduled_call`, with its entry of
`_scheduled_lanes`. -/
structure ScheduledTask where
  call : ResolvedToolCall
  lane : Option ToolSchedulerLane
  waitFor : List Nat
  phase : TaskPhase := .created
  numCancelsRequested : Nat := 0
  deriving DecidableEq, Repr

/-- The domains a lane locks: `conflict_domains or (lane_key,)`, without
an empty key. -/
def ToolSchedulerLane.domains (lane : ToolSchedulerLane) : List String :=
  if lane.conflictDomains ≠ [] then lane.conflictDomains
  else
    match lane.laneKey with
    | some key => if key ≠ "" then [key] else []
    | none => []

def lanesOverlap (left right : ToolSchedulerLane) : Bool :=
  if left.laneKind = .exclusive ∨ right.laneKind = .exclusive then true
  else if left.laneKind = .concurrent ∨ right.laneKind = .concurrent then
    false
  else if left.domains = [] ∨ right.domains = [] then true
  else left.domains.any fun d => d ∈ right.domains

/-- `_derive_lane`: `none` where a conflict key raises, `some none` for a
call that does not execute. -/
def deriveLane (conflictKey : String → Option String)
    (call : ResolvedToolCall) : Option (Option ToolSchedulerLane) :=
  if call.resolutionStatus ≠ .executable then some none
  else
    match call.resolvedSemantics with
    | none => some (some { laneKind := .exclusive })
    | some semantics =>
      if !semantics.concurrencySafe then
        some (some { laneKind := .exclusive })
      else do
        let conflictDomains ← (targetPaths semantics).mapM conflictKey
        if semantics.readOnly && conflictDomains = [] then
          return some { laneKind := .concurrent, sharesConcurrency := true
                        derivationMode := .precise }
        if conflictDomains ≠ [] then
          return some { laneKind := .conflict
                        laneKey := some ("|".intercalate conflictDomains)
                        conflictDomains := conflictDomains
                        derivationMode := .precise }
        return some { laneKind := .exclusive }

def ScheduledTask.blocks (lane : ToolSchedulerLane) (task : ScheduledTask) :
    Bool :=
  task.phase ≠ .done &&
    match task.lane with
    | some prior => lanesOverlap prior lane
    | none => false

def dependenciesForLane (tasks : List ScheduledTask) :
    Option ToolSchedulerLane → List Nat
  | none => []
  | some lane =>
    (List.range tasks.length).filter fun i =>
      (tasks[i]?).any (ScheduledTask.blocks lane)

/-- `Task.cancel()`. The fuel is one more than the task's own position:
a task waits for earlier ones only. -/
def cancelTask : Nat → List ScheduledTask → Nat → List ScheduledTask
  | 0, tasks, _ => tasks
  | fuel + 1, tasks, i =>
    match tasks[i]? with
    | none => tasks
    | some task =>
      if task.phase = .done then tasks
      else
        let requested := tasks.modify i fun t =>
          { t with numCancelsRequested := t.numCancelsRequested + 1 }
        if task.phase = .waiting then
          task.waitFor.foldl (fun ts d => cancelTask fuel ts d) requested
        else requested

-- =============== state

structure OrchestratorState where
  observedCount : Nat := 0
  completionIndex : Nat := 0
  /-- The call whose resolution `observe_tool_call` awaits. -/
  pending : Option ToolCallEnvelope := none
  resolvedCalls : List ResolvedToolCall := []
  scheduledTasks : List ScheduledTask := []
  startedCalls : List String := []
  outcomes : Dict Nat ToolOutcome := .empty
  lifecycleStages : Dict String ToolLifecycleStage := .empty
  /-- What `_lifecycle_sink` was given, in order. -/
  emitted : List ToolLifecycleEvent := []
  interruptReason : Option String := none

/-- Why a step does not happen: it is not enabled, or a lifecycle event
raised in it. -/
inductive Halt where
  | disabled
  | raised (error : LifecycleTransitionError)
  deriving DecidableEq, Repr

/-- What `resolve_tool_call` found out about an envelope. -/
structure Resolution where
  resolutionStatus : ToolResolutionStatus
  canonicalToolName : Option String := none
  toolDefinition : Option ToolDefinition := none
  resolvedSemantics : Option ResolvedToolExecutionSemantics := none
  permissionDecision : Option ResolvedPermissionDecision := none
  deriving DecidableEq, Repr

/-- The call `resolve_tool_call` returns, under the lane that
`with_scheduler_lane` sets. -/
def Resolution.resolvedCall (resolution : Resolution)
    (envelope : ToolCallEnvelope) (lane : Option ToolSchedulerLane) :
    ResolvedToolCall :=
  { envelope := envelope
    resolutionStatus := resolution.resolutionStatus
    canonicalToolName := resolution.canonicalToolName
    toolDefinition := resolution.toolDefinition
    resolvedSemantics := resolution.resolvedSemantics
    permissionDecision := resolution.permissionDecision
    schedulerLane := lane
    replayIndex := envelope.sequenceIndex }

inductive Action where
  | observeBegin (toolUseId rawToolName assistantMessageId : String)
  | observeResolved (resolution : Resolution)
      (conflictKey : String → Option String)
  | observeFailed
  | firstStep (i : Nat) (conflictKey : String → Option String)
  | resume (i : Nat) (conflictKey : String → Option String)
  | finish (i : Nat) (run : ToolRun) (conflictKey : String → Option String)
  | progress (i : Nat) (progressId message : String)
  | interrupt (reason : String)
  | requestInterrupt (reason : String)

namespace OrchestratorState

-- ========== operations

def stage (s : OrchestratorState) (toolUseId : String) :
    Option ToolLifecycleStage :=
  s.lifecycleStages.get? toolUseId

/-- The state after an event was projected and sunk. -/
def afterEvent (s : OrchestratorState) (event : ToolLifecycleEvent) :
    OrchestratorState :=
  { s with
    lifecycleStages :=
      s.lifecycleStages.insert event.toolUseId (targetStage event)
    emitted := s.emitted ++ [event] }

def emitLifecycle (s : OrchestratorState) (event : ToolLifecycleEvent) :
    Except Halt OrchestratorState :=
  match projectLifecycleStage (s.stage event.toolUseId) event with
  | .error err => .error (.raised err)
  | .ok next =>
    .ok { s with
      lifecycleStages := s.lifecycleStages.insert event.toolUseId next
      emitted := s.emitted ++ [event] }

def laneKindOf (call : ResolvedToolCall) : ToolSchedulerLaneKind :=
  match call.schedulerLane with
  | some lane => lane.laneKind
  | none => .exclusive

def setPhase (s : OrchestratorState) (i : Nat) (phase : TaskPhase) :
    OrchestratorState :=
  { s with
    scheduledTasks := s.scheduledTasks.modify i fun t =>
      { t with phase := phase } }

def recordOutcome (s : OrchestratorState) (outcome : ToolOutcome) :
    Except Halt OrchestratorState :=
  emitLifecycle
    { s with outcomes := s.outcomes.insert outcome.replayIndex outcome }
    (.outcomeRecorded outcome.resolvedCall.toolUseId outcome.replayIndex
      outcome.completionIndex outcome.status)

/-- The tasks `_maybe_cascade_failure` cancels itself: unfinished, not the
failing call's, and picked by the policy. -/
def cascadeTarget (s : OrchestratorState) (policy : ToolFailurePolicy)
    (currentId : String) (task : ScheduledTask) : Bool :=
  task.call.toolUseId ≠ currentId && task.phase ≠ .done &&
    if task.call.toolUseId ∈ s.startedCalls then policy.cancelRunningSiblings
    else policy.blockQueuedSiblings

/-- Cancel each task that passes the test, in dictionary order. The test
does not read what a cancellation changes, so it is evaluated on the
tasks as they are before the loop. -/
def cancelWhere (tasks : List ScheduledTask) (p : ScheduledTask → Bool) :
    List ScheduledTask :=
  (List.range tasks.length).foldl
    (fun ts i => if (tasks[i]?).any p then cancelTask (i + 1) ts i else ts)
    tasks

def maybeCascadeFailure (s : OrchestratorState) (outcome : ToolOutcome) :
    OrchestratorState :=
  match outcome.resolvedCall.resolvedSemantics with
  | none => s
  | some semantics =>
    let policy := semantics.failurePolicy
    if policy.failureMode ≠ .fatal then s
    else if outcome.status = .success then s
    else
      let currentId := outcome.resolvedCall.toolUseId
      { s with
        interruptReason :=
          if policy.abortModelStream then some ("tool_failure:" ++ currentId)
          else s.interruptReason
        scheduledTasks := cancelWhere s.scheduledTasks
          (s.cascadeTarget policy currentId) }

/-- The end of `_run_scheduled_call`: record the outcome, leave the
started calls, cascade. Without an outcome an exception has left the
body, and none of it happens. -/
def settle (s : OrchestratorState) (i : Nat) (call : ResolvedToolCall)
    (settled : Option ToolOutcome × Nat) : Except Halt OrchestratorState :=
  let counted := { s with completionIndex := settled.2 }
  match settled.1 with
  | none => .ok (counted.setPhase i .done)
  | some outcome => do
    let recorded ← counted.recordOutcome outcome
    let left := { recorded with
      startedCalls := recorded.startedCalls.filter (· ≠ call.toolUseId) }
    return (left.maybeCascadeFailure outcome).setPhase i .done

/-- `execute_resolved_tool_call` from a started call on: the boundary's own
answer, or the tool body. -/
def enterBody (s : OrchestratorState) (i : Nat) (call : ResolvedToolCall)
    (conflictKey : String → Option String) :
    Except Halt OrchestratorState :=
  match preflight call s.interruptReason with
  | some result =>
    s.settle i call (buildOutcome conflictKey call result s.completionIndex)
  | none => .ok (s.setPhase i .running)

/-- `_run_scheduled_call` past its `gather`, up to the await of the tool
body or, where the boundary answers without it, to the end. -/
def startCall (s : OrchestratorState) (i : Nat) (call : ResolvedToolCall)
    (conflictKey : String → Option String) :
    Except Halt OrchestratorState := do
  let started ← emitLifecycle
    { s with startedCalls := s.startedCalls.insert call.toolUseId }
    (.executionStarted call.toolUseId call.replayIndex (laneKindOf call))
  started.enterBody i call conflictKey

def cancelWaiting (s : OrchestratorState) (i : Nat) (call : ResolvedToolCall) :
    Except Halt OrchestratorState :=
  s.settle i call
    (some (cancelledOutcome call s.completionIndex), s.completionIndex + 1)

def observeBegin (s : OrchestratorState)
    (toolUseId rawToolName assistantMessageId : String) :
    Except Halt OrchestratorState := do
  let envelope : ToolCallEnvelope :=
    { toolUseId := toolUseId, sequenceIndex := s.observedCount
      rawToolName := rawToolName, assistantMessageId := assistantMessageId }
  let observed ← emitLifecycle
    { s with observedCount := s.observedCount + 1, pending := some envelope }
    (.envelopeObserved toolUseId envelope.sequenceIndex assistantMessageId
      rawToolName)
  observed.emitLifecycle (.resolutionStarted toolUseId envelope.sequenceIndex)

def observeLane (s : OrchestratorState) (call : ResolvedToolCall) :
    Except Halt OrchestratorState := do
  let completed ← emitLifecycle
    { s with pending := none, resolvedCalls := s.resolvedCalls ++ [call] }
    (.resolutionCompleted call.toolUseId call.replayIndex
      call.resolutionStatus call.canonicalToolName)
  if call.resolutionStatus ≠ .executable then
    recordOutcome
      { completed with completionIndex := completed.completionIndex + 1 }
      (syntheticOutcome call completed.completionIndex)
  else
    let queued ← completed.emitLifecycle
      (.executionQueued call.toolUseId call.replayIndex (laneKindOf call)
        (call.schedulerLane.bind fun lane => lane.laneKey))
    let task : ScheduledTask :=
      { call := call, lane := call.schedulerLane
        waitFor := dependenciesForLane queued.scheduledTasks
          call.schedulerLane }
    return { queued with scheduledTasks := queued.scheduledTasks ++ [task] }

/-- Whether every task at the given positions is done. -/
def allDone (s : OrchestratorState) (positions : List Nat) : Bool :=
  positions.all fun d => (s.scheduledTasks[d]?).all (·.phase = .done)

-- ========== the system

/-- One action of the event loop. -/
def step? (s : OrchestratorState) : Action →
    Except Halt OrchestratorState
  | .observeBegin toolUseId rawToolName assistantMessageId =>
    if s.pending.isSome then .error .disabled
    else s.observeBegin toolUseId rawToolName assistantMessageId
  | .observeResolved resolution conflictKey =>
    match s.pending with
    | none => .error .disabled
    | some envelope =>
      match deriveLane conflictKey
          (resolution.resolvedCall envelope none) with
      | none => .ok { s with pending := none }
      | some lane => s.observeLane (resolution.resolvedCall envelope lane)
  | .observeFailed =>
    if s.pending.isSome then .ok { s with pending := none }
    else .error .disabled
  | .firstStep i conflictKey =>
    match s.scheduledTasks[i]? with
    | none => .error .disabled
    | some task =>
      if task.phase ≠ .created then .error .disabled
      else if task.numCancelsRequested ≠ 0 then .ok (s.setPhase i .done)
      else if task.waitFor = [] then s.startCall i task.call conflictKey
      else .ok (s.setPhase i .waiting)
  | .resume i conflictKey =>
    match s.scheduledTasks[i]? with
    | none => .error .disabled
    | some task =>
      if task.phase ≠ .waiting ∨ !s.allDone task.waitFor then
        .error .disabled
      else if task.numCancelsRequested ≠ 0 then
        s.cancelWaiting i task.call
      else s.startCall i task.call conflictKey
  | .finish i run conflictKey =>
    match s.scheduledTasks[i]? with
    | none => .error .disabled
    | some task =>
      if task.phase ≠ .running then .error .disabled
      else s.settle i task.call
        (settleRun conflictKey task.call run s.completionIndex)
  | .progress i progressId message =>
    match s.scheduledTasks[i]? with
    | none => .error .disabled
    | some task =>
      -- what a misplaced report raises is raised in the tool
      match s.emitLifecycle (.progressEmitted task.call.toolUseId
          task.call.replayIndex progressId message) with
      | .error _ => .ok s
      | .ok s' => .ok s'
  | .interrupt reason =>
    .ok { s with
      interruptReason := some reason
      scheduledTasks :=
        cancelWhere s.scheduledTasks fun task => task.phase ≠ .done }
  | .requestInterrupt reason => .ok { s with interruptReason := some reason }

/-- The replay indices `finalize` walks: `sorted(self._outcomes)`. -/
def sortedIndices (s : OrchestratorState) : List Nat :=
  s.outcomes.keys.insertionSort (· ≤ ·)

/-- `finalize`, from the end of its `gather` on: every task is done. The
context updates of the outcomes touch nothing modelled here. -/
def finalize (s : OrchestratorState) :
    Except Halt (List ToolOutcome × OrchestratorState) :=
  if s.pending.isSome ∨ !s.scheduledTasks.all (·.phase = .done) then
    .error .disabled
  else do
    let ordered := s.sortedIndices.filterMap s.outcomes.get?
    let replayed ← ordered.foldlM (fun state outcome =>
      state.emitLifecycle (.replayCommitted outcome.resolvedCall.toolUseId
        outcome.replayIndex outcome.completionIndex outcome.status)) s
    return (ordered, replayed)

end OrchestratorState

/-- The orchestrator as a transition system: an action that raises or is
not enabled is no step. -/
def orchestrator : System OrchestratorState Action where
  step s a := (s.step? a).toOption

end WeaveRuntime.Tools
