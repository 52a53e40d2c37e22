/-
The tool-call lifecycle (tool_lifecycle.py): the stages a call goes
through, the events that move it, and the projection of an event onto
the stage map.

`projectLifecycleStage` is the runtime's only guard on event order. It
raises where an event does not fit the stage its call is in, so "the
orchestrator emits no event out of order" is the statement that it never
raises; the facts at the end of the file say which stages each event is
accepted from.
-/
import Mathlib.Data.List.Basic

namespace WeaveRuntime.Tools

-- ======== enumerations

inductive ToolResolutionStatus where
  | executable
  | denied
  | invalid
  deriving DecidableEq, Repr

inductive ToolSchedulerLaneKind where
  | concurrent
  | exclusive
  | conflict
  deriving DecidableEq, Repr

inductive ToolLaneDerivationMode where
  | precise
  | coarse
  deriving DecidableEq, Repr

inductive ToolLifecycleStage where
  | observed
  | resolving
  | resolvedNonExecutable
  | queued
  | running
  | terminalPendingReplay
  | replayed
  deriving DecidableEq, Repr

inductive ToolCallStatus where
  | success
  | error
  | cancelled
  | denied
  deriving DecidableEq, Repr

/-- A lane of the scheduler. Lanes of one kind may still differ in the
domains they lock. -/
structure ToolSchedulerLane where
  laneKind : ToolSchedulerLaneKind
  laneKey : Option String := none
  conflictDomains : List String := []
  sharesConcurrency : Bool := false
  derivationMode : ToolLaneDerivationMode := .coarse
  deriving DecidableEq, Repr

-- ============== events

/-- A lifecycle event, with the fields the projection and the sinks of
the orchestrator read. -/
inductive ToolLifecycleEvent where
  | envelopeObserved (toolUseId : String) (replayIndex : Nat)
      (assistantMessageId rawToolName : String)
  | resolutionStarted (toolUseId : String) (replayIndex : Nat)
  | resolutionCompleted (toolUseId : String) (replayIndex : Nat)
      (resolutionStatus : ToolResolutionStatus)
      (canonicalToolName : Option String)
  | executionQueued (toolUseId : String) (replayIndex : Nat)
      (laneKind : ToolSchedulerLaneKind) (laneKey : Option String)
  | executionStarted (toolUseId : String) (replayIndex : Nat)
      (laneKind : ToolSchedulerLaneKind)
  | progressEmitted (toolUseId : String) (replayIndex : Nat)
      (progressId message : String)
  | outcomeRecorded (toolUseId : String) (replayIndex completionIndex : Nat)
      (status : ToolCallStatus)
  | replayCommitted (toolUseId : String) (replayIndex completionIndex : Nat)
      (status : ToolCallStatus)
  deriving DecidableEq, Repr

/-- The call an event is about. -/
def ToolLifecycleEvent.toolUseId : ToolLifecycleEvent → String
  | .envelopeObserved id _ _ _ => id
  | .resolutionStarted id _ => id
  | .resolutionCompleted id _ _ _ => id
  | .executionQueued id _ _ _ => id
  | .executionStarted id _ _ => id
  | .progressEmitted id _ _ _ => id
  | .outcomeRecorded id _ _ _ => id
  | .replayCommitted id _ _ _ => id

inductive LifecycleTransitionError where
  | invalidTransition (current expected : Option ToolLifecycleStage)
  | invalidQueued (current : Option ToolLifecycleStage)
  | progressOutsideRunning (current : Option ToolLifecycleStage)
  | invalidOutcome (current : Option ToolLifecycleStage)
  deriving DecidableEq, Repr

def requireTransition (current expected : Option ToolLifecycleStage) :
    Except LifecycleTransitionError Unit :=
  if current = expected then .ok ()
  else .error (.invalidTransition current expected)

def projectLifecycleStage (current : Option ToolLifecycleStage)
    (event : ToolLifecycleEvent) :
    Except LifecycleTransitionError ToolLifecycleStage :=
  match event with
  | .envelopeObserved .. => do
    requireTransition current none
    return .observed
  | .resolutionStarted .. => do
    requireTransition current (some .observed)
    return .resolving
  | .resolutionCompleted _ _ status _ => do
    requireTransition current (some .resolving)
    if status = .executable then return .queued
    return .resolvedNonExecutable
  | .executionQueued .. =>
    if current = some .queued then .ok .queued
    else .error (.invalidQueued current)
  | .executionStarted .. => do
    requireTransition current (some .queued)
    return .running
  | .progressEmitted .. =>
    if current = some .running then .ok .running
    else .error (.progressOutsideRunning current)
  | .outcomeRecorded .. =>
    if current = some .running ∨ current = some .queued
        ∨ current = some .resolvedNonExecutable then
      .ok .terminalPendingReplay
    else .error (.invalidOutcome current)
  | .replayCommitted .. => do
    requireTransition current (some .terminalPendingReplay)
    return .replayed

-- ===== accepted events

def accepts (event : ToolLifecycleEvent) :
    Option ToolLifecycleStage → Prop :=
  match event with
  | .envelopeObserved .. => fun c => c = none
  | .resolutionStarted .. => fun c => c = some .observed
  | .resolutionCompleted .. => fun c => c = some .resolving
  | .executionQueued .. => fun c => c = some .queued
  | .executionStarted .. => fun c => c = some .queued
  | .progressEmitted .. => fun c => c = some .running
  | .outcomeRecorded .. => fun c =>
    c = some .running ∨ c = some .queued ∨ c = some .resolvedNonExecutable
  | .replayCommitted .. => fun c => c = some .terminalPendingReplay

/-- The stage an accepted event leads to. -/
def targetStage : ToolLifecycleEvent → ToolLifecycleStage
  | .envelopeObserved .. => .observed
  | .resolutionStarted .. => .resolving
  | .resolutionCompleted _ _ status _ =>
    if status = .executable then .queued else .resolvedNonExecutable
  | .executionQueued .. => .queued
  | .executionStarted .. => .running
  | .progressEmitted .. => .running
  | .outcomeRecorded .. => .terminalPendingReplay
  | .replayCommitted .. => .replayed

/-- The projection succeeds exactly on an accepted event, and then gives
the event's target stage: the whole guard in one statement. -/
theorem projectLifecycleStage_eq_ok {current : Option ToolLifecycleStage}
    {event : ToolLifecycleEvent} {stage : ToolLifecycleStage} :
    projectLifecycleStage current event = .ok stage
      ↔ accepts event current ∧ stage = targetStage event := by
  cases event with
  | resolutionCompleted id i status name =>
    by_cases hc : current = some .resolving
    · by_cases hs : status = .executable
      · simp [projectLifecycleStage, requireTransition, accepts,
          targetStage, hc, hs, eq_comm, pure, Except.pure, bind, Except.bind]
      · simp [projectLifecycleStage, requireTransition, accepts,
          targetStage, hc, hs, eq_comm, pure, Except.pure, bind, Except.bind]
    · simp [projectLifecycleStage, requireTransition, accepts, hc, bind,
        Except.bind]
  | outcomeRecorded id i c status =>
    simp only [projectLifecycleStage, accepts, targetStage]
    split
    · next h => simp [h, eq_comm]
    · next h => simp [h]
  | _ =>
    simp only [projectLifecycleStage, requireTransition, accepts,
      targetStage]
    split
    · next h => simp [h, eq_comm, pure, Except.pure, bind, Except.bind]
    · next h => simp [h, bind, Except.bind]

end WeaveRuntime.Tools
