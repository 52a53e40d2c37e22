/-
The state snapshot of a teammate and its transitions, and the records the
orchestrator keeps beside it.

A snapshot names the work that is attached (message, run, claim), the
permission that is waited for and the workflow that asked for a shutdown.
`idle` and `stopped` take the work away; `idle` takes the shutdown request
away as well.
-/
import WeaveRuntime.Teammates.Envelope

namespace WeaveRuntime.Teammates

open Python
open Jobs (Fields)

-- =========== snapshots

inductive TeammateLifecycleState where
  | starting | idle | active | waitingPermission | stopping | stopped
  deriving DecidableEq, Repr

structure TeammateStateSnapshot where
  state : TeammateLifecycleState
  currentMessageId : Option UuidHex
  currentRunId : Option String
  currentClaimId : Option String
  waitingPermissionId : Option String
  shutdownWorkflowId : Option UuidHex
  agentName : Option String
  sessionId : Option String
  workingDirectory : Option String
  metadata : Fields

namespace TeammateStateSnapshot

def new (state : TeammateLifecycleState) : TeammateStateSnapshot where
  state := state
  currentMessageId := none
  currentRunId := none
  currentClaimId := none
  waitingPermissionId := none
  shutdownWorkflowId := none
  agentName := none
  sessionId := none
  workingDirectory := none
  metadata := []

def currentWorkAttached (snapshot : TeammateStateSnapshot) : Bool :=
  snapshot.currentMessageId.isSome || snapshot.currentRunId.isSome
    || snapshot.currentClaimId.isSome || snapshot.waitingPermissionId.isSome

def shuttingDown (snapshot : TeammateStateSnapshot) : Bool :=
  snapshot.state = .stopping || snapshot.state = .stopped

def withRegistration (snapshot : TeammateStateSnapshot)
    (agentName sessionId workingDirectory : String) (metadata : Fields) :
    TeammateStateSnapshot :=
  { snapshot with
    agentName := some agentName
    sessionId := some sessionId
    workingDirectory := some workingDirectory
    metadata := metadata }

def activate (snapshot : TeammateStateSnapshot) (messageId : UuidHex)
    (runId claimId : String) : TeammateStateSnapshot :=
  { snapshot with
    state := .active
    currentMessageId := some messageId
    currentRunId := some runId
    currentClaimId := some claimId
    waitingPermissionId := none }

def waitingPermission (snapshot : TeammateStateSnapshot)
    (permissionId : String) : TeammateStateSnapshot :=
  { snapshot with
    state := if snapshot.shuttingDown then snapshot.state
      else .waitingPermission
    waitingPermissionId := some permissionId }

def resumeActive (snapshot : TeammateStateSnapshot) : TeammateStateSnapshot :=
  { snapshot with
    state := if snapshot.shutdownWorkflowId.isSome then .stopping else .active
    waitingPermissionId := none }

def stopping (snapshot : TeammateStateSnapshot) (workflowId : UuidHex) :
    TeammateStateSnapshot :=
  { snapshot with
    state := .stopping
    shutdownWorkflowId := some workflowId }

def stopped (snapshot : TeammateStateSnapshot) : TeammateStateSnapshot :=
  { snapshot with
    state := .stopped
    currentMessageId := none
    currentRunId := none
    currentClaimId := none
    waitingPermissionId := none }

def idle (snapshot : TeammateStateSnapshot) : TeammateStateSnapshot :=
  { snapshot with
    state := .idle
    currentMessageId := none
    currentRunId := none
    currentClaimId := none
    waitingPermissionId := none
    shutdownWorkflowId := none }

/-- `from_dict` of the document `to_dict` wrote: what is blank there is
read as missing. The metadata is JSON data. -/
def reload (snapshot : TeammateStateSnapshot) : TeammateStateSnapshot :=
  { snapshot with
    currentRunId := coerceOptional snapshot.currentRunId
    currentClaimId := coerceOptional snapshot.currentClaimId
    waitingPermissionId := coerceOptional snapshot.waitingPermissionId
    agentName := coerceOptional snapshot.agentName
    sessionId := coerceOptional snapshot.sessionId
    workingDirectory := coerceOptional snapshot.workingDirectory }

end TeammateStateSnapshot

-- ============= records

structure TeammateRegistration where
  agentName : String
  sessionId : String
  workingDirectory : String
  claimLeaseMs : Int
  retryMaxAttempts : Int
  metadata : Fields

inductive TaskStatus where
  | pending | running | completed | failed | stopped
  deriving DecidableEq, Repr

/-- What the host is shown of a teammate. -/
structure TeammateProjection where
  lifecycleState : TeammateLifecycleState
  taskId : Option String
  taskStatus : Option TaskStatus
  currentRunId : Option String
  currentMessageId : Option UuidHex
  waitingPermissionId : Option String
  shutdownWorkflowId : Option UuidHex
  progressStatus : Option String
  latestNotification : Option String
  agentName : Option String
  sessionId : Option String

structure TeammateRecoveryResult where
  messageId : Option UuidHex
  action : String
  reason : Option String

inductive PermissionMode where
  | default | plan | acceptEdits | bypassPermissions | dontAsk | auto | bubble
  deriving DecidableEq, Repr

def PermissionMode.ofValue : String → Option PermissionMode
  | "default" => some .default
  | "plan" => some .plan
  | "acceptEdits" => some .acceptEdits
  | "bypassPermissions" => some .bypassPermissions
  | "dontAsk" => some .dontAsk
  | "auto" => some .auto
  | "bubble" => some .bubble
  | _ => none

inductive IsolationMode where
  | none | worktree | remote
  deriving DecidableEq, Repr

def IsolationMode.ofValue : String → Option IsolationMode
  | "none" => some .none
  | "worktree" => some .worktree
  | "remote" => some .remote
  | _ => Option.none

/-- What the execution core is asked to prepare. -/
structure TeammateExecutionRequest where
  messageId : UuidHex
  claimId : String
  agentName : String
  prompt : String
  sessionId : String
  cwd : String
  requestedModelRoute : Option String
  requestedModel : Option String
  requestedEffort : PyVal
  requestedPermissionMode : Option PermissionMode
  requestedIsolation : Option IsolationMode
  maxTurns : Option Int
  metadata : Fields

end WeaveRuntime.Teammates
