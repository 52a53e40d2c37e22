/-
The orchestrator of persistent teammates, for one teammate.

`Service` is what `PersistentTeammateOrchestrator` and the mailbox hold
for it: the snapshot is there twice, in the memory of the orchestrator and
in the state file of the mailbox.

A coroutine of the source is cut at its awaits. Each piece is a method on
the service, and a coroutine that waits is a frame that holds its local
variables: `RecoverFrame`, `CompleteFrame`, `ProcessFrame`. What a piece
asks from outside (the execution core, the job service, the host, the
workflow service, the clock) is answered by `Answers`, and an answer may be
an exception. `resume` goes on with `process_next_work_item` after the
await its frame stands at.

An await that does not suspend (`_active_run_linked` of another run) is
one at which nothing else happens.
-/
import WeaveRuntime.Teammates.Mailbox
import WeaveRuntime.Teammates.Snapshot

namespace WeaveRuntime.Teammates

open Lib
open Python
open Jobs (Fields getField setField updateFields)

-- ============== errors

/-- An exception of a call outside, or the cancellation of the task. -/
inductive Thrown where
  | exception (text : String)
  | cancelled

/-- What a method of the orchestrator raises. -/
inductive ServiceError where
  | mailbox (error : MailboxError)
  | keyError (text : String)
  | valueError (text : String)
  | overflowError
  | thrown (error : Thrown)

/-- An answer that may be an exception of another object. -/
def answered {α : Type} (answer : Except Thrown α) : Except ServiceError α :=
  answer.mapError .thrown

-- ============= service

structure OrchestrationConfig where
  teamId : String
  teammateId : String
  claimLeaseMs : Int
  retryMaxAttempts : Int
  mailbox : MailboxConfig

/-- A mailbox as the orchestrator uses it: its store, the order it lists
the claims in, and how a snapshot is read back from its state file. What is
read back is in the same state, and asked to shut down by the same
workflow. -/
structure TeammateMailbox (ι κ : Type) where
  store : TeammateMailboxStore (MailboxState ι κ)
  listClaimed : MailboxState ι κ → List MailboxEnvelope
  readState : TeammateStateSnapshot → TeammateStateSnapshot
  state_readState : ∀ snapshot, (readState snapshot).state = snapshot.state
  shutdownWorkflowId_readState : ∀ snapshot,
    (readState snapshot).shutdownWorkflowId = snapshot.shutdownWorkflowId

def InMemory.mailbox : TeammateMailbox UuidHex (UuidHex × String) where
  store := InMemory.store
  listClaimed s :=
    (s.claimed.keys.insertionSort fun a b =>
      a.1.text < b.1.text ∨ (a.1.text = b.1.text ∧ a.2 ≤ b.2)).filterMap
        s.claimed.get?
  readState := id
  state_readState _ := rfl
  shutdownWorkflowId_readState _ := rfl

def FileBacked.mailbox : TeammateMailbox String String where
  store := FileBacked.store
  listClaimed s := (FileBacked.glob s.claimed "*.json").filterMap fun path =>
    (s.claimed.get? path).map MailboxEnvelope.reload
  readState := TeammateStateSnapshot.reload
  state_readState _ := rfl
  shutdownWorkflowId_readState _ := rfl

structure Service (ι κ : Type) where
  mailbox : MailboxState ι κ
  /-- The snapshot in the mailbox's state file. -/
  stateFile : Option TeammateStateSnapshot
  registration : Option TeammateRegistration
  /-- The entry of `_snapshots`. -/
  held : Option TeammateStateSnapshot
  projection : Option TeammateProjection
  /-- The teammate is among the `_recovered_targets`. -/
  recovered : Bool
  livePermissionWaits : List String
  /-- The envelopes `claim_next` has handed out, the last one first. -/
  handed : List MailboxEnvelope

inductive ShutdownWorkflow where
  /-- No service, no record, or one that is terminal. -/
  | closed
  | pending
  | acknowledged
  deriving DecidableEq, Repr

/-- What the world answers in one piece of a coroutine. -/
structure Answers where
  now : Datetime
  backoffEnd : Datetime
  claimId : UuidHex
  tempId : UuidHex
  /-- `workflow_service.is_pending`; false without the service. -/
  isPending : String → Bool
  /-- The id of the job `_find_projection_job` finds. -/
  projectionJob : Option String
  createJob : Except Thrown String
  updateJob : Except Thrown Unit
  shutdownWorkflow : ShutdownWorkflow
  /-- `prepare_execution`: the run id of the specification. -/
  prepareExecution : TeammateExecutionRequest → Except Thrown String
  /-- `_active_run_linked`, when it was awaited. -/
  activeRunLinked : Except Thrown Bool
  /-- `dispatch_prepared`: the status of the result. -/
  dispatchPrepared : Except Thrown String
  /-- A notification or a call of the workflow service, when awaited. -/
  returned : Except Thrown Unit

namespace Service

variable {ι κ : Type}

abbrev Call (ι κ α : Type) := Method (Service ι κ) ServiceError α

def onMailbox {α : Type} (m : Method (MailboxState ι κ) MailboxError α) :
    Call ι κ α :=
  Method.within (·.mailbox) (fun s mailbox => { s with mailbox := mailbox })
    .mailbox m

-- =========== snapshots

variable (M : TeammateMailbox ι κ)

def readState : Call ι κ (Option TeammateStateSnapshot) :=
  Method.read fun s => s.stateFile.map M.readState

/-- The snapshot in memory, or else the one of the state file. -/
def snapshot : Call ι κ (Option TeammateStateSnapshot) := do
  let held ← Method.read (·.held)
  match held with
  | some held => pure (some held)
  | none => do
    let stored ← readState M
    match stored with
    | some stored => do
      Method.write fun s => { s with held := some stored }
      pure (some stored)
    | none => pure none

def writeSnapshot (snapshot : TeammateStateSnapshot) : Call ι κ Unit :=
  Method.write fun s =>
    { s with held := some snapshot, stateFile := some snapshot }

def setProjection (snapshot : TeammateStateSnapshot)
    (taskId : Option String) (taskStatus : Option TaskStatus)
    (progressStatus : Option String) (latestNotification : Option String) :
    Call ι κ Unit :=
  Method.write fun s =>
    { s with
      projection := some
        { lifecycleState := snapshot.state
          taskId := taskId
          taskStatus := taskStatus
          currentRunId := snapshot.currentRunId
          currentMessageId := snapshot.currentMessageId
          waitingPermissionId := snapshot.waitingPermissionId
          shutdownWorkflowId := snapshot.shutdownWorkflowId
          progressStatus := progressStatus
          latestNotification := latestNotification
          agentName := snapshot.agentName
          sessionId := snapshot.sessionId } }

def updateProjectionJob (taskId : Option String) (a : Answers) :
    Call ι κ Unit :=
  match taskId with
  | none => pure ()
  | some _ => Method.lift (answered a.updateJob)

/-- The job of the projection. -/
def projectionTask : Call ι κ (Option String) :=
  Method.read fun s => s.projection.bind (·.taskId)

-- ======== registration

variable (config : OrchestrationConfig)

def restoreRegistration (snapshot : TeammateStateSnapshot) : Call ι κ Unit :=
  match snapshot.agentName, snapshot.sessionId, snapshot.workingDirectory with
  | some agentName, some sessionId, some workingDirectory =>
    Method.write fun s =>
      { s with
        registration := some
          { agentName := agentName
            sessionId := sessionId
            workingDirectory := workingDirectory
            claimLeaseMs := config.claimLeaseMs
            retryMaxAttempts := config.retryMaxAttempts
            metadata := snapshot.metadata } }
  | _, _, _ => pure ()

def teammateName : String := config.teamId ++ "/" ++ config.teammateId

def resolveRegistration : Call ι κ TeammateRegistration := do
  let registration ← Method.read (·.registration)
  match registration with
  | some registration => pure registration
  | none => do
    let stored ← readState M
    let stored ← Method.lift (orRaise stored (.keyError
      ("Unknown teammate: " ++ teammateName config)))
    restoreRegistration config stored
    let registration ← Method.read (·.registration)
    Method.lift (orRaise registration (.keyError
      ("Teammate registration for " ++ teammateName config
        ++ " is incomplete")))

-- ============ shutdown

def beginShutdown (workflowId : UuidHex) (a : Answers) :
    Call ι κ (Option TeammateStateSnapshot) := do
  let found ← snapshot M
  match found with
  | none => pure none
  | some found => do
    let next := found.stopping workflowId
    writeSnapshot next
    let taskId ← projectionTask
    updateProjectionJob taskId a
    setProjection next taskId (taskId.map fun _ => .running)
      (some "stopping")
      (some ("Teammate '" ++ config.teammateId ++ "' is stopping"))
    pure (some next)

/-- `complete_shutdown` at one of its two awaits, with the snapshot it read
before. -/
structure CompleteFrame where
  snapshot : TeammateStateSnapshot
  acknowledging : Bool

/-- `complete_shutdown` after its awaits. -/
def finishShutdown (found : TeammateStateSnapshot) : Call ι κ Unit := do
  let next := found.stopped
  writeSnapshot next
  let projection ← Method.read (·.projection)
  setProjection next (projection.bind (·.taskId))
    (projection.bind (·.taskStatus)) (some "stopped")
    (some ("Teammate '" ++ config.teammateId ++ "' stopped"))

/-- `complete_shutdown` up to its first await; `none` when it returned. -/
def completeShutdown (workflowId : UuidHex) (a : Answers) :
    Call ι κ (Option CompleteFrame) := do
  let found ← snapshot M
  match found with
  | none => pure none
  | some found =>
    if found.shutdownWorkflowId = some workflowId then
      match a.shutdownWorkflow with
      | .closed => do
        finishShutdown config found
        pure none
      | .pending => pure (some ⟨found, true⟩)
      | .acknowledged => pure (some ⟨found, false⟩)
    else pure none

def resumeComplete (frame : CompleteFrame) (a : Answers) :
    Call ι κ (Option CompleteFrame) := do
  Method.lift (answered a.returned)
  if frame.acknowledging then
    pure (some { frame with acknowledging := false })
  else do
    finishShutdown config frame.snapshot
    pure none

-- ========= permissions

def enterPermissionWait (permissionId : String) (a : Answers) :
    Call ι κ Unit := do
  let found ← snapshot M
  match found with
  | none => pure ()
  | some found => do
    Method.write fun s =>
      { s with
        livePermissionWaits := permissionId :: s.livePermissionWaits }
    let next := found.waitingPermission permissionId
    writeSnapshot next
    let taskId ← projectionTask
    updateProjectionJob taskId a
    setProjection next taskId (some .running) (some "waiting_permission")
      none

def exitPermissionWait (permissionId : String) (a : Answers) :
    Call ι κ Unit := do
  Method.write fun s =>
    { s with
      livePermissionWaits := s.livePermissionWaits.filter (· ≠ permissionId) }
  let found ← snapshot M
  match found with
  | none => pure ()
  | some found =>
    if found.waitingPermissionId = some permissionId then do
      let next := found.resumeActive
      writeSnapshot next
      let taskId ← projectionTask
      updateProjectionJob taskId a
      setProjection next taskId (some .running)
        (some (if next.state = .stopping then "stopping" else "active"))
        none
    else pure ()

-- ============= recover

def leaseExpired (envelope : MailboxEnvelope) (now : Datetime) :
    Except ServiceError Bool :=
  match envelope.claimedAt, envelope.claimLeaseMs with
  | some claimedAt, some claimLeaseMs =>
    let reference := envelope.lastHeartbeatAt.getD claimedAt
    let deadline := reference.micros + claimLeaseMs * 1000
    if deadline < 0 ∨ datetimeRange ≤ deadline then .error .overflowError
    else .ok (deadline ≤ now.micros)
  | _, _ => .ok false

def staleClaim (envelope : MailboxEnvelope)
    (activeRunLinked waitingPermission : Bool) (now : Datetime) :
    Except ServiceError Bool :=
  if envelope.terminalState.isSome then .ok false
  else if waitingPermission || activeRunLinked then .ok false
  else leaseExpired envelope now

def hasLivePermissionWait (found : TeammateStateSnapshot) (a : Answers) :
    Call ι κ Bool := do
  match found.waitingPermissionId with
  | none => pure false
  | some permissionId => do
    let waits ← Method.read (·.livePermissionWaits)
    pure (waits.contains permissionId || a.isPending permissionId)

def reconcileProjectionJob (a : Answers) : Call ι κ (Option String) := do
  updateProjectionJob a.projectionJob a
  pure a.projectionJob

/-- `recover` at the await of `_active_run_linked`, with its locals. -/
structure RecoverFrame where
  snapshot : TeammateStateSnapshot
  livePermissionWait : Bool
  recovered : List TeammateRecoveryResult
  recoveredTaskId : Option String
  recoveredTaskStatus : Option TaskStatus
  /-- The envelope the await is about. -/
  envelope : MailboxEnvelope
  /-- The claims after it. -/
  remaining : List MailboxEnvelope

/-- A method has ended, or waits. -/
inductive Progress (α φ : Type) where
  | ended (result : α)
  | waiting (frame : φ)

/-- The projection `recover` leaves. -/
def projectRecovered (found : TeammateStateSnapshot) (taskId : Option String)
    (taskStatus : Option TaskStatus) : Call ι κ Unit :=
  if found.state = .idle then
    setProjection found taskId taskStatus (some "idle") none
  else if found.state = .stopping then
    setProjection found none none (some "stopping") none
  else pure ()

/-- The end of `recover`. -/
def finishRecover (found : TeammateStateSnapshot) (taskId : Option String)
    (taskStatus : Option TaskStatus) : Call ι κ Unit := do
  projectRecovered found taskId taskStatus
  Method.write fun s => { s with recovered := true }

/-- `recover` with the snapshot it read, up to its first await. -/
def recoverFrom (found : TeammateStateSnapshot) (a : Answers) :
    Call ι κ (Progress (List TeammateRecoveryResult) RecoverFrame) := do
  Method.write fun s => { s with held := some found }
  restoreRegistration config found
  let livePermissionWait ← hasLivePermissionWait found a
  let claimed ← Method.read fun s => M.listClaimed s.mailbox
  match claimed with
  | [] =>
    if found.state = .active ∨ found.state = .waitingPermission
        ∨ found.state = .starting then do
      let _ ← reconcileProjectionJob a
      writeSnapshot found.idle
      Method.write fun s => { s with recovered := true }
      pure (.ended [⟨none, "reset_idle", none⟩])
    else do
      finishRecover found none none
      pure (.ended [])
  | envelope :: remaining =>
    pure (.waiting
      { snapshot := found
        livePermissionWait := livePermissionWait
        recovered := []
        recoveredTaskId := none
        recoveredTaskStatus := none
        envelope := envelope
        remaining := remaining })

/-- `recover` up to its first await. -/
def recover (a : Answers) :
    Call ι κ (Progress (List TeammateRecoveryResult) RecoverFrame) := do
  let stored ← readState M
  match stored with
  | none => pure (.ended [])
  | some found => recoverFrom M config found a

def MailboxTerminalState.value : MailboxTerminalState → String
  | .done => "done"
  | .failed => "failed"
  | .retry => "retry"

/-- What `recover` reports of a claim it gave back. -/
def givenBack (archived : MailboxEnvelope) (messageId : UuidHex)
    (reason : String) : TeammateRecoveryResult where
  messageId := some messageId
  action := (archived.terminalState.map MailboxTerminalState.value).getD
    "retry"
  reason := some reason

/-- The snapshot of the frame, reset if it has the claim. -/
def detach (frame : RecoverFrame) : Call ι κ TeammateStateSnapshot :=
  if frame.snapshot.currentMessageId = some frame.envelope.messageId then do
    writeSnapshot frame.snapshot.idle
    pure frame.snapshot.idle
  else pure frame.snapshot

/-- Take the claim of the frame away. -/
def failClaim (frame : RecoverFrame) (reason : String) (a : Answers) :
    Call ι κ (MailboxEnvelope × Option MailboxEnvelope) := do
  let registration ← resolveRegistration M config
  onMailbox (M.store.failOrRetry config.mailbox frame.envelope reason
    (some registration.retryMaxAttempts) a.now a.backoffEnd a.tempId)

def giveBack (frame : RecoverFrame) (reason : String) (a : Answers) :
    Call ι κ RecoverFrame := do
  let settled ← failClaim M config frame reason a
  let taskId ← reconcileProjectionJob a
  let next ← detach frame
  pure
    { frame with
      snapshot := next
      recovered := frame.recovered
        ++ [givenBack settled.1 frame.envelope.messageId reason]
      recoveredTaskId := taskId
      recoveredTaskStatus := if taskId.isSome then some .failed
        else frame.recoveredTaskStatus }

def RecoverFrame.waitingPermissionSnapshot (frame : RecoverFrame) : Bool :=
  frame.snapshot.currentMessageId = some frame.envelope.messageId
    && frame.snapshot.currentClaimId = frame.envelope.claimId
    && frame.snapshot.waitingPermissionId.isSome

/-- One round of `recover`'s loop, after its await. -/
def recoverClaim (frame : RecoverFrame) (a : Answers) :
    Call ι κ RecoverFrame := do
  let activeRunLinked ← Method.lift (answered a.activeRunLinked)
  let waitingSnapshot := frame.waitingPermissionSnapshot
  let waitingPermission := waitingSnapshot && frame.livePermissionWait
  if waitingSnapshot && !frame.livePermissionWait && !activeRunLinked then
    giveBack M config frame "lost_permission_wait" a
  else do
    let stale ← Method.lift (staleClaim frame.envelope activeRunLinked
      waitingPermission a.now)
    if stale then giveBack M config frame "stale_claim" a
    else if waitingPermission then
      pure
        { frame with
          recovered := frame.recovered
            ++ [⟨some frame.envelope.messageId, "kept_waiting_permission",
              none⟩] }
    else pure frame

/-- The next round of the loop, or its end. -/
def nextClaim (claims : List MailboxEnvelope) (frame : RecoverFrame) :
    Call ι κ (Progress (List TeammateRecoveryResult) RecoverFrame) :=
  match claims with
  | [] => do
    finishRecover frame.snapshot frame.recoveredTaskId
      frame.recoveredTaskStatus
    pure (.ended frame.recovered)
  | envelope :: remaining =>
    pure (.waiting { frame with envelope := envelope, remaining := remaining })

/-- `recover` after an await. -/
def resumeRecover (frame : RecoverFrame) (a : Answers) :
    Call ι κ (Progress (List TeammateRecoveryResult) RecoverFrame) := do
  let next ← recoverClaim M config frame a
  nextClaim frame.remaining next

-- ============ requests

/-- `_coerce_optional_int`: what is no number is nothing, but `int` of an
infinity overflows. -/
def coerceOptionalInt (value : PyVal) : Except ServiceError (Option Int) :=
  match value with
  | .float "inf" => .error .overflowError
  | .float "-inf" => .error .overflowError
  | value => .ok (pyInt value)

def coerceMapping : PyVal → Fields
  | .dict fields => updateFields [] (fields.map fun field =>
    (.str field.1.text, field.2))
  | _ => []

/-- `_coerce_permission_mode` and `_coerce_isolation_mode`: an enumeration
member, if one is asked for. -/
def coerceMember {μ : Type} (name : String) (ofValue : String → Option μ)
    (value : PyVal) : Except ServiceError (Option μ) :=
  match coerceOptionalString value with
  | none => .ok none
  | some text =>
    match ofValue text with
    | some member => .ok (some member)
    | none => .error (.valueError
        (Python.reprStr text ++ " is not a valid " ++ name))

def coercePermissionMode : PyVal → Except ServiceError (Option PermissionMode) :=
  coerceMember "PermissionMode" PermissionMode.ofValue

def coerceIsolationMode : PyVal → Except ServiceError (Option IsolationMode) :=
  coerceMember "IsolationMode" IsolationMode.ofValue

def buildExecutionRequest (registration : TeammateRegistration)
    (envelope : MailboxEnvelope) :
    Except ServiceError TeammateExecutionRequest := do
  let payload := envelope.payload
  let prompt ← orRaise (coerceOptionalString (getField payload "prompt"))
    (.valueError "Mailbox work item is missing payload.prompt")
  let permissionMode ← coercePermissionMode
    (getField payload "requested_permission_mode")
  let isolationMode ← coerceIsolationMode
    (getField payload "requested_isolation")
  let metadata : Fields :=
    [(.str "team_id", .str config.teamId),
      (.str "teammate_id", .str config.teammateId),
      (.str "mailbox_message_id", .str envelope.messageId.text),
      (.str "mailbox_claim_id", Jobs.optText envelope.claimId),
      (.str "mailbox_kind", .str envelope.kind),
      (.str "query_source", .str "teammate_mailbox")]
  let maxTurns ← coerceOptionalInt (getField payload "max_turns")
  pure
    { messageId := envelope.messageId
      claimId := envelope.claimId.getD "None"
      agentName := registration.agentName
      prompt := prompt
      sessionId := registration.sessionId
      cwd := registration.workingDirectory
      requestedModelRoute := coerceOptionalString
        (getField payload "requested_model_route")
      requestedModel := coerceOptionalString
        (getField payload "requested_model")
      requestedEffort := getField payload "requested_effort"
      requestedPermissionMode := permissionMode
      requestedIsolation := isolationMode
      maxTurns := maxTurns
      metadata := updateFields metadata
        (coerceMapping (getField payload "metadata")) }

-- ========== processing

/-- A run that was dispatched, with the locals of the processor. -/
structure RunFrame where
  registration : TeammateRegistration
  claimed : MailboxEnvelope
  snapshot : TeammateStateSnapshot
  taskId : String
  runId : String

/-- `process_next_work_item` at an await. -/
inductive ProcessFrame where
  /-- In `recover`, the first time. -/
  | recovering (frame : RecoverFrame)
  /-- In `complete_shutdown`, the last thing it does. -/
  | completing (frame : CompleteFrame) (result : Option String)
  | dispatching (run : RunFrame)
  /-- In the exception handler. -/
  | notifyingFailure (run : RunFrame) (error : ServiceError)
  /-- In the `finally`, with the outcome of the `try`. -/
  | stoppingHeartbeat (run : RunFrame) (outcome : Except ServiceError String)
  | notifying (run : RunFrame) (status : String)

/-- The status of the result the processor returned, if any, or the await
it stands at. -/
abbrev Processing := Progress (Option String) ProcessFrame

/-- Return the result once `complete_shutdown` has. -/
def afterShutdown (result : Option String) :
    Option CompleteFrame → Processing
  | none => .ended result
  | some frame => .waiting (.completing frame result)

/-- What the processor has after the claim: nothing to do but, it may be,
to complete a shutdown, or an envelope. -/
inductive Claiming where
  | nothing (frame : Option CompleteFrame)
  | handed (registration : TeammateRegistration) (envelope : MailboxEnvelope)

def settleIdle (found : TeammateStateSnapshot) (activeClaims : Bool) :
    Call ι κ TeammateStateSnapshot :=
  if !activeClaims && found.state ≠ .idle then do
    writeSnapshot found.idle
    pure found.idle
  else pure found

/-- No item was ready. -/
def nothingReady (a : Answers) : Call ι κ (Option CompleteFrame) := do
  let found ← snapshot M
  let activeClaims ← Method.read fun s => M.listClaimed s.mailbox
  match found with
  | none => pure none
  | some found =>
    if found.state = .stopping then do
      setProjection found none none (some "stopping") none
      match found.shutdownWorkflowId, activeClaims with
      | some workflowId, [] => completeShutdown M config workflowId a
      | _, _ => pure none
    else do
      let found ← settleIdle found !activeClaims.isEmpty
      if found.state = .idle then do
        setProjection found none none (some "idle") none
        pure none
      else pure none

/-- A teammate that is shutting down takes no item. -/
def stopInstead (existing : TeammateStateSnapshot) (a : Answers) :
    Call ι κ (Option CompleteFrame) :=
  match existing.shutdownWorkflowId with
  | some workflowId =>
    if existing.currentWorkAttached then pure none
    else completeShutdown M config workflowId a
  | none => pure none

def claimItem (a : Answers) : Call ι κ Claiming := do
  let registration ← resolveRegistration M config
  let claimed ← onMailbox (M.store.claimNext config.mailbox
    ("teammate:" ++ config.teammateId) (some registration.claimLeaseMs)
    a.now a.claimId)
  match claimed with
  | none => do
    let frame ← nothingReady M config a
    pure (.nothing frame)
  | some claimed => do
    Method.write fun s => { s with handed := claimed :: s.handed }
    pure (.handed registration claimed)

/-- `process_next_work_item` from the end of `recover` to the claim. -/
def claimWork (a : Answers) : Call ι κ Claiming := do
  let existing ← snapshot M
  match existing.filter (·.shuttingDown) with
  | some existing => do
    let frame ← stopInstead M config existing a
    pure (.nothing frame)
  | none => claimItem M config a

def attachRun (registration : TeammateRegistration)
    (claimed : MailboxEnvelope) (runId : String)
    (next : TeammateStateSnapshot) (a : Answers) : Call ι κ RunFrame := do
  writeSnapshot next
  let taskId ← Method.lift (answered a.createJob)
  updateProjectionJob (some taskId) a
  setProjection next (some taskId) (some .running) (some "active") none
  pure
    { registration := registration
      claimed := claimed
      snapshot := next
      taskId := taskId
      runId := runId }

def linkRun (registration : TeammateRegistration) (claimed : MailboxEnvelope)
    (runId : String) (a : Answers) : Call ι κ RunFrame := do
  let claimed ← onMailbox
    (M.store.updateClaim (claimed.withRunLinkage runId))
  let found ← snapshot M
  attachRun registration claimed runId
    (((found.getD (.new .starting)).activate claimed.messageId runId
      (claimed.claimId.getD "None")).withRegistration registration.agentName
        registration.sessionId registration.workingDirectory
        registration.metadata) a

/-- From the claim to the dispatch. -/
def prepareRun (registration : TeammateRegistration)
    (claimed : MailboxEnvelope) (a : Answers) : Call ι κ RunFrame := do
  let request ← Method.lift (buildExecutionRequest config registration claimed)
  let runId ← Method.lift (answered (a.prepareExecution request))
  linkRun M registration claimed runId a

/-- The claim and what follows it, up to an await. -/
def claimAndPrepare (a : Answers) : Call ι κ Processing := do
  let claiming ← claimWork M config a
  match claiming with
  | .nothing frame => pure (afterShutdown none frame)
  | .handed registration claimed => do
    let run ← prepareRun M config registration claimed a
    pure (.waiting (.dispatching run))

def afterRecover (a : Answers) :
    Progress (List TeammateRecoveryResult) RecoverFrame → Call ι κ Processing
  | .ended _ => claimAndPrepare M config a
  | .waiting frame => pure (.waiting (.recovering frame))

/-- `process_next_work_item` with the lock, up to its first await. -/
def processNextWorkItem (a : Answers) : Call ι κ Processing := do
  let recovered ← Method.read (·.recovered)
  if recovered then claimAndPrepare M config a
  else do
    let progress ← recover M config a
    afterRecover M config a progress

/-- Take the claim of a run away that failed. -/
def failWork (run : RunFrame) (reason : String) (a : Answers) :
    Call ι κ (MailboxEnvelope × Option MailboxEnvelope) :=
  onMailbox (M.store.failOrRetry config.mailbox run.claimed reason
    (some run.registration.retryMaxAttempts) a.now a.backoffEnd a.tempId)

/-- The exception handler of the dispatch, up to its await. -/
def failRun (run : RunFrame) (text : String) (a : Answers) :
    Call ι κ Processing := do
  let _ ← failWork M config run text a
  let next := run.snapshot.idle
  writeSnapshot next
  updateProjectionJob (some run.taskId) a
  setProjection next (some run.taskId) (some .failed) (some "idle")
    (some ("Teammate '" ++ config.teammateId ++ "' failed mailbox item"))
  pure (.waiting (.notifyingFailure run (.thrown (.exception text))))

/-- Settle the claim of a run that returned a result: the status of its job
and the text for the host. -/
def settleClaim (run : RunFrame) (status : String) (a : Answers) :
    Call ι κ (TaskStatus × String) :=
  if status = "completed" then do
    let _ ← onMailbox (M.store.completeDone run.claimed none a.now)
    pure (.completed,
      "Teammate '" ++ config.teammateId ++ "' completed mailbox item")
  else do
    let settled ← failWork M config run status a
    pure (.failed,
      if settled.2.isSome then
        "Teammate '" ++ config.teammateId ++ "' scheduled mailbox retry"
      else "Teammate '" ++ config.teammateId ++ "' failed mailbox item")

def RunFrame.after (run : RunFrame) : TeammateStateSnapshot :=
  if run.snapshot.shutdownWorkflowId.isSome then run.snapshot.stopped
  else run.snapshot.idle

/-- From the end of the `try` to the last notification. -/
def settleRun (run : RunFrame) (status : String) (a : Answers) :
    Call ι κ RunFrame := do
  let (taskStatus, notification) ← settleClaim M config run status a
  let next := run.after
  writeSnapshot next
  updateProjectionJob (some run.taskId) a
  setProjection next (some run.taskId) (some taskStatus)
    (some (if next.state = .stopped then "stopped" else "idle"))
    (some notification)
  pure { run with snapshot := next }

/-- After the last notification. -/
def endRun (run : RunFrame) (status : String) (a : Answers) :
    Call ι κ Processing := do
  Method.lift (answered a.returned)
  match run.snapshot.shutdownWorkflowId with
  | none => pure (.ended (some status))
  | some workflowId => do
    let frame ← completeShutdown M config workflowId a
    pure (afterShutdown (some status) frame)

/-- `process_next_work_item` after an await. -/
def resume (frame : ProcessFrame) (a : Answers) : Call ι κ Processing :=
  match frame with
  | .recovering frame => do
    let progress ← resumeRecover M config frame a
    afterRecover M config a progress
  | .completing frame result => do
    let frame ← resumeComplete config frame a
    pure (afterShutdown result frame)
  | .dispatching run =>
    match a.dispatchPrepared with
    | .ok status => pure (.waiting (.stoppingHeartbeat run (.ok status)))
    | .error .cancelled =>
      pure (.waiting (.stoppingHeartbeat run
        (.error (.thrown .cancelled))))
    | .error (.exception text) =>
      -- what the handler raises goes through the `finally` as well
      (failRun M config run text a).tryExcept fun error =>
        pure (.waiting (.stoppingHeartbeat run (.error error)))
  | .notifyingFailure run error =>
    match answered a.returned with
    | .ok _ => pure (.waiting (.stoppingHeartbeat run (.error error)))
    | .error error =>
      pure (.waiting (.stoppingHeartbeat run (.error error)))
  | .stoppingHeartbeat run outcome => do
    -- `_stop_heartbeat` swallows a cancellation
    let status ← Method.lift outcome
    let run ← settleRun M config run status a
    pure (.waiting (.notifying run status))
  | .notifying run status => endRun M config run status a

/-- The run whose heartbeat task is there. -/
def ProcessFrame.beating : ProcessFrame → Option RunFrame
  | .dispatching run => some run
  | .notifyingFailure run _ => some run
  | .stoppingHeartbeat run _ => some run
  | _ => none

/-- One beat of `_heartbeat_loop`, which drops what the mailbox raises. -/
def beat (run : RunFrame) (now : Datetime) : Call ι κ Unit :=
  (do let _ ← onMailbox (M.store.heartbeat run.claimed.messageId
        (run.claimed.claimId.getD "None") now)
      pure ()).tryExcept fun _ => pure ()

-- ========== publishing

/-- What `publish_work_item` is given. -/
structure WorkItem where
  prompt : String
  sender : MailboxSender
  kind : String
  correlationId : Option String
  payload : Fields
  payloadRef : Option String
  requestedModelRoute : Option String
  requestedModel : Option String
  requestedEffort : Option PyVal
  requestedPermissionMode : Option String
  requestedIsolation : Option String
  maxTurns : Option Int

def setSome (fields : Fields) (key : String) (value : Option PyVal) : Fields :=
  match value with
  | none => fields
  | some value => setField fields (.str key) value

/-- The payload `publish_work_item` puts into the envelope. -/
def WorkItem.payloadData (item : WorkItem) : Fields :=
  let data := if (lookupKey item.payload "prompt").isSome then item.payload
    else setField item.payload (.str "prompt") (.str item.prompt)
  let data := setSome data "requested_model_route"
    (item.requestedModelRoute.map .str)
  let data := setSome data "requested_model" (item.requestedModel.map .str)
  let data := setSome data "requested_effort" item.requestedEffort
  let data := setSome data "requested_permission_mode"
    (item.requestedPermissionMode.map .str)
  let data := setSome data "requested_isolation"
    (item.requestedIsolation.map .str)
  setSome data "max_turns" (item.maxTurns.map .int)

def publishWorkItem (item : WorkItem) (messageId correlationId : UuidHex)
    (a : Answers) : Call ι κ MailboxEnvelope := do
  let registration ← resolveRegistration M config
  onMailbox (M.store.publish
    { messageId := messageId
      kind := item.kind
      sender := item.sender
      createdAt := a.now
      attempt := 1
      correlationId := some ((item.correlationId.filter (· ≠ "")).getD
        correlationId.text)
      payload := item.payloadData
      payloadRef := item.payloadRef
      claimId := none
      claimedAt := none
      claimLeaseMs := none
      lastHeartbeatAt := none
      claimerIdentity := none
      currentRunId := none
      retryMaxAttempts := some registration.retryMaxAttempts
      retryReason := none
      nextRetryAfter := none
      terminalState := none
      terminalReason := none
      completedAt := none
      schemaVersion := schemaVersion } a.tempId)

end Service

end WeaveRuntime.Teammates
