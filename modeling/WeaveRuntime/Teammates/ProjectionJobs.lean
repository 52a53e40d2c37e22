/-
The orchestrator with the job service it is bound to.

`Service` leaves the answers of the job service open. Here the job service
is there: `BoundService` is a `Service` and the jobs, and every call that
creates, finds or updates the job of a projection is made on them. What
makes no such call is taken from `Service` as it is (`onService`); the rest
is translated again, with the arguments the job service is given.

An `Answers` still says what the execution core, the host, the workflow
service and the clock answer; what it says of jobs is not asked for. The
time and the id of `uuid4` the job service takes are in its own `Env`.
-/
import WeaveRuntime.Jobs.Absorbing
import WeaveRuntime.Teammates.Shutdown

namespace WeaveRuntime.Teammates

open Lib
open Python
open Jobs (Env Fields JobMethod JobRecord JobScopeFilter
  JobStatus JobStore JobsState Raised getField optText)

-- ============== values

def TeammateLifecycleState.value : TeammateLifecycleState → String
  | .starting => "starting"
  | .idle => "idle"
  | .active => "active"
  | .waitingPermission => "waiting_permission"
  | .stopping => "stopping"
  | .stopped => "stopped"

def TaskStatus.toJobStatus : TaskStatus → JobStatus
  | .pending => .pending
  | .running => .running
  | .completed => .completed
  | .failed => .failed
  | .stopped => .stopped

/-- What the job service raises, as the orchestrator lets it through. -/
def thrownBy : Raised → Thrown
  | .jobControlError _ message _ => .exception message
  | .keyError key => .exception (Python.reprStr key)
  | .runtimeError message => .exception message
  | .thrown text => .exception text
  | .cancelled => .cancelled

/-- The text of a terminal state in the metadata of a job. -/
def terminalText (archived : MailboxEnvelope) : PyVal :=
  optText (archived.terminalState.map Service.MailboxTerminalState.value)

-- ============= service

structure BoundService (ι κ σ : Type) where
  service : Service ι κ
  jobs : JobsState σ

namespace BoundService

variable {ι κ σ α : Type}

abbrev Call (ι κ σ α : Type) := Method (BoundService ι κ σ) ServiceError α

/-- A call that is made without the job service. -/
def onService (m : Service.Call ι κ α) : Call ι κ σ α where
  run s := ((m.run s.service).1, { s with service := (m.run s.service).2 })

def onJobs (m : JobMethod σ α) : Call ι κ σ α :=
  Method.within (·.jobs) (fun s jobs => { s with jobs := jobs })
    (fun e => .thrown (thrownBy e)) m

variable (M : TeammateMailbox ι κ) (S : JobStore σ)
  (config : OrchestrationConfig)

-- ================ jobs

def createProjectionJob (summary : String) (description : Option String)
    (metadata : Fields) (env : Env) : Call ι κ σ String := do
  let record ← onJobs (Jobs.createOrUpdateCompat S env env.hex.text summary
    description metadata)
  pure record.jobId

def updateProjectionJob (jobId : String) (status : TaskStatus)
    (result : Option Fields) (error : Option String) (metadata : Fields)
    (env : Env) : Call ι κ σ Unit := do
  let _ ← onJobs (Jobs.updateCompat S env jobId
    { status := some status.toJobStatus
      description := none
      result := result.map .dict
      error := error.map .str
      metadata := metadata
      stopRequested := none })
  pure ()

/-- The job the projection names, if it names one, is running. -/
def updateHeldJob (taskId : Option String) (metadata : Fields) (env : Env) :
    Call ι κ σ Unit :=
  match taskId with
  | none => pure ()
  | some taskId =>
    updateProjectionJob S taskId .running none none metadata env

def metadataText (record : JobRecord) (key : String) : String :=
  pyStr (pyOr (getField record.metadata key) (.str ""))

/-- What `_find_projection_job` asks of a record. -/
def isProjectionOf (messageId claimId : Option String)
    (record : JobRecord) : Bool :=
  metadataText record "teammate_id" = config.teammateId
    && messageId.all (metadataText record "message_id" = ·)
    && claimId.all (metadataText record "claim_id" = ·)

def findProjectionJob (messageId claimId : Option String) :
    Call ι κ σ (Option JobRecord) :=
  Method.read fun s =>
    let scope : JobScopeFilter :=
      ⟨none, some config.teamId, none, some "teammate"⟩
    ((S.list s.jobs.store).filter scope.accepts).reverse.find?
      (isProjectionOf config messageId claimId)

def reconcileProjectionJob (sessionId messageId claimId runId : Option String)
    (reason : String) (mailboxTerminalState : PyVal) (env : Env) :
    Call ι κ σ (Option String) := do
  let record ← findProjectionJob S config messageId claimId
  match record with
  | none => pure none
  | some record => do
    updateProjectionJob S record.jobId .failed none (some reason)
      [(.str "session_id", optText sessionId),
        (.str "team_id", .str config.teamId),
        (.str "teammate_id", .str config.teammateId),
        (.str "run_id", optText runId),
        (.str "message_id", optText messageId),
        (.str "claim_id", optText claimId),
        (.str "projection_kind", .str "teammate"),
        (.str "kind", .str "teammate_projection"),
        (.str "teammate_state", .str TeammateLifecycleState.idle.value),
        (.str "waiting_permission_id", .none),
        (.str "mailbox_terminal_state", mailboxTerminalState)] env
    pure (some record.jobId)

-- ======== registration

/-- What `register_teammate` is given. -/
structure RegisterRequest where
  agentName : String
  sessionId : String
  workingDirectory : String
  metadata : Fields
  claimLeaseMs : Option Int
  retryMaxAttempts : Option Int

/-- `value or default`, of a number. -/
def intOr (value : Option Int) (default_ : Int) : Int :=
  (value.filter (· ≠ 0)).getD default_

def registerTeammate (request : RegisterRequest) :
    Service.Call ι κ TeammateStateSnapshot := do
  Method.write fun s =>
    { s with
      registration := some
        { agentName := request.agentName
          sessionId := request.sessionId
          workingDirectory := request.workingDirectory
          claimLeaseMs := intOr request.claimLeaseMs config.claimLeaseMs
          retryMaxAttempts :=
            intOr request.retryMaxAttempts config.retryMaxAttempts
          metadata := request.metadata } }
  let current ← Service.readState M
  let next := (current.getD (.new .idle)).withRegistration request.agentName
    request.sessionId request.workingDirectory request.metadata
  Service.writeSnapshot next
  if next.state = .idle then do
    Service.setProjection next none none (some "idle") none
    pure next
  else pure next

-- ============ shutdown

def beginShutdown (workflowId : UuidHex) (env : Env) :
    Call ι κ σ (Option TeammateStateSnapshot) := do
  let found ← onService (Service.snapshot M)
  match found with
  | none => pure none
  | some found => do
    let next := found.stopping workflowId
    onService (Service.writeSnapshot next)
    let taskId ← onService Service.projectionTask
    updateHeldJob S taskId
      [(.str "session_id", optText next.sessionId),
        (.str "teammate_state", .str next.state.value),
        (.str "shutdown_workflow_id", .str workflowId.text),
        (.str "kind", .str "teammate_projection")] env
    onService (Service.setProjection next taskId
      (taskId.map fun _ => .running) (some "stopping")
      (some ("Teammate '" ++ config.teammateId ++ "' is stopping")))
    pure (some next)

-- ========= permissions

def enterPermissionWait (permissionId : String) (env : Env) :
    Call ι κ σ Unit := do
  let found ← onService (Service.snapshot M)
  match found with
  | none => pure ()
  | some found => do
    onService (Method.write fun s =>
      { s with
        livePermissionWaits := permissionId :: s.livePermissionWaits })
    let next := found.waitingPermission permissionId
    onService (Service.writeSnapshot next)
    let taskId ← onService Service.projectionTask
    updateHeldJob S taskId
      [(.str "session_id", optText next.sessionId),
        (.str "teammate_state", .str next.state.value),
        (.str "waiting_permission_id", .str permissionId),
        (.str "kind", .str "teammate_projection")] env
    onService (Service.setProjection next taskId (some .running)
      (some "waiting_permission") none)

def exitPermissionWait (permissionId : String) (env : Env) :
    Call ι κ σ Unit := do
  onService (Method.write fun s =>
    { s with
      livePermissionWaits :=
        s.livePermissionWaits.filter (· ≠ permissionId) })
  let found ← onService (Service.snapshot M)
  match found with
  | none => pure ()
  | some found =>
    if found.waitingPermissionId = some permissionId then do
      let next := found.resumeActive
      onService (Service.writeSnapshot next)
      let taskId ← onService Service.projectionTask
      updateHeldJob S taskId
        [(.str "session_id", optText next.sessionId),
          (.str "teammate_state", .str next.state.value),
          (.str "waiting_permission_id", .none),
          (.str "kind", .str "teammate_projection")] env
      onService (Service.setProjection next taskId (some .running)
        (some (if next.state = .stopping then "stopping" else "active"))
        none)
    else pure ()

-- ============= recover

/-- What `recover` does with the snapshot it read: the registration is
there again. -/
def adopt (found : TeammateStateSnapshot) : Service.Call ι κ Unit := do
  Method.write fun s => { s with held := some found }
  Service.restoreRegistration config found

/-- `recover` with the snapshot it read, up to its first await. -/
def recoverFrom (found : TeammateStateSnapshot) (a : Answers) (env : Env) :
    Call ι κ σ (Service.Progress (List TeammateRecoveryResult)
      Service.RecoverFrame) := do
  onService (adopt config found)
  let livePermissionWait ← onService (Service.hasLivePermissionWait found a)
  let claimed ← onService (Method.read fun s => M.listClaimed s.mailbox)
  match claimed with
  | [] =>
    if found.state = .active ∨ found.state = .waitingPermission
        ∨ found.state = .starting then do
      let _ ← reconcileProjectionJob S config found.sessionId
        (found.currentMessageId.map (·.text)) found.currentClaimId
        found.currentRunId "recovery_reset_idle" .none env
      onService (Service.writeSnapshot found.idle)
      onService (Method.write fun s => { s with recovered := true })
      pure (.ended [⟨none, "reset_idle", none⟩])
    else do
      onService (Service.finishRecover found none none)
      pure (.ended [])
  | envelope :: remaining =>
    pure (.waiting
      { snapshot := found
        livePermissionWait := livePermissionWait
        recovered := []
        recoveredTaskId := none
        recoveredTaskStatus := none
        envelope := envelope
        remaining := remaining })

/-- `recover` up to its first await. -/
def recover (a : Answers) (env : Env) :
    Call ι κ σ (Service.Progress (List TeammateRecoveryResult)
      Service.RecoverFrame) := do
  let stored ← onService (Service.readState M)
  match stored with
  | none => pure (.ended [])
  | some found => recoverFrom M S config found a env

def giveBack (frame : Service.RecoverFrame) (reason : String) (a : Answers)
    (env : Env) : Call ι κ σ Service.RecoverFrame := do
  let settled ← onService (Service.failClaim M config frame reason a)
  let taskId ← reconcileProjectionJob S config frame.snapshot.sessionId
    (some frame.envelope.messageId.text) frame.envelope.claimId
    (orText frame.envelope.currentRunId frame.snapshot.currentRunId) reason
    (terminalText settled.1) env
  let next ← onService (Service.detach frame)
  pure
    { frame with
      snapshot := next
      recovered := frame.recovered
        ++ [Service.givenBack settled.1 frame.envelope.messageId reason]
      recoveredTaskId := taskId
      recoveredTaskStatus := if taskId.isSome then some .failed
        else frame.recoveredTaskStatus }

/-- One round of `recover`'s loop, after its await. -/
def recoverClaim (frame : Service.RecoverFrame) (a : Answers) (env : Env) :
    Call ι κ σ Service.RecoverFrame := do
  let activeRunLinked ← Method.lift (answered a.activeRunLinked)
  let waitingSnapshot := frame.waitingPermissionSnapshot
  let waitingPermission := waitingSnapshot && frame.livePermissionWait
  if waitingSnapshot && !frame.livePermissionWait && !activeRunLinked then
    giveBack M S config frame "lost_permission_wait" a env
  else do
    let stale ← Method.lift (Service.staleClaim frame.envelope
      activeRunLinked waitingPermission a.now)
    if stale then giveBack M S config frame "stale_claim" a env
    else if waitingPermission then
      pure
        { frame with
          recovered := frame.recovered
            ++ [⟨some frame.envelope.messageId, "kept_waiting_permission",
              none⟩] }
    else pure frame

/-- `recover` after an await. -/
def resumeRecover (frame : Service.RecoverFrame) (a : Answers) (env : Env) :
    Call ι κ σ (Service.Progress (List TeammateRecoveryResult)
      Service.RecoverFrame) := do
  let next ← recoverClaim M S config frame a env
  onService (Service.nextClaim frame.remaining next)

-- ========== processing

def attachRun (registration : TeammateRegistration)
    (claimed : MailboxEnvelope) (runId : String)
    (next : TeammateStateSnapshot) (env : Env) :
    Call ι κ σ Service.RunFrame := do
  onService (Service.writeSnapshot next)
  let taskId ← createProjectionJob S ("teammate:" ++ config.teammateId)
    (some (registration.agentName ++ ":" ++ claimed.kind))
    [(.str "session_id", .str registration.sessionId),
      (.str "team_id", .str config.teamId),
      (.str "teammate_id", .str config.teammateId),
      (.str "run_id", .str runId),
      (.str "message_id", .str claimed.messageId.text),
      (.str "claim_id", optText claimed.claimId),
      (.str "projection_kind", .str "teammate"),
      (.str "kind", .str "teammate_projection"),
      (.str "teammate_state", .str next.state.value)] env
  updateProjectionJob S taskId .running none none
    [(.str "session_id", .str registration.sessionId),
      (.str "teammate_state", .str next.state.value),
      (.str "run_id", .str runId),
      (.str "message_id", .str claimed.messageId.text),
      (.str "claim_id", optText claimed.claimId),
      (.str "kind", .str "teammate_projection")] env
  onService (Service.setProjection next (some taskId) (some .running)
    (some "active") none)
  pure
    { registration := registration
      claimed := claimed
      snapshot := next
      taskId := taskId
      runId := runId }

def linkRun (registration : TeammateRegistration) (claimed : MailboxEnvelope)
    (runId : String) (env : Env) : Call ι κ σ Service.RunFrame := do
  let claimed ← onService (Service.onMailbox
    (M.store.updateClaim (claimed.withRunLinkage runId)))
  let found ← onService (Service.snapshot M)
  attachRun S config registration claimed runId
    (((found.getD (.new .starting)).activate claimed.messageId runId
      (claimed.claimId.getD "None")).withRegistration registration.agentName
        registration.sessionId registration.workingDirectory
        registration.metadata) env

/-- From the claim to the dispatch. -/
def prepareRun (registration : TeammateRegistration)
    (claimed : MailboxEnvelope) (a : Answers) (env : Env) :
    Call ι κ σ Service.RunFrame := do
  let request ← Method.lift
    (Service.buildExecutionRequest config registration claimed)
  let runId ← Method.lift (answered (a.prepareExecution request))
  linkRun M S config registration claimed runId env

/-- The claim and what follows it, up to an await. -/
def claimAndPrepare (a : Answers) (env : Env) :
    Call ι κ σ Service.Processing := do
  let claiming ← onService (Service.claimWork M config a)
  match claiming with
  | .nothing frame => pure (Service.afterShutdown none frame)
  | .handed registration claimed => do
    let run ← prepareRun M S config registration claimed a env
    pure (.waiting (.dispatching run))

def afterRecover (a : Answers) (env : Env) :
    Service.Progress (List TeammateRecoveryResult) Service.RecoverFrame →
      Call ι κ σ Service.Processing
  | .ended _ => claimAndPrepare M S config a env
  | .waiting frame => pure (.waiting (.recovering frame))

/-- `process_next_work_item` with the lock, up to its first await. -/
def processNextWorkItem (a : Answers) (env : Env) :
    Call ι κ σ Service.Processing := do
  let recovered ← onService (Method.read (·.recovered))
  if recovered then claimAndPrepare M S config a env
  else do
    let progress ← recover M S config a env
    afterRecover M S config a env progress

/-- The exception handler of the dispatch, up to its await. -/
def failRun (run : Service.RunFrame) (text : String) (a : Answers)
    (env : Env) : Call ι κ σ Service.Processing := do
  let settled ← onService (Service.failWork M config run text a)
  let next := run.snapshot.idle
  onService (Service.writeSnapshot next)
  updateProjectionJob S run.taskId .failed none (some text)
    [(.str "session_id", .str run.registration.sessionId),
      (.str "teammate_state", .str next.state.value),
      (.str "mailbox_terminal_state", terminalText settled.1),
      (.str "kind", .str "teammate_projection")] env
  onService (Service.setProjection next (some run.taskId) (some .failed)
    (some "idle")
    (some ("Teammate '" ++ config.teammateId ++ "' failed mailbox item")))
  pure (.waiting (.notifyingFailure run (.thrown (.exception text))))

/-- What became of a claim: the envelope, the status of its job and the
text for the host. -/
structure Settled where
  archived : MailboxEnvelope
  taskStatus : TaskStatus
  notification : String

/-- Settle the claim of a run that returned a result. -/
def settleClaim (run : Service.RunFrame) (status : String) (a : Answers) :
    Service.Call ι κ Settled :=
  if status = "completed" then do
    let archived ← Service.onMailbox
      (M.store.completeDone run.claimed none a.now)
    pure
      { archived := archived
        taskStatus := .completed
        notification :=
          "Teammate '" ++ config.teammateId ++ "' completed mailbox item" }
  else do
    let settled ← Service.failWork M config run status a
    pure
      { archived := settled.1
        taskStatus := .failed
        notification := if settled.2.isSome then
            "Teammate '" ++ config.teammateId ++ "' scheduled mailbox retry"
          else "Teammate '" ++ config.teammateId ++ "' failed mailbox item" }

/-- The error of the job of a run. -/
def Settled.error (settled : Settled) (status : String) : Option String :=
  if settled.taskStatus = .completed then none
  else orText settled.archived.terminalReason (some status)

/-- From the end of the `try` to the last notification. -/
def settleRun (run : Service.RunFrame) (status : String) (a : Answers)
    (env : Env) : Call ι κ σ Service.RunFrame := do
  let settled ← onService (settleClaim M config run status a)
  let next := run.after
  onService (Service.writeSnapshot next)
  updateProjectionJob S run.taskId settled.taskStatus
    (some [(.str "run_id", .str run.runId), (.str "status", .str status),
      (.str "message_id", .str run.claimed.messageId.text)])
    (settled.error status)
    [(.str "session_id", .str run.registration.sessionId),
      (.str "teammate_state", .str next.state.value),
      (.str "mailbox_terminal_state", terminalText settled.archived),
      (.str "run_id", .str run.runId),
      (.str "kind", .str "teammate_projection")] env
  onService (Service.setProjection next (some run.taskId)
    (some settled.taskStatus)
    (some (if next.state = .stopped then "stopped" else "idle"))
    (some settled.notification))
  pure { run with snapshot := next }

/-- `process_next_work_item` after an await. -/
def resume (frame : Service.ProcessFrame) (a : Answers) (env : Env) :
    Call ι κ σ Service.Processing :=
  match frame with
  | .recovering frame => do
    let progress ← resumeRecover M S config frame a env
    afterRecover M S config a env progress
  | .completing frame result => do
    let frame ← onService (Service.resumeComplete config frame a)
    pure (Service.afterShutdown result frame)
  | .dispatching run =>
    match a.dispatchPrepared with
    | .ok status => pure (.waiting (.stoppingHeartbeat run (.ok status)))
    | .error .cancelled =>
      pure (.waiting (.stoppingHeartbeat run
        (.error (.thrown .cancelled))))
    | .error (.exception text) =>
      -- what the handler raises goes through the `finally` as well
      (failRun M S config run text a env).tryExcept fun error =>
        pure (.waiting (.stoppingHeartbeat run (.error error)))
  | .notifyingFailure run error =>
    match answered a.returned with
    | .ok _ => pure (.waiting (.stoppingHeartbeat run (.error error)))
    | .error error =>
      pure (.waiting (.stoppingHeartbeat run (.error error)))
  | .stoppingHeartbeat run outcome => do
    -- `_stop_heartbeat` swallows a cancellation
    let status ← Method.lift outcome
    let run ← settleRun M S config run status a env
    pure (.waiting (.notifying run status))
  | .notifying run status => onService (Service.endRun M config run status a)

end BoundService

-- ============ the runs

/-- The orchestrator of one teammate with the jobs, the coroutine that
holds the processing lock, and the calls of `recover` that are under
way. -/
structure BoundOrchestration (ι κ σ : Type) where
  bound : BoundService ι κ σ
  processing : Option Service.ProcessFrame
  recovering : List Service.RecoverFrame

namespace BoundOrchestration

variable {ι κ σ α : Type}

/-- A call that is made, or a coroutine that goes on. -/
inductive Action where
  | registerTeammate (request : BoundService.RegisterRequest)
  | publishWorkItem (item : Service.WorkItem)
      (messageId correlationId : UuidHex) (a : Answers)
  | processNextWorkItem (a : Answers) (env : Env)
  | resume (a : Answers) (env : Env)
  | recover (a : Answers) (env : Env)
  | resumeRecover (index : Nat) (a : Answers) (env : Env)
  | beat (now : Datetime)
  | enterPermissionWait (permissionId : String) (env : Env)
  | exitPermissionWait (permissionId : String) (env : Env)
  | beginShutdown (workflowId : UuidHex) (env : Env)

def call (t : BoundOrchestration ι κ σ) (m : BoundService.Call ι κ σ α) :
    BoundOrchestration ι κ σ :=
  { t with bound := (m.run t.bound).2 }

/-- Run the coroutine that has the lock. -/
def process (t : BoundOrchestration ι κ σ)
    (m : BoundService.Call ι κ σ Service.Processing) :
    BoundOrchestration ι κ σ :=
  { t with
    bound := (m.run t.bound).2
    processing := Service.frameOf (m.run t.bound).1 }

/-- Run a call of `recover`, which the calls `others` are under way
beside. -/
def recoverWith (t : BoundOrchestration ι κ σ)
    (others : List Service.RecoverFrame)
    (m : BoundService.Call ι κ σ (Service.Progress
      (List TeammateRecoveryResult) Service.RecoverFrame)) :
    BoundOrchestration ι κ σ :=
  { t with
    bound := (m.run t.bound).2
    recovering := others ++ (Service.frameOf (m.run t.bound).1).toList }

variable (M : TeammateMailbox ι κ) (S : JobStore σ)
  (config : OrchestrationConfig)

/-- The orchestrator, one piece of a coroutine a step. -/
def system : System (BoundOrchestration ι κ σ) Action where
  step t
    | .registerTeammate request =>
      some (t.call (BoundService.onService
        (BoundService.registerTeammate M config request)))
    | .publishWorkItem item messageId correlationId a =>
      some (t.call (BoundService.onService
        (Service.publishWorkItem M config item messageId correlationId a)))
    | .processNextWorkItem a env =>
      if t.processing.isSome then none
      else some (t.process
        (BoundService.processNextWorkItem M S config a env))
    | .resume a env =>
      t.processing.map fun frame =>
        t.process (BoundService.resume M S config frame a env)
    | .recover a env =>
      some (t.recoverWith t.recovering
        (BoundService.recover M S config a env))
    | .resumeRecover index a env =>
      t.recovering[index]?.map fun frame =>
        t.recoverWith (t.recovering.eraseIdx index)
          (BoundService.resumeRecover M S config frame a env)
    | .beat now =>
      (t.processing.bind (·.beating)).map fun run =>
        t.call (BoundService.onService (Service.beat M run now))
    | .enterPermissionWait permissionId env =>
      some (t.call
        (BoundService.enterPermissionWait M S permissionId env))
    | .exitPermissionWait permissionId env =>
      some (t.call (BoundService.exitPermissionWait M S permissionId env))
    | .beginShutdown workflowId env =>
      some (t.call
        (BoundService.beginShutdown M S config workflowId env))

/-- An orchestrator that has just started, over a mailbox and jobs that
may be there already. -/
def start (mailbox : MailboxState ι κ)
    (stateFile : Option TeammateStateSnapshot) (jobs : JobsState σ) :
    BoundOrchestration ι κ σ where
  bound :=
    { service :=
        { mailbox := mailbox
          stateFile := stateFile
          registration := none
          held := none
          projection := none
          recovered := false
          livePermissionWaits := []
          handed := [] }
      jobs := jobs }
  processing := none
  recovering := []

end BoundOrchestration

end WeaveRuntime.Teammates
